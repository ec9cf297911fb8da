import Mathlib.Data.List.Basic

namespace DanswerWeb.Sidebar

/-- What a `catch` receives: an `Error`, `null` or `undefined`, or another value. -/
inductive Thrown
  | error (message : String)
  | nullish
  | other
  deriving DecidableEq

/-- The backend calls the folder handlers await. -/
inductive FolderApi
  | updateFolderName (folderId : Int) (newName : String)
  | deleteFolder (folderId : Int)
  | createFolder (name : String)
  | addChatToFolder (folderId : Int) (chatSessionId : String)
  | refreshFolders
  deriving DecidableEq

inductive PopupType
  | success
  | error
  deriving DecidableEq

/-- The argument of `setPopup`. -/
structure Popup where
  message : String
  type : PopupType
  deriving DecidableEq

/-- What a handler does, in order. -/
inductive FolderEffect
  | call (api : FolderApi)
  | routerRefresh
  | popup (popup : Popup)
  /-- `setIsCreatingFolder(false)`. -/
  | closeNewFolderInput
  /-- The handler's promise rejects with a value no `catch` handles. -/
  | rejected (thrown : Thrown)
  /-- The `catch` reads `.message` of `null` or `undefined`, and its `TypeError` goes unhandled. -/
  | catchFailed
  deriving DecidableEq

/-- A statement of a `try` block: an awaited call, or an effect that does not throw. -/
inductive TryStep
  | await (api : FolderApi)
  | run (effect : FolderEffect)

/-- What a statement of a `try` block does when it does not throw. -/
def TryStep.effect : TryStep → FolderEffect
  | .await api => .call api
  | .run effect => effect

/-- The call a statement awaits. -/
def TryStep.awaited : TryStep → Option FolderApi
  | .await api => some api
  | .run _ => none

section Try

variable (outcome : FolderApi → Option Thrown) (onError : Thrown → Option Popup)

/-- `try { steps } catch (error) { setPopup(onError(error)) }`, calls settling by `outcome`. -/
def runTry : List TryStep → List FolderEffect
  | [] => []
  | .run effect :: rest => effect :: runTry rest
  | .await api :: rest =>
    match outcome api with
    | none => .call api :: runTry rest
    | some thrown => [.call api, ((onError thrown).map .popup).getD .catchFailed]

/-- An `await` outside any `try`: a rejection rejects the handler's promise. -/
def awaitUncaught (api : FolderApi) : List FolderEffect :=
  match outcome api with
  | none => [.call api]
  | some thrown => [.call api, .rejected thrown]

end Try

/-- `(error as Error).message` in a template literal; reading it of `null` or `undefined` throws. -/
def errorMessage : Thrown → Option String
  | .error message => some message
  | .nullish => none
  | .other => some "undefined"

/-- The `catch` of `handleEditFolder`. -/
def editFolderFailure (error : Thrown) : Option Popup :=
  (errorMessage error).map fun message => ⟨"Failed to update folder: " ++ message, .error⟩

/-- `handleEditFolder`, lines 125 to 143. -/
def handleEditFolder (outcome : FolderApi → Option Thrown) (folderId : Int) (newName : String) :
    List FolderEffect :=
  runTry outcome editFolderFailure
    [.await (.updateFolderName folderId newName),
      .run (.popup ⟨"Folder updated successfully", .success⟩), .await .refreshFolders]

/-- The `.catch` of `handleDeleteFolder`. -/
def deleteFolderFailure (error : Thrown) : Option Popup :=
  (errorMessage error).map fun message => ⟨"Failed to delete folder: " ++ message, .error⟩

/-- `handleDeleteFolder`, lines 145 to 170, given the answer of `confirm` to each question. -/
def handleDeleteFolder (outcome : FolderApi → Option Thrown) (confirm : String → Bool)
    (folderId : Int) : List FolderEffect :=
  if confirm "Are you sure you want to delete this folder? This action cannot be undone." then
    runTry outcome deleteFolderFailure
      [.await (.deleteFolder folderId), .run .routerRefresh,
        .run (.popup ⟨"Folder deleted successfully", .success⟩)]
  else []

/-- The `catch` of `handleNewFolderSubmit`, where `instanceof Error` guards `.message`. -/
def newFolderFailure : Thrown → Option Popup
  | .error message => some ⟨message, .error⟩
  | _ => some ⟨"Failed to create folder", .error⟩

/-- `handleNewFolderSubmit`, lines 179 to 206; an `undefined` input value is the empty text. -/
def handleNewFolderSubmit (outcome : FolderApi → Option Thrown) (newFolderName : String) :
    List FolderEffect :=
  (if newFolderName ≠ "" then
    runTry outcome newFolderFailure
      [.await (.createFolder newFolderName), .await .refreshFolders, .run .routerRefresh,
        .run (.popup ⟨"Folder created successfully", .success⟩)]
  else []) ++ [.closeNewFolderInput]

/-- The `catch` of `handleDrop`, where `instanceof Error` guards `.message`. -/
def dropFailure (error : Thrown) : Option Popup :=
  some ⟨"Failed to add chat to folder: " ++
    (match error with
      | .error message => message
      | _ => "Unknown error"), .error⟩

/-- `handleDrop`, lines 221 to 244, whose last `refreshFolders` no `catch` surrounds. -/
def handleDrop (outcome : FolderApi → Option Thrown) (folderId : Int) (chatSessionId : String) :
    List FolderEffect :=
  runTry outcome dropFailure
    [.await (.addChatToFolder folderId chatSessionId), .run .routerRefresh,
      .run (.popup ⟨"Chat added to folder successfully", .success⟩)] ++
    awaitUncaught outcome .refreshFolders

end DanswerWeb.Sidebar
