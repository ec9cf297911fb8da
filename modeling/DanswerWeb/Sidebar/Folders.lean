import DanswerWeb.Text.Number
import Mathlib.Data.List.InsertIdx
import Mathlib.Data.List.Perm.Basic

namespace DanswerWeb.Sidebar

open DanswerWeb.Text

/-- The fields of a folder that the drag handler and the display sort read. -/
structure Folder where
  folderId : Option Int
  displayPriority : Option Int

/-- `f.folder_id?.toString()`: the id a sortable folder carries. -/
def folderIdText (folder : Folder) : Option String :=
  folder.folderId.map toString

/-- `folders.sort` by `display_priority ?? 0`, stable and in place, as the sidebar shows them. -/
def sortByDisplayPriority (folders : List Folder) : List Folder :=
  folders.mergeSort fun a b => decide (a.displayPriority.getD 0 ≤ b.displayPriority.getD 0)

/-- `arrayMove` of dnd-kit: the item at `fromIndex` is taken out and put back at `toIndex`. -/
def arrayMove {α : Type} (array : List α) (fromIndex toIndex : Nat) : List α :=
  match array[fromIndex]? with
  | some item => (array.eraseIdx fromIndex).insertIdx toIndex item
  | none => array

/-- One step of the `reduce` of lines 304 to 312: `acc[folder.folder_id] = index`. -/
def setPriority (acc : Int → Option Nat) (entry : Nat × Folder) : Int → Option Nat :=
  match entry.2.folderId with
  | some id => fun key => if key = id then some entry.1 else acc key
  | none => acc

/-- `displayPriorityMap`: each folder's id mapped to its index in the new order. -/
def displayPriorityMap (newOrder : List Folder) : Int → Option Nat :=
  newOrder.enum.foldl setPriority fun _ => none

/-- The ids a `DragEndEvent` carries: the dragged item's, and the one under it, if any. -/
structure DragEndEvent where
  active : String
  over : Option String

/-- A call `handleDragEnd` makes. -/
inductive FolderCall
  | updateFolderDisplayPriorities (displayPriorityMap : Int → Option Nat)
  | reorderFolders (displayPriorityMap : Int → Option Nat)

/-- `handleDragEnd`, lines 290 to 320: the calls it makes, in order. -/
def handleDragEnd (folders : Option (List Folder)) (event : DragEndEvent) : List FolderCall :=
  match folders with
  | some folders =>
    if some event.active ≠ event.over then
      match folders.findIdx? (fun folder => folderIdText folder = some event.active),
        folders.findIdx? (fun folder => folderIdText folder = event.over) with
      | some oldIndex, some newIndex =>
        let newOrder := arrayMove folders oldIndex newIndex
        [.updateFolderDisplayPriorities (displayPriorityMap newOrder),
          .reorderFolders (displayPriorityMap newOrder)]
      | _, _ => []
    else []
  | none => []

/-- A folder list as the sidebar holds it: every folder has an id, and no two share one. -/
structure FolderList where
  folders : List Folder
  defined : ∀ folder ∈ folders, folder.folderId.isSome
  distinct : (folders.map Folder.folderId).Nodup

/-- The folders in the order the sidebar shows them, still a folder list. -/
def FolderList.displayed (list : FolderList) : FolderList where
  folders := sortByDisplayPriority list.folders
  defined folder mem := list.defined folder ((List.mergeSort_perm _ _).subset mem)
  distinct := ((List.mergeSort_perm _ _).map Folder.folderId).nodup_iff.mpr list.distinct

section PriorityMap

theorem setPriority_apply (acc : Int → Option Nat) (index : Nat) (folder : Folder) (key : Int) :
    setPriority acc (index, folder) key =
      if some key = folder.folderId then some index else acc key := by
  cases named : folder.folderId <;> simp [setPriority, named]

theorem foldl_setPriority_isSome (key : Int) :
    ∀ (order : List Folder) (acc : Int → Option Nat) (start : Nat),
      ((order.enumFrom start).foldl setPriority acc key).isSome ↔
        (acc key).isSome ∨ some key ∈ order.map Folder.folderId
  | [], acc, start => by simp
  | folder :: order, acc, start => by
    rw [List.enumFrom_cons, List.foldl_cons, foldl_setPriority_isSome key order, setPriority_apply]
    by_cases same : some key = folder.folderId <;> simp [same]

/-- A key no folder of the order has keeps the value it had before the order. -/
theorem foldl_setPriority_of_not_mem {key : Int} :
    ∀ {order : List Folder}, some key ∉ order.map Folder.folderId → ∀ acc start,
      (order.enumFrom start).foldl setPriority acc key = acc key
  | [], _, _, _ => rfl
  | folder :: order, absent, acc, start => by
    simp only [List.map_cons, List.mem_cons, not_or] at absent
    rw [List.enumFrom_cons, List.foldl_cons, foldl_setPriority_of_not_mem absent.2, setPriority_apply,
      if_neg absent.1]

/-- Along an order whose folders have distinct ids, the ranks read back are the positions. -/
theorem filterMap_foldl_setPriority :
    ∀ {order : List Folder}, (∀ folder ∈ order, folder.folderId.isSome) →
      (order.map Folder.folderId).Nodup → ∀ acc start,
        order.filterMap (fun folder =>
          folder.folderId.bind ((order.enumFrom start).foldl setPriority acc)) =
          List.range' start order.length
  | [], _, _, _, _ => rfl
  | folder :: order, defined, distinct, acc, start => by
    obtain ⟨id, named⟩ := Option.isSome_iff_exists.mp (defined folder (List.mem_cons_self _ _))
    rw [List.map_cons, List.nodup_cons, named] at distinct
    have tail := filterMap_foldl_setPriority (fun other mem => defined other (List.mem_cons_of_mem _ mem))
      distinct.2 (setPriority acc (start, folder)) (start + 1)
    rw [List.enumFrom_cons, List.foldl_cons, List.filterMap_cons, named, Option.some_bind,
      foldl_setPriority_of_not_mem distinct.1, tail, List.length_cons, List.range'_succ]
    simp [setPriority_apply, named]

theorem displayPriorityMap_isSome (order : List Folder) (key : Int) :
    (displayPriorityMap order key).isSome ↔ some key ∈ order.map Folder.folderId := by
  simpa using foldl_setPriority_isSome key order (fun _ => none) 0

theorem displayPriorityMap_ranks {order : List Folder} (defined : ∀ folder ∈ order, folder.folderId.isSome)
    (distinct : (order.map Folder.folderId).Nodup) :
    order.filterMap (fun folder => folder.folderId.bind (displayPriorityMap order)) =
      List.range order.length := by
  rw [List.range_eq_range']
  exact filterMap_foldl_setPriority defined distinct _ 0

end PriorityMap

section Move

variable {α : Type} {array : List α} {fromIndex : Nat} {item : α}

theorem cons_eraseIdx_perm (found : array[fromIndex]? = some item) :
    (item :: array.eraseIdx fromIndex).Perm array := by
  obtain ⟨below, rfl⟩ := List.getElem?_eq_some_iff.mp found
  have split := List.take_append_drop fromIndex array
  rw [List.drop_eq_getElem_cons below] at split
  conv => rhs; rw [← split]
  rw [List.eraseIdx_eq_take_drop_succ]
  exact List.perm_middle.symm

theorem arrayMove_perm (found : array[fromIndex]? = some item) {toIndex : Nat}
    (fits : toIndex < array.length) : (arrayMove array fromIndex toIndex).Perm array := by
  have below := (List.getElem?_eq_some_iff.mp found).1
  rw [arrayMove, found]
  exact (List.perm_insertIdx item _ (by rw [List.length_eraseIdx_of_lt below]; omega)).trans
    (cons_eraseIdx_perm found)

theorem arrayMove_getElem? (found : array[fromIndex]? = some item) {toIndex : Nat}
    (fits : toIndex < array.length) : (arrayMove array fromIndex toIndex)[toIndex]? = some item := by
  have below := (List.getElem?_eq_some_iff.mp found).1
  have room : toIndex ≤ (array.eraseIdx fromIndex).length := by
    rw [List.length_eraseIdx_of_lt below]; omega
  rw [arrayMove, found, List.getElem?_eq_getElem (by rw [List.length_insertIdx _ _ room]; omega),
    List.getElem_insertIdx_self _ _ _ room]

/-- Without the moved item the new order is the old one without it. -/
theorem arrayMove_eraseIdx (found : array[fromIndex]? = some item) (toIndex : Nat) :
    (arrayMove array fromIndex toIndex).eraseIdx toIndex = array.eraseIdx fromIndex := by
  rw [arrayMove, found, List.eraseIdx_insertIdx]

theorem map_eraseIdx {β : Type} (f : α → β) :
    ∀ (array : List α) (index : Nat), (array.eraseIdx index).map f = (array.map f).eraseIdx index
  | [], _ => rfl
  | _ :: _, 0 => rfl
  | item :: array, index + 1 => by
    simp only [List.eraseIdx_cons_succ, List.map_cons, map_eraseIdx f array index]

theorem map_insertIdx {β : Type} (f : α → β) (item : α) :
    ∀ (array : List α) (index : Nat),
      (array.insertIdx index item).map f = (array.map f).insertIdx index (f item)
  | array, 0 => by simp only [List.insertIdx_zero, List.map_cons]
  | [], _ + 1 => rfl
  | first :: array, index + 1 => by
    simp only [List.insertIdx_succ_cons, List.map_cons, map_insertIdx f item array index]

/-- Moving commutes with renaming the items. -/
theorem arrayMove_map {β : Type} (f : α → β) (array : List α) (fromIndex toIndex : Nat) :
    arrayMove (array.map f) fromIndex toIndex = (arrayMove array fromIndex toIndex).map f := by
  unfold arrayMove
  rw [List.getElem?_map]
  cases array[fromIndex]? with
  | none => rfl
  | some item => simp only [Option.map_some', map_insertIdx, map_eraseIdx]

end Move

/-- In a folder list the id text of a folder names that folder only, so `findIndex` finds it. -/
theorem findIdx?_folderIdText (list : FolderList) {index : Nat} {folder : Folder}
    (found : list.folders[index]? = some folder) {text : Option String}
    (named : folderIdText folder = text) :
    list.folders.findIdx? (fun other => folderIdText other = text) = some index := by
  obtain ⟨below, rfl⟩ := List.getElem?_eq_some_iff.mp found
  rw [List.findIdx?_eq_some_iff_getElem]
  refine ⟨below, by simp [named], fun j earlier same => ?_⟩
  have sameId : list.folders[j].folderId = list.folders[index].folderId :=
    Option.map_injective toString_int_injective ((of_decide_eq_true same).trans named.symm)
  have sameEntry : (list.folders.map Folder.folderId)[j]? = (list.folders.map Folder.folderId)[index]? := by
    simp [List.getElem?_eq_getElem (Nat.lt_trans earlier below), List.getElem?_eq_getElem below, sameId]
  have := List.getElem?_inj (by simpa using Nat.lt_trans earlier below) list.distinct sameEntry
  omega

/-- A drop calls nothing, or moves the found folder and hands that order's ranks to both calls. -/
theorem handleDragEnd_cases (folders : List Folder) (event : DragEndEvent) :
    handleDragEnd (some folders) event = [] ∨
      ∃ a b, folders.findIdx? (fun folder => folderIdText folder = some event.active) = some a ∧
        folders.findIdx? (fun folder => folderIdText folder = event.over) = some b ∧
        handleDragEnd (some folders) event =
          [.updateFolderDisplayPriorities (displayPriorityMap (arrayMove folders a b)),
            .reorderFolders (displayPriorityMap (arrayMove folders a b))] := by
  simp only [handleDragEnd]
  split
  · split
    · next a b foundA foundB => exact .inr ⟨a, b, foundA, foundB, rfl⟩
    · exact .inl rfl
  · exact .inl rfl

/-- A drop of the folder at `a` onto another at `b` hands both calls the moved order's ranks. -/
theorem handleDragEnd_of_found (list : FolderList) {event : DragEndEvent} {a b : Nat}
    {dragged target : Folder} (atA : list.folders[a]? = some dragged)
    (atB : list.folders[b]? = some target) (active : folderIdText dragged = some event.active)
    (over : folderIdText target = event.over) (differ : some event.active ≠ event.over) :
    handleDragEnd (some list.folders) event =
      [.updateFolderDisplayPriorities (displayPriorityMap (arrayMove list.folders a b)),
        .reorderFolders (displayPriorityMap (arrayMove list.folders a b))] := by
  simp only [handleDragEnd, if_pos differ, findIdx?_folderIdText list atA active,
    findIdx?_folderIdText list atB over]

/-- A move within a folder list keeps every id defined and no two alike. -/
theorem arrayMove_ids (list : FolderList) {a b : Nat} {dragged target : Folder}
    (atA : list.folders[a]? = some dragged) (atB : list.folders[b]? = some target) :
    (∀ folder ∈ arrayMove list.folders a b, folder.folderId.isSome) ∧
      ((arrayMove list.folders a b).map Folder.folderId).Nodup :=
  have moved := arrayMove_perm atA (List.getElem?_eq_some_iff.mp atB).1
  ⟨fun folder mem => list.defined folder (moved.subset mem),
    (moved.map Folder.folderId).nodup_iff.mpr list.distinct⟩

/-- A folder of a folder list whose id's text is not `text` has another id text. -/
theorem folderIdText_ne (list : FolderList) {folder : Folder} (mem : folder ∈ list.folders)
    {text : Option String} (unnamed : ∀ id, folder.folderId = some id → some (toString id) ≠ text) :
    folderIdText folder ≠ text := by
  obtain ⟨id, named⟩ := Option.isSome_iff_exists.mp (list.defined folder mem)
  simpa [folderIdText, named] using unnamed id named

/-- `handleDragEnd` on a folder list: what it calls for every drop. -/
theorem handleDragEnd_reorders (list : FolderList) (event : DragEndEvent) :
    (some event.active = event.over → handleDragEnd (some list.folders) event = []) ∧
    ((∀ folder ∈ list.folders, ∀ id, folder.folderId = some id → toString id ≠ event.active) ∨
      (∀ folder ∈ list.folders, ∀ id, folder.folderId = some id → some (toString id) ≠ event.over) →
        handleDragEnd (some list.folders) event = []) ∧
    (∀ (a b : Nat) (dragged target : Folder) (i j : Int), list.folders[a]? = some dragged →
      list.folders[b]? = some target → dragged.folderId = some i → target.folderId = some j →
      event.active = toString i → event.over = some (toString j) → i ≠ j →
      ∃ (priorities : Int → Option Nat) (newOrder : List Folder),
        handleDragEnd (some list.folders) event =
          [.updateFolderDisplayPriorities priorities, .reorderFolders priorities] ∧
        (∀ id, (priorities id).isSome ↔ some id ∈ list.folders.map Folder.folderId) ∧
        (list.folders.filterMap fun folder => folder.folderId.bind priorities).Perm
          (List.range list.folders.length) ∧
        newOrder.filterMap (fun folder => folder.folderId.bind priorities) =
          List.range list.folders.length ∧
        newOrder[b]? = some dragged ∧ newOrder.eraseIdx b = list.folders.eraseIdx a) := by
  refine ⟨fun same => by simp [handleDragEnd, same], fun missing => ?_, ?_⟩
  · simp only [handleDragEnd]
    rcases missing with absent | absent
    · have unnamed : ∀ folder ∈ list.folders, folderIdText folder ≠ some event.active :=
        fun folder mem => folderIdText_ne list mem fun id named =>
          mt Option.some.inj (absent folder mem id named)
      rw [List.findIdx?_eq_none_iff.mpr (by simpa using unnamed)]
      split <;> rfl
    · have unnamed : ∀ folder ∈ list.folders, folderIdText folder ≠ event.over :=
        fun folder mem => folderIdText_ne list mem (absent folder mem)
      have missed : list.folders.findIdx? (fun folder => folderIdText folder = event.over) = none :=
        List.findIdx?_eq_none_iff.mpr (by simpa using unnamed)
      rw [missed]
      split
      · cases list.folders.findIdx? (fun folder => folderIdText folder = some event.active) <;> rfl
      · rfl
  · intro a b dragged target i j atA atB idA idB active over differ
    have below := (List.getElem?_eq_some_iff.mp atB).1
    have moved := arrayMove_perm atA below
    obtain ⟨defined, distinct⟩ := arrayMove_ids list atA atB
    refine ⟨displayPriorityMap (arrayMove list.folders a b), arrayMove list.folders a b, ?_,
      fun id => ?_, ?_, ?_, arrayMove_getElem? atA below, arrayMove_eraseIdx atA b⟩
    · refine handleDragEnd_of_found list atA atB (by simp [folderIdText, idA, active])
        (by simp [folderIdText, idB, over]) ?_
      rw [active, over]
      exact mt (fun same => toString_int_injective (Option.some.inj same)) differ
    · rw [displayPriorityMap_isSome]
      exact (moved.map Folder.folderId).mem_iff
    · rw [← moved.length_eq, ← displayPriorityMap_ranks defined distinct]
      exact (moved.filterMap _).symm
    · rw [← moved.length_eq]
      exact displayPriorityMap_ranks defined distinct

theorem handleDragEnd_reorders_last_first :
    let list : FolderList :=
      ⟨[⟨some 7, some 0⟩, ⟨some 8, some 1⟩, ⟨some 9, some 2⟩], by decide, by decide⟩
    list.folders[2]? = some ⟨some 9, some 2⟩ ∧ list.folders[0]? = some ⟨some 7, some 0⟩ ∧
    "9" = toString (9 : Int) ∧ some "7" = some (toString (7 : Int)) ∧ (9 : Int) ≠ 7 ∧
    ∃ (priorities : Int → Option Nat) (newOrder : List Folder),
      handleDragEnd (some list.folders) ⟨"9", some "7"⟩ =
        [.updateFolderDisplayPriorities priorities, .reorderFolders priorities] ∧
      newOrder[0]? = some ⟨some 9, some 2⟩ ∧
      newOrder.eraseIdx 0 = [⟨some 7, some 0⟩, ⟨some 8, some 1⟩] := by
  intro list
  obtain ⟨priorities, newOrder, calls, -, -, -, first, rest⟩ :=
    (handleDragEnd_reorders list ⟨"9", some "7"⟩).2.2 2 0 ⟨some 9, some 2⟩ ⟨some 7, some 0⟩ 9 7
      rfl rfl rfl rfl (by decide) (by decide) (by decide)
  exact ⟨rfl, rfl, by decide, by decide, by decide, priorities, newOrder, calls, first, rest⟩

end DanswerWeb.Sidebar
