import Mathlib.Data.List.Nodup

namespace DanswerWeb.Message

/-- `Array.prototype.indexOf` on message ids: the index of the first occurrence, or `-1`. -/
def indexOf (list : List Nat) (id : Nat) : Int :=
  if list.indexOf id < list.length then list.indexOf id else -1

/-- JavaScript's `array[index]`: `undefined` outside the array. -/
def arrayAt (list : List Nat) (index : Int) : Option Nat :=
  if 0 ≤ index then list.get? index.toNat else none

/-- `currentMessageInd`, lines 297 to 299; a `messageId` of `null` or `0` is falsy. -/
def currentMessageInd (messageId : Option Nat) (otherMessagesCanSwitchTo : Option (List Nat)) :
    Option Int :=
  match messageId with
  | some id => if id ≠ 0 then otherMessagesCanSwitchTo.map fun others => indexOf others id else none
  | none => none

/-- What `AgenticMessage` reads to draw the switcher. -/
structure SwitcherProps where
  messageId : Option Nat
  otherMessagesCanSwitchTo : Option (List Nat)
  /-- Whether `onMessageSelection` is provided. -/
  onMessageSelection : Bool
  /-- Whether `handleFeedback` is provided. -/
  handleFeedback : Bool

/-- `includeMessageSwitcher`, lines 362 to 366. -/
def includeMessageSwitcher (props : SwitcherProps) : Bool :=
  (currentMessageInd props.messageId props.otherMessagesCanSwitchTo).isSome &&
    props.onMessageSelection &&
    match props.otherMessagesCanSwitchTo with
    | some others => decide (others.length > 1)
    | none => false

/-- `otherMessage`, lines 368 to 371: the message before the current one, for a truthy index. -/
def otherMessage (props : SwitcherProps) : Option Nat :=
  match currentMessageInd props.messageId props.otherMessagesCanSwitchTo,
    props.otherMessagesCanSwitchTo with
  | some index, some others => if index ≠ 0 then arrayAt others (index - 1) else none
  | _, _ => none

/-- A drawn `MessageSwitcher`: its page, page count, and the id each control selects. -/
structure Switcher where
  currentPage : Int
  totalPages : Nat
  previous : Option Nat
  next : Option Nat
  deriving DecidableEq

/-- `MessageSwitcher`, lines 685 to 713, with the ids its two handlers select. -/
def messageSwitcher (currentPage : Int) (totalPages : Nat) (handlePrevious handleNext : Nat) :
    Switcher where
  currentPage := currentPage
  totalPages := totalPages
  previous := if currentPage = 1 then none else some handlePrevious
  next := if currentPage = totalPages then none else some handleNext

/-- The switcher of lines 527 to 541 and 606 to 620; both handlers select `otherMessage`. -/
def renderedSwitcher (props : SwitcherProps) : Option Switcher :=
  match currentMessageInd props.messageId props.otherMessagesCanSwitchTo,
    props.otherMessagesCanSwitchTo, otherMessage props with
  | some index, some others, some other =>
    if props.handleFeedback && includeMessageSwitcher props then
      some (messageSwitcher (index + 1) others.length other other)
    else none
  | _, _, _ => none

section Distinct

variable {others : List Nat} {i : Nat}

theorem indexOf_get? (distinct : others.Nodup) (below : i < others.length) {id : Nat}
    (at_i : others.get? i = some id) : indexOf others id = i := by
  obtain rfl : others[i] = id := by simpa [List.get?_eq_getElem?, below] using at_i
  rw [indexOf, List.indexOf_getElem distinct i below, if_pos below]

theorem arrayAt_sub_one (positive : i ≠ 0) :
    arrayAt others ((i : Int) - 1) = others.get? (i - 1) := by
  rw [arrayAt, if_pos (by omega)]
  congr
  omega

end Distinct

/-- At index `i` the switcher is drawn only for `i > 0`, and both controls select `i - 1`. -/
theorem renderedSwitcher_at_index (props : SwitcherProps) (others : List Nat) (i : Nat)
    (distinct : others.Nodup) (many : 1 < others.length) (below : i < others.length)
    (nonzero : 0 ∉ others) (lists : props.otherMessagesCanSwitchTo = some others)
    (current : props.messageId = others.get? i) (selection : props.onMessageSelection = true)
    (feedback : props.handleFeedback = true) :
    renderedSwitcher props = if i = 0 then none else
      (others.get? (i - 1)).map fun other => messageSwitcher (i + 1) others.length other other := by
  obtain ⟨id, at_i⟩ : ∃ id, others.get? i = some id :=
    ⟨others[i], by simp [List.get?_eq_getElem?, below]⟩
  have present : id ≠ 0 := fun same => nonzero (same ▸ List.get?_mem at_i)
  have index : currentMessageInd props.messageId props.otherMessagesCanSwitchTo = some (i : Int) := by
    rw [current, lists, at_i]
    simp [currentMessageInd, present, indexOf_get? distinct below at_i]
  have included : includeMessageSwitcher props = true := by
    rw [includeMessageSwitcher, index, lists]
    simp [selection, many]
  unfold renderedSwitcher otherMessage
  rw [index, lists]
  by_cases first : i = 0
  · simp [first]
  · have positive : (i : Int) ≠ 0 := by exact_mod_cast first
    rw [if_neg first]
    simp only [if_pos positive, arrayAt_sub_one first]
    cases others.get? (i - 1) <;> simp [feedback, included]

theorem renderedSwitcher_at_index_middle :
    renderedSwitcher ⟨some 2, some [1, 2, 3], true, true⟩ = some (messageSwitcher 2 3 1 1) :=
  (renderedSwitcher_at_index ⟨some 2, some [1, 2, 3], true, true⟩ [1, 2, 3] 1 (by decide) (by decide)
    (by decide) (by decide) rfl rfl rfl rfl).trans (by decide)

/-- For the second of `[1, 2, 3]` the next control selects message 1, not message 3. -/
theorem renderedSwitcher_next_selects_previous :
    renderedSwitcher ⟨some 2, some [1, 2, 3], true, true⟩ = some ⟨2, 3, some 1, some 1⟩ := by
  decide

end DanswerWeb.Message
