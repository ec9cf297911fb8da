import Mathlib.Data.List.Basic
import Mathlib.Logic.Function.Iterate

namespace DanswerWeb.Message

variable {α : Type}

/-- The updater the reveal interval passes to `setStreamedContent` every 10 ms. -/
def revealTick (finalContent prev : List α) : List α :=
  if prev.length < finalContent.length then
    finalContent.take (min (prev.length + 5) finalContent.length)
  else finalContent

/-- `max(1, ceil((|finalContent| - |visible|) / 5))`: the ticks the reveal takes. -/
def settleTicks (finalContent visible : List α) : Nat :=
  max 1 ((finalContent.length - visible.length + 4) / 5)

section Reveal

variable (finalContent : List α)

theorem revealTick_self : revealTick finalContent finalContent = finalContent := by
  simp [revealTick]

/-- A tick on a prefix of the final text reveals five more of its characters. -/
theorem revealTick_take (n : Nat) :
    revealTick finalContent (finalContent.take n) =
      finalContent.take (min (n + 5) finalContent.length) := by
  by_cases short : n < finalContent.length
  · have length : (finalContent.take n).length = n := by simp; omega
    rw [revealTick, length, if_pos short]
  · rw [List.take_of_length_le (by omega), revealTick_self,
      List.take_of_length_le (by omega)]

/-- After `k + 1` ticks a shorter text shows `|S| + 5 (k + 1)` units of the final text. -/
theorem revealTick_iterate (visible : List α) (k : Nat) :
    (revealTick finalContent)^[k + 1] visible =
      if visible.length < finalContent.length then
        finalContent.take (min (visible.length + 5 * (k + 1)) finalContent.length)
      else finalContent := by
  induction k with
  | zero => rfl
  | succ k tail =>
    rw [Function.iterate_succ_apply', tail]
    split
    · rw [revealTick_take]
      congr 1
      omega
    · exact revealTick_self finalContent

theorem revealTick_iterate_prefix_final (visible : List α) (k : Nat) :
    (revealTick finalContent)^[k + 1] visible <+: finalContent := by
  rw [revealTick_iterate]
  split
  · exact List.take_prefix _ _
  · exact List.prefix_refl _

theorem revealTick_iterate_length (visible : List α) (k : Nat) :
    ((revealTick finalContent)^[k + 1] visible).length =
      if visible.length < finalContent.length then
        min (visible.length + 5 * (k + 1)) finalContent.length
      else finalContent.length := by
  rw [revealTick_iterate]
  split <;> simp

theorem revealTick_iterate_length_le_succ (visible : List α) (k : Nat) :
    ((revealTick finalContent)^[k + 1] visible).length ≤
      ((revealTick finalContent)^[k + 2] visible).length := by
  rw [revealTick_iterate_length, revealTick_iterate_length]
  split <;> omega

/-- The final text is shown exactly from tick `settleTicks` on. -/
theorem revealTick_iterate_eq_final_iff (visible : List α) (k : Nat) :
    (revealTick finalContent)^[k + 1] visible = finalContent ↔
      settleTicks finalContent visible ≤ k + 1 := by
  have length := revealTick_iterate_length finalContent visible k
  unfold settleTicks
  constructor
  · intro shown
    rw [shown] at length
    split at length <;> omega
  · intro late
    apply (revealTick_iterate_prefix_final finalContent visible k).eq_of_length
    rw [length]
    split <;> omega

theorem revealTick_iterate_length_of_short {visible : List α}
    (short : visible.length < finalContent.length) (k : Nat) :
    ((revealTick finalContent)^[k] visible).length = min (visible.length + 5 * k) finalContent.length := by
  cases k with
  | zero => simp; omega
  | succ k => rw [revealTick_iterate_length, if_pos short]

section Tick

variable (visible : List α)

theorem revealTick_prefix_final : revealTick finalContent visible <+: finalContent := by
  unfold revealTick
  split
  · exact List.take_prefix _ _
  · exact List.prefix_refl _

/-- A tick leaves the visible text as it is only when it is already the final text. -/
theorem revealTick_eq_self_iff : revealTick finalContent visible = visible ↔ visible = finalContent := by
  constructor
  · intro same
    unfold revealTick at same
    split at same
    · have := congrArg List.length same
      simp only [List.length_take] at this
      omega
    · exact same.symm
  · rintro rfl
    exact revealTick_self visible

/-- On a prefix of the final text a tick never shortens the visible text. -/
theorem length_le_revealTick {finalContent visible : List α} (shown : visible <+: finalContent) :
    visible.length ≤ (revealTick finalContent visible).length := by
  unfold revealTick
  split
  · simp only [List.length_take]
    omega
  · exact shown.length_le

end Tick

end Reveal

/-- Every tick of the reveal, from any text shown: its value, prefix, growth and settling. -/
theorem streamedContent_reveal (finalContent visible : List α) :
    (∀ k, (revealTick finalContent)^[k + 1] visible =
      if visible.length < finalContent.length then
        finalContent.take (min (visible.length + 5 * (k + 1)) finalContent.length)
      else finalContent) ∧
    (∀ k, (revealTick finalContent)^[k + 1] visible <+: finalContent) ∧
    (∀ k, ((revealTick finalContent)^[k + 1] visible).length ≤
      ((revealTick finalContent)^[k + 2] visible).length) ∧
    (∀ k, (revealTick finalContent)^[k + 1] visible = finalContent ↔
      settleTicks finalContent visible ≤ k + 1) ∧
    (∀ k, ((revealTick finalContent)^[k + 1] visible).length = finalContent.length ↔
      (revealTick finalContent)^[k + 1] visible = finalContent) :=
  ⟨revealTick_iterate finalContent visible, revealTick_iterate_prefix_final finalContent visible,
    revealTick_iterate_length_le_succ finalContent visible,
    revealTick_iterate_eq_final_iff finalContent visible,
    fun k => ⟨(revealTick_iterate_prefix_final finalContent visible k).eq_of_length,
      fun shown => by rw [shown]⟩⟩

/-- The reveal interval with its effect: the visible text and whether an interval is scheduled. -/
structure RevealState (α : Type) where
  streamedContent : List α
  running : Bool
  deriving DecidableEq

/-- One firing; the effect re-runs, scheduling a new interval, exactly when the text changed. -/
def revealStep [DecidableEq α] (finalContent : List α) (state : RevealState α) :
    RevealState α :=
  if state.running then
    let next := revealTick finalContent state.streamedContent
    ⟨next, next ≠ state.streamedContent⟩
  else state

/-- How many times the interval fires before it stays cleared. -/
def revealFirings [DecidableEq α] (finalContent visible : List α) : Nat :=
  if visible.length < finalContent.length then settleTicks finalContent visible + 1
  else if visible = finalContent then 1 else 2

section Interval

variable [DecidableEq α] (finalContent : List α)

theorem revealStep_cleared : revealStep finalContent ⟨finalContent, false⟩ = ⟨finalContent, false⟩ :=
  rfl

theorem revealStep_final : revealStep finalContent ⟨finalContent, true⟩ = ⟨finalContent, false⟩ := by
  simp [revealStep, revealTick_self]

/-- While the text shown is shorter, every firing grows it, up to tick `settleTicks`. -/
theorem revealStep_iterate_of_short {visible : List α}
    (short : visible.length < finalContent.length) :
    ∀ k ≤ settleTicks finalContent visible,
      (revealStep finalContent)^[k] ⟨visible, true⟩ = ⟨(revealTick finalContent)^[k] visible, true⟩
  | 0, _ => rfl
  | k + 1, within => by
    have before := revealTick_iterate_length_of_short finalContent short k
    have after := revealTick_iterate_length_of_short finalContent short (k + 1)
    have growing : (revealTick finalContent)^[k + 1] visible ≠ (revealTick finalContent)^[k] visible :=
      fun same => by
        rw [same, before] at after
        unfold settleTicks at within
        omega
    rw [Function.iterate_succ_apply', revealStep_iterate_of_short short k (by omega)]
    simp only [revealStep, if_true, ← Function.iterate_succ_apply' (revealTick finalContent), ne_eq,
      growing, not_false_eq_true, decide_True]

theorem revealStep_iterate_cleared (k : Nat) :
    (revealStep finalContent)^[k] ⟨finalContent, false⟩ = ⟨finalContent, false⟩ :=
  Function.iterate_fixed (revealStep_cleared finalContent) k

theorem revealStep_of_stopped {state : RevealState α} (stopped : state.running = false) :
    revealStep finalContent state = state := by
  simp [revealStep, stopped]

/-- A cleared interval stays cleared, so one running after `n` firings ran before each. -/
theorem revealStep_iterate_running_of_le {state : RevealState α} {n : Nat}
    (running : ((revealStep finalContent)^[n] state).running = true) :
    ∀ k ≤ n, ((revealStep finalContent)^[k] state).running = true := by
  intro k within
  by_contra stopped
  have fixed := Function.iterate_fixed
    (revealStep_of_stopped finalContent (Bool.eq_false_iff.mpr stopped)) (n - k)
  rw [← Function.iterate_add_apply, Nat.sub_add_cancel within] at fixed
  exact stopped (fixed ▸ running)

/-- The last firing finds the final text shown and an interval still scheduled. -/
theorem revealStep_last_firing (visible : List α) :
    (revealStep finalContent)^[revealFirings finalContent visible - 1] ⟨visible, true⟩ =
      ⟨finalContent, true⟩ := by
  unfold revealFirings
  split
  · next short =>
    obtain ⟨k, ticks⟩ : ∃ k, settleTicks finalContent visible = k + 1 :=
      ⟨settleTicks finalContent visible - 1, by unfold settleTicks; omega⟩
    rw [Nat.add_sub_cancel, revealStep_iterate_of_short finalContent short _ le_rfl, ticks,
      (revealTick_iterate_eq_final_iff _ _ _).mpr ticks.le]
  · split
    · next same => exact same ▸ rfl
    · next long other => simp [revealStep, revealTick, long, Ne.symm other]

theorem revealFirings_pos (visible : List α) : 0 < revealFirings finalContent visible := by
  unfold revealFirings
  split_ifs <;> omega

/-- From firing `revealFirings` on, the interval is cleared with the final text shown. -/
theorem revealStep_iterate_settled (visible : List α) (k : Nat) :
    (revealStep finalContent)^[revealFirings finalContent visible + k] ⟨visible, true⟩ =
      ⟨finalContent, false⟩ := by
  have split : revealFirings finalContent visible + k =
      k + 1 + (revealFirings finalContent visible - 1) := by
    have := revealFirings_pos finalContent visible
    omega
  rw [split, Function.iterate_add_apply, revealStep_last_firing, Function.iterate_succ_apply,
    revealStep_final, revealStep_iterate_cleared]

end Interval

/-- The interval fires exactly `revealFirings F S` times, then stays cleared showing `F`. -/
theorem revealStep_stops [DecidableEq α] (finalContent visible : List α) :
    (∀ k < revealFirings finalContent visible,
      ((revealStep finalContent)^[k] ⟨visible, true⟩).running = true) ∧
    ∀ k, (revealStep finalContent)^[revealFirings finalContent visible + k] ⟨visible, true⟩ =
      ⟨finalContent, false⟩ :=
  ⟨fun k below => revealStep_iterate_running_of_le finalContent
      (by rw [revealStep_last_firing]) k (by omega),
    revealStep_iterate_settled finalContent visible⟩

end DanswerWeb.Message
