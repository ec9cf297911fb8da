import DanswerWeb.Message.Streaming
import Mathlib.Data.List.Chain

namespace DanswerWeb.Message

variable {α : Type}

/-- What the streaming effect of `AgenticMessage` reads and writes. -/
structure Revealer (α : Type) where
  finalContent : List α
  streamedContent : List α
  allowStreaming : Bool
  /-- Whether an interval is scheduled. -/
  running : Bool
  deriving DecidableEq

/-- What can happen to a message while it is shown. -/
inductive RevealEvent (α : Type)
  /-- The interval fires. -/
  | tick
  /-- A render with new `content`, whose `processContent` is `finalContent`. -/
  | content (finalContent : List α)
  /-- `setAllowStreaming(true)`. -/
  | allow
  deriving DecidableEq

/-- The final text an event brings. -/
def RevealEvent.delivered : RevealEvent α → Option (List α)
  | .content finalContent => some finalContent
  | _ => none

/-- The mount: `useState(processContent(content))`, `useState(isComplete)`, the first effect. -/
def revealerInit (finalContent : List α) (isComplete : Bool) : Revealer α :=
  ⟨finalContent, finalContent, isComplete, isComplete⟩

/-- What holds in every state reached from the mount text `initial` after the texts `delivered`. -/
structure Revealer.Consistent (initial : List α) (delivered : List (List α))
    (state : Revealer α) : Prop where
  /-- Without streaming no interval runs and the text shown is the one of the mount. -/
  frozen : state.allowStreaming = false → state.running = false ∧ state.streamedContent = initial
  /-- With streaming, a revealer whose interval stopped shows the final text. -/
  settled : state.allowStreaming = true → state.running = false →
    state.streamedContent = state.finalContent
  current : state.finalContent ∈ initial :: delivered
  /-- The text shown is the start of a text the message was given. -/
  given : ∃ text ∈ initial :: delivered, state.streamedContent <+: text

theorem consistent_revealerInit (initial : List α) (isComplete : Bool) :
    (revealerInit initial isComplete).Consistent initial [] where
  frozen off := ⟨off, rfl⟩
  settled streaming stopped := absurd (streaming.symm.trans stopped) Bool.noConfusion
  current := List.mem_singleton_self _
  given := ⟨initial, List.mem_singleton_self _, List.prefix_refl _⟩

/-- More delivered texts keep a state consistent. -/
theorem Revealer.Consistent.widen {initial : List α} {delivered : List (List α)}
    {state : Revealer α} (consistent : state.Consistent initial delivered)
    (more : List (List α)) : state.Consistent initial (delivered ++ more) :=
  have wider : ∀ {text}, text ∈ initial :: delivered → text ∈ initial :: (delivered ++ more) :=
    fun mem => List.cons_append initial delivered more ▸ List.mem_append_left _ mem
  let ⟨frozen, settled, current, text, mem, shown⟩ := consistent
  ⟨frozen, settled, wider current, text, wider mem, shown⟩

section Step

variable [DecidableEq α]

/-- One event; new content, or streaming switched on, re-runs the effect and its interval. -/
def revealerStep (state : Revealer α) : RevealEvent α → Revealer α
  | .tick =>
    let next := revealStep state.finalContent ⟨state.streamedContent, state.running⟩
    { state with streamedContent := next.streamedContent, running := next.running }
  | .content finalContent =>
    { state with finalContent := finalContent, running := state.allowStreaming }
  | .allow =>
    if state.allowStreaming then state else { state with allowStreaming := true, running := true }

/-- The state after some events. -/
def revealerRun (initial : List α) (isComplete : Bool) (events : List (RevealEvent α)) :
    Revealer α :=
  events.foldl revealerStep (revealerInit initial isComplete)

/-- The states a message goes through over some events, starting with the mount. -/
def revealerTrace (initial : List α) (isComplete : Bool) (events : List (RevealEvent α)) :
    List (Revealer α) :=
  events.scanl revealerStep (revealerInit initial isComplete)

/-- A scheduled interval shows `revealTick`'s text and stays scheduled when that changed it. -/
theorem revealerStep_tick (state : Revealer α) :
    revealerStep state .tick =
      if state.running then
        { state with
          streamedContent := revealTick state.finalContent state.streamedContent
          running := decide (revealTick state.finalContent state.streamedContent ≠
            state.streamedContent) }
      else state := by
  obtain ⟨finalContent, streamedContent, allowStreaming, running⟩ := state
  cases running <;> rfl

/-- Every event keeps the revealer consistent, counting the text it delivers. -/
theorem Revealer.Consistent.step {initial : List α} {delivered : List (List α)}
    {state : Revealer α} (consistent : state.Consistent initial delivered) (event : RevealEvent α) :
    (revealerStep state event).Consistent initial (delivered ++ event.delivered.toList) := by
  have wide := consistent.widen event.delivered.toList
  cases event with
  | tick =>
    rw [revealerStep_tick]
    split
    · next running =>
      refine ⟨fun off => ?_, fun _ stopped => ?_, wide.current,
        ⟨_, wide.current, revealTick_prefix_final _ _⟩⟩
      · simp [(consistent.frozen off).1] at running
      · have same : revealTick state.finalContent state.streamedContent = state.streamedContent := by
          simpa using stopped
        show revealTick state.finalContent state.streamedContent = state.finalContent
        rw [same]
        exact (revealTick_eq_self_iff _ _).mp same
    · exact wide
  | content finalContent =>
    exact ⟨fun off => ⟨off, (consistent.frozen off).2⟩,
      fun streaming stopped => absurd (streaming.symm.trans stopped) Bool.noConfusion,
      by simp [revealerStep, RevealEvent.delivered], wide.given⟩
  | allow =>
    cases streaming : state.allowStreaming
    · simp only [revealerStep, streaming, Bool.false_eq_true, if_false]
      exact ⟨fun off => Bool.noConfusion off, fun _ stopped => Bool.noConfusion stopped,
        wide.current, wide.given⟩
    · simp only [revealerStep, streaming, if_true]
      exact wide

theorem Revealer.Consistent.run {initial : List α} :
    ∀ (events : List (RevealEvent α)) {delivered : List (List α)} {state : Revealer α},
      state.Consistent initial delivered →
        (events.foldl revealerStep state).Consistent initial
          (delivered ++ events.filterMap RevealEvent.delivered)
  | [], _, _, consistent => by simpa using consistent
  | event :: events, delivered, _, consistent => by
    have tail := (consistent.step event).run events
    cases event <;> simpa [RevealEvent.delivered] using tail

/-- Over every run: frozen without streaming, settled once stopped, a prefix of a text given. -/
theorem revealerRun_consistent (initial : List α) (isComplete : Bool)
    (events : List (RevealEvent α)) :
    let state := revealerRun initial isComplete events
    (state.allowStreaming = false → state.running = false ∧ state.streamedContent = initial) ∧
    (state.allowStreaming = true → state.running = false →
      state.streamedContent = state.finalContent) ∧
    ∃ text ∈ initial :: events.filterMap RevealEvent.delivered, state.streamedContent <+: text := by
  have consistent := (consistent_revealerInit initial isComplete).run events
  rw [List.nil_append] at consistent
  exact ⟨consistent.frozen, consistent.settled, consistent.given⟩

/-- `k` ticks in a row run the interval's updater `k` times. -/
theorem foldl_revealerStep_ticks (state : Revealer α) (k : Nat) :
    (List.replicate k RevealEvent.tick).foldl revealerStep state =
      let reached := (revealStep state.finalContent)^[k] ⟨state.streamedContent, state.running⟩
      { state with streamedContent := reached.streamedContent, running := reached.running } := by
  induction k generalizing state with
  | zero => rfl
  | succ k ih =>
    rw [List.replicate_succ, List.foldl_cons, ih, Function.iterate_succ_apply]
    rfl

/-- From a consistent streaming state, `revealFirings` firings on show the final text, stopped. -/
theorem Revealer.Consistent.settles {initial : List α} {delivered : List (List α)}
    {state : Revealer α} (consistent : state.Consistent initial delivered)
    (streaming : state.allowStreaming = true) (k : Nat) :
    let settled := (List.replicate (revealFirings state.finalContent state.streamedContent + k)
      RevealEvent.tick).foldl revealerStep state
    settled.finalContent = state.finalContent ∧ settled.streamedContent = state.finalContent ∧
      settled.running = false := by
  rw [foldl_revealerStep_ticks]
  cases running : state.running
  · rw [Function.iterate_fixed (revealStep_of_stopped _ rfl)]
    exact ⟨rfl, consistent.settled streaming running, rfl⟩
  · rw [revealStep_iterate_settled]
    exact ⟨rfl, rfl, rfl⟩

/-- From every reachable streaming state, `revealFirings` firings on show the final text. -/
theorem revealerRun_settles (initial : List α) (isComplete : Bool)
    (events : List (RevealEvent α))
    (streaming : (revealerRun initial isComplete events).allowStreaming = true) (k : Nat) :
    let state := revealerRun initial isComplete events
    let settled := revealerRun initial isComplete
      (events ++ List.replicate (revealFirings state.finalContent state.streamedContent + k) .tick)
    settled.finalContent = state.finalContent ∧ settled.streamedContent = state.finalContent ∧
      settled.running = false := by
  simp only [revealerRun, List.foldl_append]
  exact ((consistent_revealerInit initial isComplete).run events).settles streaming k

theorem revealerRun_settles_allowed :
    (revealerRun "ab".toList false [.content "abcdefgh".toList, .allow]).allowStreaming = true ∧
      let settled := revealerRun "ab".toList false
        ([.content "abcdefgh".toList, .allow] ++ List.replicate 3 .tick)
      settled.finalContent = "abcdefgh".toList ∧ settled.streamedContent = "abcdefgh".toList ∧
        settled.running = false :=
  ⟨rfl, revealerRun_settles "ab".toList false [.content "abcdefgh".toList, .allow] rfl 0⟩

section Appending

/-- While final texts extend, a step keeps the text shown a prefix and never shortens it. -/
theorem revealerStep_appending {state : Revealer α}
    (shown : state.streamedContent <+: state.finalContent) {event : RevealEvent α}
    (extending : ∀ finalContent, event.delivered = some finalContent →
      state.finalContent <+: finalContent) :
    (revealerStep state event).streamedContent <+: (revealerStep state event).finalContent ∧
      state.streamedContent.length ≤ (revealerStep state event).streamedContent.length := by
  cases event with
  | tick =>
    rw [revealerStep_tick]
    split
    · exact ⟨revealTick_prefix_final _ _, length_le_revealTick shown⟩
    · exact ⟨shown, le_rfl⟩
  | content finalContent => exact ⟨shown.trans (extending finalContent rfl), le_rfl⟩
  | allow =>
    simp only [revealerStep]
    split <;> exact ⟨shown, le_rfl⟩

@[simp]
theorem revealerStep_finalContent (state : Revealer α) (event : RevealEvent α) :
    (revealerStep state event).finalContent = event.delivered.getD state.finalContent := by
  cases event with
  | tick =>
    rw [revealerStep_tick]
    split <;> rfl
  | content finalContent => rfl
  | allow =>
    simp only [revealerStep]
    split <;> rfl

theorem head?_scanl_revealerStep (state : Revealer α) (events : List (RevealEvent α)) :
    (events.scanl revealerStep state).head? = some state := by
  cases events <;> rfl

theorem scanl_revealerStep_appending :
    ∀ (events : List (RevealEvent α)) (state : Revealer α),
      state.streamedContent <+: state.finalContent →
      List.Chain (· <+: ·) state.finalContent (events.filterMap RevealEvent.delivered) →
        (events.scanl revealerStep state).Chain'
            (fun before after => before.streamedContent.length ≤ after.streamedContent.length) ∧
          ∀ reached ∈ events.scanl revealerStep state,
            reached.streamedContent <+: reached.finalContent
  | [], state, shown, _ => ⟨List.chain'_singleton _, by simpa using shown⟩
  | event :: events, state, shown, appending => by
    have extending : ∀ finalContent, event.delivered = some finalContent →
        state.finalContent <+: finalContent := fun finalContent delivered => by
      rw [List.filterMap_cons, delivered] at appending
      exact (List.chain_cons.mp appending).1
    have resumed : List.Chain (· <+: ·) (revealerStep state event).finalContent
        (events.filterMap RevealEvent.delivered) := by
      rw [revealerStep_finalContent]
      cases event with
      | content finalContent => exact (List.chain_cons.mp appending).2
      | _ => exact appending
    obtain ⟨next, longer⟩ := revealerStep_appending shown extending
    obtain ⟨chain, all⟩ := scanl_revealerStep_appending events _ next resumed
    rw [List.scanl_cons, List.singleton_append]
    refine ⟨List.chain'_cons'.mpr ⟨fun after first => ?_, chain⟩, ?_⟩
    · rw [head?_scanl_revealerStep, Option.mem_some_iff] at first
      exact first ▸ longer
    · rintro reached (_ | ⟨_, later⟩)
      · exact shown
      · exact all reached later

/-- While each final text extends the last, the text shown is a prefix that never shrinks. -/
theorem revealerTrace_appending (initial : List α) (isComplete : Bool)
    (events : List (RevealEvent α))
    (appending : List.Chain (· <+: ·) initial (events.filterMap RevealEvent.delivered)) :
    (revealerTrace initial isComplete events).Pairwise
        (fun before after => before.streamedContent.length ≤ after.streamedContent.length) ∧
      ∀ reached ∈ revealerTrace initial isComplete events,
        reached.streamedContent <+: reached.finalContent := by
  haveI : IsTrans (Revealer α)
      fun before after => before.streamedContent.length ≤ after.streamedContent.length :=
    ⟨fun _ _ _ => Nat.le_trans⟩
  obtain ⟨chain, all⟩ :=
    scanl_revealerStep_appending events (revealerInit initial isComplete)
      (List.prefix_refl initial) appending
  exact ⟨List.chain'_iff_pairwise.mp chain, all⟩

theorem revealerTrace_appending_growing :
    List.Chain (· <+: ·) "ab".toList
        ([RevealEvent.content "abcdefgh".toList, .tick, .tick].filterMap RevealEvent.delivered) ∧
      (revealerTrace "ab".toList true [.content "abcdefgh".toList, .tick, .tick]).Pairwise
        (fun before after => before.streamedContent.length ≤ after.streamedContent.length) ∧
      ∀ reached ∈ revealerTrace "ab".toList true [.content "abcdefgh".toList, .tick, .tick],
        reached.streamedContent <+: reached.finalContent :=
  have appending : List.Chain (· <+: ·) "ab".toList
      ([RevealEvent.content "abcdefgh".toList, .tick, .tick].filterMap RevealEvent.delivered) :=
    List.Chain.cons ⟨"cdefgh".toList, rfl⟩ List.Chain.nil
  ⟨appending, revealerTrace_appending "ab".toList true _ appending⟩

end Appending

end Step

end DanswerWeb.Message
