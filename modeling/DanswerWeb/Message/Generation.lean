import DanswerWeb.Message.Revealer

namespace DanswerWeb.Message

variable {α : Type}

/-- The state of an `AgenticMessage` that the `finishedGenerating` effect reads and writes. -/
structure AgenticMessage (α : Type) where
  revealer : Revealer α
  isGenerating : Bool
  finishedGenerating : Bool
  deriving DecidableEq

/-- What can happen to a message while it is shown. -/
inductive MessageEvent (α : Type)
  /-- The interval fires. -/
  | tick
  /-- `setAllowStreaming(true)`. -/
  | allow
  /-- A render: new `content`'s `processContent` if `content` changed, and `isGenerating`. -/
  | render (finalContent : Option (List α)) (isGenerating : Bool)
  deriving DecidableEq

/-- What an event does to the streaming state. -/
def MessageEvent.revealEvent : MessageEvent α → Option (RevealEvent α)
  | .tick => some .tick
  | .allow => some .allow
  | .render finalContent _ => finalContent.map .content

/-- `streamedContent.length == finalContent.length && !isGenerating`. -/
def caughtUp (revealer : Revealer α) (isGenerating : Bool) : Bool :=
  revealer.streamedContent.length == revealer.finalContent.length && !isGenerating

/-- The state on mount: `useState(!isGenerating)`, which the first run of the effect keeps. -/
def messageInit (finalContent : List α) (isComplete isGenerating : Bool) : AgenticMessage α :=
  ⟨revealerInit finalContent isComplete, isGenerating, !isGenerating⟩

variable [DecidableEq α]

/-- One event, and then the `finishedGenerating` effect on the new state. -/
def messageStep (state : AgenticMessage α) (event : MessageEvent α) : AgenticMessage α :=
  let revealer := match event.revealEvent with
    | some revealEvent => revealerStep state.revealer revealEvent
    | none => state.revealer
  let isGenerating := match event with
    | .render _ isGenerating => isGenerating
    | _ => state.isGenerating
  ⟨revealer, isGenerating, state.finishedGenerating || caughtUp revealer isGenerating⟩

/-- The state after some events. -/
def messageRun (initial : List α) (isComplete isGenerating : Bool)
    (events : List (MessageEvent α)) : AgenticMessage α :=
  events.foldl messageStep (messageInit initial isComplete isGenerating)

theorem messageRun_append (initial : List α) (isComplete isGenerating : Bool)
    (events more : List (MessageEvent α)) :
    messageRun initial isComplete isGenerating (events ++ more) =
      more.foldl messageStep (messageRun initial isComplete isGenerating events) :=
  List.foldl_append _ _ _ _

section Streaming

theorem foldl_messageStep_revealer :
    ∀ (events : List (MessageEvent α)) (state : AgenticMessage α),
      (events.foldl messageStep state).revealer =
        (events.filterMap MessageEvent.revealEvent).foldl revealerStep state.revealer
  | [], _ => rfl
  | event :: events, state => by
    rw [List.foldl_cons, foldl_messageStep_revealer events, List.filterMap_cons]
    cases revealed : event.revealEvent <;> simp only [messageStep, revealed, List.foldl_cons]

/-- The streaming part of a message runs the revealer on the events that reach it. -/
theorem messageRun_revealer (initial : List α) (isComplete isGenerating : Bool)
    (events : List (MessageEvent α)) :
    (messageRun initial isComplete isGenerating events).revealer =
      revealerRun initial isComplete (events.filterMap MessageEvent.revealEvent) :=
  foldl_messageStep_revealer events _

theorem messageRun_consistent (initial : List α) (isComplete isGenerating : Bool)
    (events : List (MessageEvent α)) :
    (messageRun initial isComplete isGenerating events).revealer.Consistent initial
      ((events.filterMap MessageEvent.revealEvent).filterMap RevealEvent.delivered) := by
  rw [messageRun_revealer]
  exact (consistent_revealerInit initial isComplete).run _

/-- Ticks run the revealer and leave `isGenerating` as it is. -/
theorem foldl_messageStep_ticks (state : AgenticMessage α) (n : Nat) :
    let reached := (List.replicate n MessageEvent.tick).foldl messageStep state
    reached.revealer = (List.replicate n RevealEvent.tick).foldl revealerStep state.revealer ∧
      reached.isGenerating = state.isGenerating := by
  induction n generalizing state with
  | zero => exact ⟨rfl, rfl⟩
  | succ n ih =>
    rw [List.replicate_succ, List.foldl_cons]
    exact ih (messageStep state .tick)

end Streaming

section Latch

/-- The effect runs after every event, so a state that has caught up has the flag set. -/
theorem messageStep_latched (state : AgenticMessage α) (event : MessageEvent α)
    (caught : caughtUp (messageStep state event).revealer
      (messageStep state event).isGenerating = true) :
    (messageStep state event).finishedGenerating = true := by
  simp only [messageStep] at caught ⊢
  rw [caught, Bool.or_true]

theorem foldl_messageStep_latched :
    ∀ (events : List (MessageEvent α)) (state : AgenticMessage α),
      (caughtUp state.revealer state.isGenerating = true → state.finishedGenerating = true) →
        caughtUp (events.foldl messageStep state).revealer
            (events.foldl messageStep state).isGenerating = true →
          (events.foldl messageStep state).finishedGenerating = true
  | [], _, latched => latched
  | event :: events, state, _ =>
    foldl_messageStep_latched events _ (messageStep_latched state event)

theorem messageRun_latched (initial : List α) (isComplete isGenerating : Bool)
    (events : List (MessageEvent α))
    (caught : caughtUp (messageRun initial isComplete isGenerating events).revealer
      (messageRun initial isComplete isGenerating events).isGenerating = true) :
    (messageRun initial isComplete isGenerating events).finishedGenerating = true :=
  foldl_messageStep_latched events _
    (fun caught => by simpa [messageInit, caughtUp, revealerInit] using caught) caught

/-- Once generation is over and streaming is on, `revealFirings` firings set the flag. -/
theorem messageRun_finishes (initial : List α) (isComplete isGenerating : Bool)
    (events : List (MessageEvent α))
    (streaming : (messageRun initial isComplete isGenerating events).revealer.allowStreaming = true)
    (over : (messageRun initial isComplete isGenerating events).isGenerating = false) :
    let state := messageRun initial isComplete isGenerating events
    (messageRun initial isComplete isGenerating (events ++ List.replicate
      (revealFirings state.revealer.finalContent state.revealer.streamedContent)
        .tick)).finishedGenerating = true := by
  obtain ⟨final, shown, -⟩ :=
    (messageRun_consistent initial isComplete isGenerating events).settles streaming 0
  apply messageRun_latched
  rw [messageRun_append, (foldl_messageStep_ticks _ _).1, (foldl_messageStep_ticks _ _).2, over]
  simp only [Nat.add_zero] at final shown
  simp [caughtUp, final, shown]

theorem messageRun_finishes_ended :
    (messageRun "ab".toList false true
      [.render (some "abcdefgh".toList) false, .allow]).revealer.allowStreaming = true ∧
    (messageRun "ab".toList false true
      [.render (some "abcdefgh".toList) false, .allow]).isGenerating = false ∧
    (messageRun "ab".toList false true
      ([.render (some "abcdefgh".toList) false, .allow] ++ List.replicate 3 .tick)).finishedGenerating =
      true :=
  ⟨rfl, rfl, messageRun_finishes "ab".toList false true
    [.render (some "abcdefgh".toList) false, .allow] rfl rfl⟩

end Latch

end DanswerWeb.Message
