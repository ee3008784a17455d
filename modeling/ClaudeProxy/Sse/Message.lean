/-
**The order of a message's events.**

A message opens with `message_start`, has its content blocks, then at most one `message_delta`
behind them, and ends with `message_stop`. `MessagePhase` is how far a message has come; a list of
events that carries a message from `opening` to `stopped` terminates once.
-/

import ClaudeProxy.Sse.Event

namespace ClaudeProxy

open Json (getKey setKey)

/-- How far a message has come. -/
inductive MessagePhase where
  | opening
  | content
  | closing
  | stopped
  deriving DecidableEq

/-- An event of the message itself. -/
def SseEvent.isMessageEvent (event : SseEvent) : Bool :=
  event.event = "message_start" || event.event = "message_delta" || event.event = "message_stop"

namespace MessagePhase

/-- One event; `none` when it is out of order. -/
def step : MessagePhase → SseEvent → Option MessagePhase
  | opening, event => if event.event = "message_start" then some content else none
  | content, event =>
    if event.event = "message_delta" then some closing
    else if event.event = "message_start" ∨ event.event = "message_stop" then none
    else some content
  | closing, event =>
    if event.event = "message_stop" then some stopped
    else if event.isMessageEvent || event.isBlockEvent then none
    else some closing
  | stopped, _ => none

/-- A list of events. -/
def run : MessagePhase → List SseEvent → Option MessagePhase
  | phase, [] => some phase
  | phase, event :: rest => (phase.step event).bind fun next => next.run rest

@[simp] theorem run_nil (phase : MessagePhase) : phase.run [] = some phase := rfl

theorem run_cons (phase : MessagePhase) (event : SseEvent) (rest : List SseEvent) :
    phase.run (event :: rest) = (phase.step event).bind fun next => next.run rest := rfl

theorem run_append (phase : MessagePhase) (first second : List SseEvent) :
    phase.run (first ++ second) = (phase.run first).bind fun middle => middle.run second := by
  induction first generalizing phase with
  | nil => rfl
  | cons event rest ih =>
    rw [List.cons_append, run_cons, run_cons, Option.bind_assoc]
    exact congrArg _ (funext fun next => ih next)

/-- Events of the blocks and other events keep a message in its content. -/
theorem run_content {events : List SseEvent}
    (plain : ∀ event ∈ events, event.isMessageEvent = false) :
    content.run events = some content := by
  induction events with
  | nil => rfl
  | cons event rest ih =>
    have head := plain event List.mem_cons_self
    simp only [SseEvent.isMessageEvent, Bool.or_eq_false_iff, decide_eq_false_iff_not] at head
    rw [run_cons, step, if_neg head.1.2, if_neg (not_or.mpr ⟨head.1.1, head.2⟩), Option.bind_some]
    exact ih fun other member => plain other (List.mem_cons_of_mem _ member)

end MessagePhase

theorem isMessageEvent_of_isBlockEvent {event : SseEvent} (block : event.isBlockEvent = true) :
    event.isMessageEvent = false := by
  simp only [SseEvent.isBlockEvent, Bool.or_eq_true, decide_eq_true_eq] at block
  rw [SseEvent.isMessageEvent]
  rcases block with (name | name) | name <;> (rw [name]; rfl)

/-- How often an event occurs. -/
def countEvents (name : String) (events : List SseEvent) : Nat :=
  (events.filter fun event => event.event = name).length

/-- **A message that is terminated exactly once.** -/
structure TerminatesOnce (events : List SseEvent) : Prop where
  oneStart : countEvents "message_start" events = 1
  oneDelta : countEvents "message_delta" events ≤ 1
  nothingAfter : ∀ before delta after, events = before ++ delta :: after →
    delta.event = "message_delta" → ∀ event ∈ after, event.isBlockEvent = false
  oneStop : countEvents "message_stop" events = 1
  stopLast : (events.getLast?.map SseEvent.event) = some "message_stop"

/-! ### A message carried to its end terminates once -/

namespace MessagePhase

/-- How many of the three message events a phase has behind it. -/
def passed : MessagePhase → String → Nat
  | opening, _ => 0
  | content, name => if name = "message_start" then 1 else 0
  | closing, name => if name = "message_start" ∨ name = "message_delta" then 1 else 0
  | stopped, name =>
    if name = "message_start" ∨ name = "message_delta" ∨ name = "message_stop" then 1 else 0

theorem countEvents_cons (name : String) (event : SseEvent) (rest : List SseEvent) :
    countEvents name (event :: rest) =
      (if event.event = name then 1 else 0) + countEvents name rest := by
  unfold countEvents
  by_cases same : event.event = name
  · rw [List.filter_cons_of_pos (by simpa using same), if_pos same, List.length_cons, Nat.add_comm]
  · rw [List.filter_cons_of_neg (by simpa using same), if_neg same, Nat.zero_add]

/-- One event is counted as the phase passes it. -/
theorem step_passed {phase next : MessagePhase} {event : SseEvent} {name : String}
    (message : name = "message_start" ∨ name = "message_delta" ∨ name = "message_stop")
    (step : phase.step event = some next) :
    (if event.event = name then 1 else 0) + phase.passed name = next.passed name := by
  have other : event.isMessageEvent = false → event.event ≠ name := by
    intro plain same
    simp only [SseEvent.isMessageEvent, same, Bool.or_eq_false_iff,
      decide_eq_false_iff_not] at plain
    tauto
  cases phase with
  | opening =>
    obtain ⟨opens, same⟩ := Option.ite_none_right_eq_some.mp step
    obtain rfl := Option.some.inj same
    rw [opens]
    rcases message with rfl | rfl | rfl <;> rfl
  | content =>
    rw [MessagePhase.step] at step
    split_ifs at step with closes barred
    · obtain rfl := Option.some.inj step
      rw [closes]
      rcases message with rfl | rfl | rfl <;> rfl
    · obtain rfl := Option.some.inj step
      have plain : event.isMessageEvent = false := by
        simp only [SseEvent.isMessageEvent, Bool.or_eq_false_iff, decide_eq_false_iff_not]
        tauto
      rw [if_neg (other plain), Nat.zero_add]
  | closing =>
    rw [MessagePhase.step] at step
    split_ifs at step with stops barred
    · obtain rfl := Option.some.inj step
      rw [stops]
      rcases message with rfl | rfl | rfl <;> rfl
    · obtain rfl := Option.some.inj step
      have plain : event.isMessageEvent = false := by
        simp only [Bool.or_eq_true, not_or, Bool.not_eq_true] at barred
        exact barred.1
      rw [if_neg (other plain), Nat.zero_add]
  | stopped => cases step

/-- **What is counted is what the phase has passed.** -/
theorem run_passed {events : List SseEvent} {phase last : MessagePhase} {name : String}
    (message : name = "message_start" ∨ name = "message_delta" ∨ name = "message_stop")
    (run : phase.run events = some last) :
    countEvents name events + phase.passed name = last.passed name := by
  induction events generalizing phase with
  | nil =>
    obtain rfl := Option.some.inj run
    exact Nat.zero_add _
  | cons event rest ih =>
    rw [run_cons, Option.bind_eq_some_iff] at run
    obtain ⟨next, step, later⟩ := run
    rw [countEvents_cons, ← ih later, ← step_passed message step]
    omega

/-- A closing message has no further block event. -/
theorem run_closing {events : List SseEvent} {last : MessagePhase}
    (run : closing.run events = some last) :
    ∀ event ∈ events, event.isBlockEvent = false := by
  induction events with
  | nil => exact fun event member => (List.not_mem_nil member).elim
  | cons event rest ih =>
    rw [run_cons, Option.bind_eq_some_iff] at run
    obtain ⟨next, step, later⟩ := run
    rw [MessagePhase.step] at step
    split_ifs at step with stops barred
    · obtain rfl := Option.some.inj step
      have nothing : rest = [] := by
        cases rest with
        | nil => rfl
        | cons other tail => cases later
      rw [nothing]
      have plain : event.isBlockEvent = false := by
        rw [SseEvent.isBlockEvent, stops]
        rfl
      exact List.forall_mem_cons.mpr ⟨plain, fun event member => (List.not_mem_nil member).elim⟩
    · obtain rfl := Option.some.inj step
      simp only [Bool.or_eq_true, not_or, Bool.not_eq_true] at barred
      exact List.forall_mem_cons.mpr ⟨barred.2, ih later⟩

/-- Only `message_delta` takes a message behind its content, and only once. -/
theorem step_message_delta {phase next : MessagePhase} {event : SseEvent}
    (name : event.event = "message_delta") (step : phase.step event = some next) :
    phase = content ∧ next = closing := by
  cases phase with
  | opening =>
    obtain ⟨opens, _⟩ := Option.ite_none_right_eq_some.mp step
    rw [name] at opens
    exact absurd opens (by decide)
  | content =>
    rw [MessagePhase.step, if_pos name] at step
    exact ⟨rfl, (Option.some.inj step).symm⟩
  | closing =>
    rw [MessagePhase.step, if_neg (by rw [name]; decide), SseEvent.isMessageEvent, name] at step
    cases step
  | stopped => cases step

/-- Only `message_stop` ends a message. -/
theorem step_stopped {phase : MessagePhase} {event : SseEvent}
    (step : phase.step event = some stopped) : event.event = "message_stop" := by
  cases phase with
  | opening =>
    obtain ⟨_, same⟩ := Option.ite_none_right_eq_some.mp step
    cases same
  | content =>
    rw [MessagePhase.step] at step
    split_ifs at step <;> cases step
  | closing =>
    rw [MessagePhase.step] at step
    split_ifs at step with stops
    · exact stops
    · cases step
  | stopped => cases step

end MessagePhase

/-- **A message carried to its end terminates once.** -/
theorem terminatesOnce_of_run {events : List SseEvent}
    (run : MessagePhase.opening.run events = some .stopped) : TerminatesOnce events where
  oneStart := MessagePhase.run_passed (Or.inl rfl) run
  oneDelta := le_of_eq (MessagePhase.run_passed (Or.inr (Or.inl rfl)) run)
  nothingAfter before delta after split name := by
    rw [split, MessagePhase.run_append, Option.bind_eq_some_iff] at run
    obtain ⟨phase, _, rest⟩ := run
    rw [MessagePhase.run_cons, Option.bind_eq_some_iff] at rest
    obtain ⟨next, step, later⟩ := rest
    obtain ⟨_, rfl⟩ := MessagePhase.step_message_delta name step
    exact MessagePhase.run_closing later
  oneStop := MessagePhase.run_passed (Or.inr (Or.inr rfl)) run
  stopLast := by
    rcases List.eq_nil_or_concat events with none | ⟨before, last, split⟩
    · rw [none] at run
      cases run
    · rw [split, List.concat_eq_append] at run ⊢
      rw [MessagePhase.run_append, Option.bind_eq_some_iff] at run
      obtain ⟨phase, _, rest⟩ := run
      rw [MessagePhase.run_cons, Option.bind_eq_some_iff] at rest
      obtain ⟨next, step, done⟩ := rest
      obtain rfl := Option.some.inj done
      rw [List.getLast?_concat, Option.map_some, MessagePhase.step_stopped step]

/-- A block event behind a `message_delta` breaks the order. -/
theorem not_terminatesOnce {sent later : List SseEvent} {phase : MessagePhase}
    (run : MessagePhase.opening.run sent = some phase)
    (behind : phase = .closing ∨ phase = .stopped)
    (block : ∃ event ∈ later, event.isBlockEvent = true) : ¬TerminatesOnce (sent ++ later) := by
  intro terminates
  have passed : countEvents "message_delta" sent = phase.passed "message_delta" :=
    MessagePhase.run_passed (Or.inr (Or.inl rfl)) run
  have once : 0 < countEvents "message_delta" sent := by
    rw [passed]
    rcases behind with rfl | rfl <;> exact Nat.one_pos
  obtain ⟨delta, member⟩ := List.exists_mem_of_length_pos once
  obtain ⟨inside, name⟩ := List.mem_filter.mp member
  obtain ⟨before, after, split⟩ := List.append_of_mem inside
  obtain ⟨event, late, isBlock⟩ := block
  have plain := terminates.nothingAfter before delta (after ++ later)
    (by rw [split, List.append_assoc, List.cons_append]) (of_decide_eq_true name) event
    (List.mem_append_right _ late)
  rw [plain] at isBlock
  cases isBlock

end ClaudeProxy
