/-
**The processor of a node** (`_process_node_impl` in `messaging/handler.py` with
`messaging/node_event_pipeline.py`).

* `Turn` — the locals of the processor with the node's fields; `written` lists the states that were
  written to the node. A transcript may refuse an event, which raises.
* `processNode` — the whole processor: the session, its events, its end or exception, the handlers.
* `statesWritten` — the states written for a list of signals.
* `Settles` — a session id is known at a clean exit, or something fails; and behind a failure no exit
  comes while the session id is known and no session id becomes known.
* **`truthful_iff`** — the node ends in a truthful state exactly when the handled events settle.
-/

import ClaudeProxy.Messaging.CliEvents
import ClaudeProxy.Messaging.TreeQueue

namespace ClaudeProxy

/-! ### The model -/

/-- The transcript. `apply` may raise, on an index that is no number; an error event and the closing
`Done.` carry none, and never raise. -/
structure TranscriptBuffer (σ : Type) where
  empty : σ
  apply : σ → ParsedEvent → Option σ
  applyError : σ → Json → σ
  applyDone : σ → σ

/-- A session id that the manager hands out: one it was asked for, or a fresh `pending_` one. -/
abbrev SessionId := { id : String // id ≠ "" }

/-- What `get_or_create_session` does: it raises a `RuntimeError`, or another exception, or returns a
new session under a temporary id, or one that is known. -/
inductive Acquired where
  | limit (errorMessage : String)
  | raises (errorMessage : String)
  | new (tempId : SessionId)
  | reused (sessionId : SessionId)

/-- How the events of a session end. -/
inductive CliStreamEnd where
  | ends
  | raises (errorMessage : String)

/-- The node's fields and the processor's locals. -/
structure Turn (σ : Type) where
  state : MessageState
  written : List MessageState
  sessionId : Json
  errorMessage : Json
  captured : Option Json
  temp : Option SessionId
  transcript : σ
  hadTranscriptEvents : Bool

section Processor

variable {σ : Type} (text : CliText) (buffer : TranscriptBuffer σ)

namespace Turn

/-- `update_state`. -/
def updateState (turn : Turn σ) (state : MessageState) (sessionId errorMessage : Json) : Turn σ :=
  { turn with
    state := state
    written := turn.written ++ [state]
    sessionId := if text.truthy sessionId then sessionId else turn.sessionId
    errorMessage := if text.truthy errorMessage then errorMessage else turn.errorMessage }

/-- The node's own part of `_propagate_error_to_children`. -/
def markError (turn : Turn σ) (errorMessage : Json) : Turn σ :=
  turn.updateState text .error .null errorMessage

/-- `handle_session_info_event`; an id that is no dict key raises when it is registered. -/
def handleSessionInfo (turn : Turn σ) (fields : List (String × Json)) : Except (Turn σ) (Turn σ) :=
  let realId := getOr fields "session_id" .null
  match turn.temp with
  | none => .ok turn
  | some _ =>
    if text.truthy realId then
      match realId with
      | .arr _ | .obj _ => .error turn
      | _ => .ok { turn.updateState text .inProgress realId .null with
          captured := some realId, temp := none }
    else .ok turn

/-- A completion without a transcript is shown as `Done.` -/
def showDone (turn : Turn σ) : Turn σ :=
  if turn.hadTranscriptEvents then turn
  else { turn with transcript := buffer.applyDone turn.transcript }

/-- `process_parsed_cli_event`. -/
def processParsed (turn : Turn σ) (parsed : ParsedEvent) : Except (Turn σ) (Turn σ) :=
  match parsed with
  | .complete _ =>
    match turn.captured with
    | some id => .ok ((turn.showDone buffer).updateState text .completed id .null)
    | none => .ok (turn.showDone buffer)
  | .error message =>
    .ok ({ turn with
      transcript := buffer.applyError turn.transcript message
      hadTranscriptEvents := true }.markError text message)
  | parsed =>
    match buffer.apply turn.transcript parsed with
    | some transcript => .ok { turn with transcript := transcript, hadTranscriptEvents := true }
    | none => .error turn

/-- One event of the session; the error is the turn at the exception. -/
def handleEvent (turn : Turn σ) (event : Json) : Except (Turn σ) (Turn σ) :=
  match event with
  | .obj fields =>
    if getOr fields "type" .null = .str "session_info" then turn.handleSessionInfo text fields
    else (parseCliEvent text event).foldlM (processParsed text buffer) turn
  | _ => .ok turn

/-- The handler of an exception. -/
def taskFailed (turn : Turn σ) (errorMessage : String) : Turn σ :=
  { turn with transcript := buffer.applyError turn.transcript (.str errorMessage) }.markError text
    (.str errorMessage)

/-- The events up to the end of the stream or an exception; `error` is the text of an exception
that is raised while an event is handled. -/
def handleEvents (turn : Turn σ) (events : List Json) (ending : CliStreamEnd) (error : String) :
    Turn σ :=
  match events.foldlM (handleEvent text buffer) turn with
  | .error raised => raised.taskFailed text buffer error
  | .ok handled =>
    match ending with
    | .ends => handled
    | .raises errorMessage => handled.taskFailed text buffer errorMessage

/-- The processor's start: the node is in progress. -/
def start (captured : Option Json) (temp : Option SessionId) : Turn σ where
  state := .inProgress
  written := [.inProgress]
  sessionId := .null
  errorMessage := .null
  captured := captured
  temp := temp
  transcript := buffer.empty
  hadTranscriptEvents := false

end Turn

def processNode (acquired : Acquired) (events : List Json) (ending : CliStreamEnd) (error : String) :
    Turn σ :=
  match acquired with
  | .limit errorMessage =>
    let turn : Turn σ := .start buffer none none
    { turn with transcript := buffer.applyError turn.transcript (.str errorMessage) }.updateState text
      .error .null (.str errorMessage)
  | .raises errorMessage => (Turn.start buffer none none).taskFailed text buffer errorMessage
  | .new tempId => (Turn.start buffer none (some tempId)).handleEvents text buffer events ending error
  | .reused sessionId =>
    (Turn.start buffer (some (.str sessionId.1)) none).handleEvents text buffer events ending error

/-! ### What is asked -/

/-- The events that are handled whole, before one raises. -/
def handledEvents (turn : Turn σ) : List Json → List Json
  | [] => []
  | event :: rest =>
    match turn.handleEvent text buffer event with
    | .ok next => event :: handledEvents next rest
    | .error _ => []

/-- The handled events of a session. -/
def handledOf (acquired : Acquired) (events : List Json) : List Json :=
  match acquired with
  | .limit _ | .raises _ => []
  | .new tempId => handledEvents text buffer (.start buffer none (some tempId)) events
  | .reused sessionId =>
    handledEvents text buffer (.start buffer (some (.str sessionId.1)) none) events

/-- The events stop at an exception: one that is raised while an event is handled, or the stream's. -/
def interrupted (handled events : List Json) (ending : CliStreamEnd) : Bool :=
  decide (handled.length < events.length) || ending matches .raises _

/-- **A truthful end**: the node is completed or in error, an error is never taken back, and a failed
exit leaves the node in error. -/
structure Truthful (turn : Turn σ) (handled : List Json) : Prop where
  terminal : turn.state = .completed ∨ turn.state = .error
  lasting : turn.written.Pairwise fun earlier later => earlier = .error → later = .error
  failed : (∃ event ∈ handled, signal text event = .failedExit) → turn.state = .error

end Processor

/-- A failure. -/
def Signal.Fails : Signal → Prop
  | .error | .failedExit => True
  | _ => False

/-- An exit. -/
def Signal.Exits : Signal → Prop
  | .cleanExit | .failedExit => True
  | _ => False

/-- The session id is known at the start, or an event has brought it. -/
def Known (reused : Bool) (before : List Signal) : Prop := reused = true ∨ .session ∈ before

/-- The signals settle the turn: it is interrupted, or something fails, or a clean exit finds a known
session; behind a failure with a known session no exit comes, itself included, and behind one without
a known session none becomes known. -/
structure Settles (reused interrupted : Bool) (signals : List Signal) : Prop where
  ends : interrupted = true ∨ (∃ sign ∈ signals, sign.Fails) ∨
    ∃ before after, signals = before ++ .cleanExit :: after ∧ Known reused before
  known : ∀ before sign after, signals = before ++ sign :: after → sign.Fails → Known reused before →
    ¬ sign.Exits ∧ ∀ later ∈ after, ¬ later.Exits
  unknown : ∀ before sign after, signals = before ++ sign :: after → sign.Fails →
    ¬ Known reused before → .session ∉ after

/-- The condition on the processor's input. -/
def SettlesTurn {σ : Type} (text : CliText) (buffer : TranscriptBuffer σ) (acquired : Acquired)
    (events : List Json) (ending : CliStreamEnd) : Prop :=
  let handled := handledOf text buffer acquired events
  match acquired with
  | .limit _ | .raises _ => True
  | .new _ => Settles false (interrupted handled events ending) (handled.map (signal text))
  | .reused _ => Settles true (interrupted handled events ending) (handled.map (signal text))

/-! ### The states that signals write -/

/-- The states written for a signal. -/
def mark (known : Bool) : Signal → List MessageState
  | .session => if known then [] else [.inProgress]
  | .error => [.error]
  | .failedExit => .error :: if known then [.completed] else []
  | .cleanExit => if known then [.completed] else []
  | .other => []

/-- The states written for a list of signals. -/
def statesWritten (known : Bool) : List Signal → List MessageState
  | [] => []
  | sign :: rest => mark known sign ++ statesWritten (known || decide (sign = .session)) rest

theorem statesWritten_append (known : Bool) (front back : List Signal) :
    statesWritten known (front ++ back) =
      statesWritten known front ++ statesWritten (known || decide (.session ∈ front)) back := by
  induction front generalizing known with
  | nil => simp [statesWritten]
  | cons sign rest ih =>
    rw [List.cons_append, statesWritten, statesWritten, ih, List.append_assoc]
    congr 2
    by_cases same : sign = .session
    · simp [same]
    · simp [same, Ne.symm same]

/-- Behind a known session, only exits write anything but errors. -/
theorem marks_known_all_error_iff (signals : List Signal) :
    (∀ state ∈ statesWritten true signals, state = .error) ↔ ∀ sign ∈ signals, ¬ sign.Exits := by
  induction signals with
  | nil => exact iff_of_true nofun nofun
  | cons sign rest ih =>
    rw [statesWritten, List.forall_mem_append, List.forall_mem_cons, Bool.true_or, ih]
    apply and_congr_left
    intro _
    cases sign <;> simp [mark, Signal.Exits]

/-- Before the session is known, only the session writes anything but errors. -/
theorem marks_unknown_all_error_iff (signals : List Signal) :
    (∀ state ∈ statesWritten false signals, state = .error) ↔ .session ∉ signals := by
  induction signals with
  | nil => exact iff_of_true nofun nofun
  | cons sign rest ih =>
    by_cases same : sign = .session
    · subst same
      refine iff_of_false ?_ fun absent => absent List.mem_cons_self
      intro all
      exact nomatch all .inProgress List.mem_cons_self
    · rw [statesWritten, List.forall_mem_append, Bool.false_or, decide_eq_false same, ih, List.mem_cons,
        not_or]
      apply and_congr_left
      intro _
      cases sign <;> simp_all [mark]

/-- Behind a known session, nothing is in progress again. -/
theorem marks_known_terminal (signals : List Signal) :
    ∀ state ∈ statesWritten true signals, state = .completed ∨ state = .error := by
  induction signals with
  | nil => exact nofun
  | cons sign rest ih =>
    rw [statesWritten, List.forall_mem_append, Bool.true_or]
    refine ⟨?_, ih⟩
    cases sign <;> simp [mark]

/-! ### Errors that last -/

/-- A state that is an error stays one. -/
def Lasting (states : List MessageState) : Prop :=
  states.Pairwise fun earlier later => earlier = .error → later = .error

/-- What the signals must not do behind a failure, read from the front. -/
def Steady (known : Bool) : List Signal → Prop
  | [] => True
  | sign :: rest =>
    (sign.Fails → (known = true → ¬ sign.Exits ∧ ∀ later ∈ rest, ¬ later.Exits) ∧
      (known = false → .session ∉ rest)) ∧
    Steady (known || decide (sign = .session)) rest

theorem lasting_mark_iff (known : Bool) (sign : Signal) :
    Lasting (mark known sign) ↔ ¬ (sign = .failedExit ∧ known = true) := by
  unfold Lasting
  cases sign <;> cases known <;> simp [mark]

theorem error_mem_mark_iff (known : Bool) (sign : Signal) :
    .error ∈ mark known sign ↔ sign.Fails := by
  cases sign <;> cases known <;> simp [mark, Signal.Fails]

/-- **Errors last** exactly when the signals are steady; an interruption adds one more error. -/
theorem lasting_marks_iff (known : Bool) (signals : List Signal) {tail : List MessageState}
    (errors : ∀ state ∈ tail, state = .error) :
    Lasting (statesWritten known signals ++ tail) ↔ Steady known signals := by
  induction signals generalizing known with
  | nil =>
    refine iff_of_true ?_ trivial
    refine List.pairwise_iff_forall_sublist.mpr ?_
    intro earlier later sub _
    exact errors later (sub.subset (by simp))
  | cons sign rest ih =>
    unfold Lasting at ih
    rw [statesWritten, List.append_assoc, Lasting, List.pairwise_append, ih, Steady]
    have behind : (∀ earlier ∈ mark known sign,
        ∀ later ∈ statesWritten (known || decide (sign = .session)) rest ++ tail,
          earlier = .error → later = .error) ↔
        (sign.Fails → ∀ later ∈ statesWritten known rest, later = .error) := by
      constructor
      · intro all fails later member
        have apart : sign ≠ .session := by
          rintro rfl
          exact fails
        rw [decide_eq_false apart, Bool.or_false] at all
        exact all .error ((error_mem_mark_iff known sign).mpr fails) later
          (List.mem_append_left _ member) rfl
      · intro all earlier inside later member same
        have fails : sign.Fails := (error_mem_mark_iff known sign).mp (same ▸ inside)
        have apart : sign ≠ .session := by
          rintro rfl
          exact fails
        rw [decide_eq_false apart, Bool.or_false] at member
        rcases List.mem_append.mp member with marked | last
        · exact all fails later marked
        · exact errors later last
    rw [behind]
    have here := lasting_mark_iff known sign
    unfold Lasting at here
    rw [here]
    cases known with
    | true =>
      rw [marks_known_all_error_iff]
      cases sign <;> simp [Signal.Fails, Signal.Exits, and_comm]
    | false =>
      rw [marks_unknown_all_error_iff]
      cases sign <;> simp [Signal.Fails, and_comm]

/-- What is known behind a signal. -/
theorem known_cons {reused : Bool} {sign : Signal} {before : List Signal} :
    Known reused (sign :: before) ↔ Known (reused || decide (sign = .session)) before := by
  unfold Known
  rw [List.mem_cons, Bool.or_eq_true, decide_eq_true_iff, or_assoc, @eq_comm _ Signal.session sign]

theorem known_nil {reused : Bool} : Known reused [] ↔ reused = true := by
  unfold Known
  exact or_iff_left nofun

/-- **Steady signals**, said of every failure in the list. -/
theorem steady_iff (reused : Bool) (signals : List Signal) :
    Steady reused signals ↔
      (∀ before sign after, signals = before ++ sign :: after → sign.Fails → Known reused before →
        ¬ sign.Exits ∧ ∀ later ∈ after, ¬ later.Exits) ∧
      (∀ before sign after, signals = before ++ sign :: after → sign.Fails →
        ¬ Known reused before → .session ∉ after) := by
  induction signals generalizing reused with
  | nil =>
    refine iff_of_true trivial ⟨?_, ?_⟩
    · intro before sign after split
      exact absurd split.symm (List.append_ne_nil_of_right_ne_nil _ (List.cons_ne_nil _ _))
    · intro before sign after split
      exact absurd split.symm (List.append_ne_nil_of_right_ne_nil _ (List.cons_ne_nil _ _))
  | cons sign rest ih =>
    rw [Steady, ih]
    constructor
    · rintro ⟨here, known, unknown⟩
      refine ⟨?_, ?_⟩
      · intro before failure after split fails knows
        cases before with
        | nil =>
          obtain ⟨rfl, rfl⟩ := List.cons.inj split
          exact (here fails).1 (known_nil.mp knows)
        | cons head front =>
          obtain ⟨rfl, later⟩ := List.cons.inj split
          exact known front failure after later fails (known_cons.mp knows)
      · intro before failure after split fails knows
        cases before with
        | nil =>
          obtain ⟨rfl, rfl⟩ := List.cons.inj split
          exact (here fails).2 (Bool.eq_false_iff.mpr fun now => knows (known_nil.mpr now))
        | cons head front =>
          obtain ⟨rfl, later⟩ := List.cons.inj split
          exact unknown front failure after later fails fun now => knows (known_cons.mpr now)
    · rintro ⟨known, unknown⟩
      refine ⟨?_, ?_, ?_⟩
      · intro fails
        refine ⟨fun now => known [] sign rest rfl fails (known_nil.mpr now), ?_⟩
        intro later
        refine unknown [] sign rest rfl fails ?_
        rw [known_nil, later]
        exact nofun
      · intro before failure after split fails knows
        exact known (sign :: before) failure after (by rw [split]; rfl) fails (known_cons.mpr knows)
      · intro before failure after split fails knows
        exact unknown (sign :: before) failure after (by rw [split]; rfl) fails
          fun now => knows (known_cons.mp now)

/-! ### The last state -/

/-- An error that lasts is the last state. -/
theorem Lasting.last {states : List MessageState} (lasting : Lasting states)
    (inside : .error ∈ states) {last : MessageState} (found : states.getLast? = some last) :
    last = .error := by
  obtain ⟨front, rfl⟩ := List.getLast?_eq_some_iff.mp found
  rcases List.mem_append.mp inside with before | here
  · exact (List.pairwise_append.mp lasting).2.2 .error before last (List.mem_singleton_self _) rfl
  · exact (List.mem_singleton.mp here).symm

theorem error_mem_marks {known : Bool} {signals : List Signal} {sign : Signal}
    (member : sign ∈ signals) (fails : sign.Fails) : .error ∈ statesWritten known signals := by
  obtain ⟨before, after, rfl⟩ := List.append_of_mem member
  rw [statesWritten_append, statesWritten]
  refine List.mem_append_right _ (List.mem_append_left _ ?_)
  exact (error_mem_mark_iff _ sign).mpr fails

/-- Without a failure and without a clean exit of a known session, the node stays in progress. -/
theorem marks_inProgress {reused : Bool} {signals : List Signal}
    (calm : ∀ sign ∈ signals, ¬ sign.Fails)
    (unknown : ∀ before after, signals = before ++ .cleanExit :: after → ¬ Known reused before) :
    ∀ state ∈ statesWritten reused signals, state = .inProgress := by
  induction signals generalizing reused with
  | nil => exact nofun
  | cons sign rest ih =>
    rw [statesWritten, List.forall_mem_append]
    refine ⟨?_, ih (fun sign member => calm sign (List.mem_cons_of_mem _ member)) ?_⟩
    · have here := calm sign List.mem_cons_self
      cases sign with
      | session => cases reused <;> simp [mark]
      | error => exact absurd trivial here
      | failedExit => exact absurd trivial here
      | cleanExit =>
        have away : reused = false :=
          Bool.eq_false_iff.mpr fun now => unknown [] rest rfl (known_nil.mpr now)
        rw [away]
        exact nofun
      | other => exact nofun
    · intro before after split knows
      exact unknown (sign :: before) after (by rw [split]; rfl) (known_cons.mpr knows)

/-- The states written in a turn. -/
def statesOf (reused interrupted : Bool) (signals : List Signal) : List MessageState :=
  .inProgress :: (statesWritten reused signals ++ if interrupted then [.error] else [])

/-- **What is written is truthful** exactly when the signals settle the turn. -/
theorem statesOf_truthful_iff {reused interrupted : Bool} {signals : List Signal}
    {last : MessageState}
    (found : (statesOf reused interrupted signals).getLast? = some last) :
    ((last = .completed ∨ last = .error) ∧ Lasting (statesOf reused interrupted signals) ∧
      (.failedExit ∈ signals → last = .error)) ↔ Settles reused interrupted signals := by
  have errors : ∀ state ∈ (if interrupted then [MessageState.error] else []), state = .error := by
    intro state member
    cases interrupted with
    | true => exact List.mem_singleton.mp member
    | false => exact nomatch member
  have steady : Lasting (statesOf reused interrupted signals) ↔ Steady reused signals := by
    unfold statesOf Lasting
    rw [List.pairwise_cons]
    refine (and_iff_right ?_).trans (lasting_marks_iff reused signals errors)
    intro later _ progress
    exact nomatch progress
  have failing : Lasting (statesOf reused interrupted signals) →
      (∃ sign ∈ signals, sign.Fails) → last = .error := by
    rintro lasting ⟨sign, member, fails⟩
    refine lasting.last (List.mem_cons_of_mem _ (List.mem_append_left _ ?_)) found
    exact error_mem_marks member fails
  constructor
  · rintro ⟨terminal, lasting, -⟩
    obtain ⟨known, unknown⟩ := (steady_iff reused signals).mp (steady.mp lasting)
    refine ⟨?_, known, unknown⟩
    by_contra idle
    rw [not_or, not_or] at idle
    obtain ⟨running, calm, away⟩ := idle
    have off : interrupted = false := Bool.eq_false_iff.mpr running
    have progress := marks_inProgress (fun sign member fails => calm ⟨sign, member, fails⟩)
      (fun before after split knows => away ⟨before, after, split, knows⟩)
    have member := List.mem_of_getLast? found
    unfold statesOf at member
    rw [off, if_neg Bool.false_ne_true, List.append_nil] at member
    have still : last = .inProgress := by
      rcases List.mem_cons.mp member with first | later
      · exact first
      · exact progress last later
    rw [still] at terminal
    rcases terminal with wrong | wrong <;> exact nomatch wrong
  · rintro ⟨ends, known, unknown⟩
    have lasting := steady.mpr ((steady_iff reused signals).mpr ⟨known, unknown⟩)
    refine ⟨?_, lasting, fun member => failing lasting ⟨_, member, trivial⟩⟩
    rcases ends with cut | fails | ⟨before, after, split, knows⟩
    · refine .inr (lasting.last ?_ found)
      unfold statesOf
      rw [cut]
      exact List.mem_cons_of_mem _ (List.mem_append_right _ (List.mem_singleton_self _))
    · exact .inr (failing lasting fails)
    · -- behind the completion nothing is in progress
      have open_ : (reused || decide (Signal.session ∈ before)) = true := by
        rw [Bool.or_eq_true, decide_eq_true_iff]
        exact knows
      have written : statesOf reused interrupted signals =
          (.inProgress :: statesWritten reused before) ++
          .completed :: (statesWritten true after ++ if interrupted then [.error] else []) := by
        unfold statesOf
        rw [split, statesWritten_append, open_, statesWritten, Bool.true_or, mark, if_pos rfl,
          List.append_assoc]
        rfl
      rw [written, List.getLast?_append_of_ne_nil _ (List.cons_ne_nil _ _)] at found
      rcases List.mem_cons.mp (List.mem_of_getLast? found) with here | later
      · exact .inl here
      · rcases List.mem_append.mp later with marked | cut
        · exact marks_known_terminal after last marked
        · exact .inr (errors last cut)

/-! ### The events of a session -/

section Events

variable {σ : Type} (text : CliText) (buffer : TranscriptBuffer σ)

/-- The session id is known. -/
def Turn.known (turn : Turn σ) : Bool := turn.captured.isSome

/-- The id is known or still temporary, and the node is in the state that was written last. -/
structure Turn.Valid (turn : Turn σ) : Prop where
  temp : turn.temp = none ↔ turn.known = true
  last : turn.written.getLast? = some turn.state

/-- A turn whose node and ids are those of another. -/
structure Turn.Same (turn next : Turn σ) : Prop where
  written : next.written = turn.written
  state : next.state = turn.state
  captured : next.captured = turn.captured
  temp : next.temp = turn.temp

theorem Turn.Same.refl (turn : Turn σ) : turn.Same turn := ⟨rfl, rfl, rfl, rfl⟩

theorem Turn.Same.trans {first second third : Turn σ} (one : first.Same second)
    (two : second.Same third) : first.Same third :=
  ⟨two.written.trans one.written, two.state.trans one.state, two.captured.trans one.captured,
    two.temp.trans one.temp⟩

theorem Turn.Same.valid {turn next : Turn σ} (same : turn.Same next) (valid : turn.Valid) :
    next.Valid := by
  refine ⟨?_, ?_⟩
  · unfold Turn.known
    rw [same.temp, same.captured]
    exact valid.temp
  · rw [same.written, same.state]
    exact valid.last

/-- A state is written; the ids are those of another turn. -/
theorem Turn.valid_updateState {turn : Turn σ} (ids : turn.temp = none ↔ turn.known = true)
    (state : MessageState) (sessionId errorMessage : Json) :
    (turn.updateState text state sessionId errorMessage).Valid :=
  ⟨ids, List.getLast?_concat⟩

/-- A plain event writes nothing, whether it raises or not. -/
theorem processParsed_plain (turn : Turn σ) {parsed : ParsedEvent} (plain : parsed.Plain) :
    (∃ next, turn.processParsed text buffer parsed = .ok next ∧ turn.Same next) ∨
    ∃ raised, turn.processParsed text buffer parsed = .error raised ∧ turn.Same raised := by
  have applied : ∀ event, (match buffer.apply turn.transcript event with
      | some transcript => Except.ok { turn with
          transcript := transcript, hadTranscriptEvents := true }
      | none => .error turn) = turn.processParsed text buffer parsed →
      (∃ next, turn.processParsed text buffer parsed = .ok next ∧ turn.Same next) ∨
      ∃ raised, turn.processParsed text buffer parsed = .error raised ∧ turn.Same raised := by
    intro event same
    rw [← same]
    cases buffer.apply turn.transcript event with
    | some transcript => exact .inl ⟨_, rfl, rfl, rfl, rfl, rfl⟩
    | none => exact .inr ⟨turn, rfl, .refl turn⟩
  cases parsed with
  | error message => exact plain.elim
  | complete failed => exact plain.elim
  | _ => exact applied _ rfl

theorem foldlM_plain (parsed : List ParsedEvent) (plain : ∀ event ∈ parsed, event.Plain)
    (turn : Turn σ) :
    (∃ next, parsed.foldlM (Turn.processParsed text buffer) turn = .ok next ∧ turn.Same next) ∨
    ∃ raised, parsed.foldlM (Turn.processParsed text buffer) turn = .error raised ∧
      turn.Same raised := by
  induction parsed generalizing turn with
  | nil => exact .inl ⟨turn, rfl, .refl turn⟩
  | cons event rest ih =>
    rw [List.foldlM_cons]
    rcases processParsed_plain text buffer turn (plain event List.mem_cons_self) with
      ⟨next, done, same⟩ | ⟨raised, stopped, same⟩
    · rw [done]
      rcases ih (fun event member => plain event (List.mem_cons_of_mem _ member)) next with
        ⟨last, ran, kept⟩ | ⟨raised, ran, kept⟩
      · exact .inl ⟨last, ran, same.trans kept⟩
      · exact .inr ⟨raised, ran, same.trans kept⟩
    · rw [stopped]
      exact .inr ⟨raised, rfl, same⟩

theorem Turn.same_showDone (turn : Turn σ) : turn.Same (turn.showDone buffer) := by
  unfold Turn.showDone
  split_ifs
  · exact .refl turn
  · exact ⟨rfl, rfl, rfl, rfl⟩

/-- A completion. -/
theorem processParsed_complete {turn : Turn σ} (valid : turn.Valid) (failed : Bool) :
    ∃ next, turn.processParsed text buffer (.complete failed) = .ok next ∧ next.Valid ∧
      next.written = turn.written ++ (if turn.known then [.completed] else []) ∧
      next.known = turn.known := by
  have same := turn.same_showDone buffer
  have ids := (same.valid valid).temp
  have known : (turn.showDone buffer).known = turn.known := by
    unfold Turn.known
    rw [same.captured]
  unfold Turn.processParsed
  cases captured : turn.captured with
  | some id =>
    have knows : turn.known = true := by
      unfold Turn.known
      rw [captured]
      rfl
    refine ⟨_, rfl, Turn.valid_updateState text ids .completed id .null, ?_, known⟩
    show (turn.showDone buffer).written ++ [.completed] = _
    rw [same.written, knows]
    rfl
  | none =>
    have unknown : turn.known = false := by
      unfold Turn.known
      rw [captured]
      rfl
    refine ⟨_, rfl, same.valid valid, ?_, known⟩
    rw [same.written, unknown]
    exact (List.append_nil _).symm

/-- An error. -/
theorem processParsed_error {turn : Turn σ} (valid : turn.Valid) (message : Json) :
    ∃ next, turn.processParsed text buffer (.error message) = .ok next ∧ next.Valid ∧
      next.written = turn.written ++ [.error] ∧ next.known = turn.known := by
  let shown : Turn σ := { turn with
    transcript := buffer.applyError turn.transcript message
    hadTranscriptEvents := true }
  have ids : shown.temp = none ↔ shown.known = true := valid.temp
  exact ⟨_, rfl, Turn.valid_updateState text ids .error .null message, rfl, rfl⟩

/-- A session event. -/
theorem handleSessionInfo_spec {turn : Turn σ} (valid : turn.Valid)
    (fields : List (String × Json)) :
    (∃ next, turn.handleSessionInfo text fields = .ok next ∧ next.Valid ∧
      next.written = turn.written ++ (if text.truthy (getOr fields "session_id" .null) then
        mark turn.known .session else []) ∧
      next.known = (turn.known || text.truthy (getOr fields "session_id" .null))) ∨
    ∃ raised, turn.handleSessionInfo text fields = .error raised ∧ turn.Same raised := by
  unfold Turn.handleSessionInfo
  dsimp only
  cases temp : turn.temp with
  | none =>
    have known := valid.temp.mp temp
    refine .inl ⟨turn, rfl, valid, ?_, ?_⟩
    · rw [known]
      split_ifs <;> exact (List.append_nil _).symm
    · rw [known, Bool.true_or]
  | some id =>
    have unknown : turn.known = false := by
      rw [← Bool.not_eq_true, ← valid.temp, temp]
      exact nofun
    dsimp only
    cases named : text.truthy (getOr fields "session_id" .null) with
    | false =>
      refine .inl ⟨turn, rfl, valid, (List.append_nil _).symm, ?_⟩
      rw [Bool.or_false]
    | true =>
      rw [if_pos rfl, unknown]
      split
      · exact .inr ⟨turn, rfl, .refl turn⟩
      · exact .inr ⟨turn, rfl, .refl turn⟩
      · refine .inl ⟨_, rfl, ⟨iff_of_true rfl rfl, List.getLast?_concat⟩, rfl, rfl⟩

theorem handleEvent_of_ne (turn : Turn σ) {fields : List (String × Json)}
    (away : getOr fields "type" .null ≠ .str "session_info") :
    turn.handleEvent text buffer (.obj fields) =
      (parseCliEvent text (.obj fields)).foldlM (Turn.processParsed text buffer) turn := by
  unfold Turn.handleEvent
  dsimp only
  rw [if_neg away]

/-- **One event** writes what its signal says, or raises and writes nothing. -/
theorem handleEvent_spec {turn : Turn σ} (valid : turn.Valid) (event : Json) :
    (∃ next, turn.handleEvent text buffer event = .ok next ∧ next.Valid ∧
      next.written = turn.written ++ mark turn.known (signal text event) ∧
      next.known = (turn.known || decide (signal text event = .session))) ∨
    ∃ raised, turn.handleEvent text buffer event = .error raised ∧ turn.Same raised := by
  rcases type_of_signal text event with ⟨sign, fields, rfl, type⟩ | ⟨fields, rfl, type, sign⟩ |
    ⟨fields, rfl, type, sign⟩ | ⟨sign, types⟩
  -- error
  · have away : getOr fields "type" .null ≠ .str "session_info" := by
      rw [type]
      exact nofun
    obtain ⟨next, done, following, written, known⟩ :=
      processParsed_error text buffer valid (errorMessage text fields)
    refine .inl ⟨next, ?_, following, ?_, ?_⟩
    · rw [handleEvent_of_ne text buffer turn away, parseCliEvent_error text type,
        List.foldlM_cons, done]
      rfl
    · rw [sign, written]
      rfl
    · rw [sign, known]
      exact (Bool.or_false _).symm
  -- exit
  · have away : getOr fields "type" .null ≠ .str "session_info" := by
      rw [type]
      exact nofun
    rw [handleEvent_of_ne text buffer turn away, parseCliEvent_exit text type, sign]
    unfold parseExit
    dsimp only
    split_ifs with zero
    · obtain ⟨next, done, following, written, known⟩ :=
        processParsed_complete text buffer valid false
      refine .inl ⟨next, ?_, following, written, ?_⟩
      · rw [List.foldlM_cons, done]
        rfl
      · rw [known]
        exact (Bool.or_false _).symm
    all_goals
      obtain ⟨middle, failed, between, writtenFirst, knownFirst⟩ :=
        processParsed_error text buffer valid _
      obtain ⟨next, done, following, written, known⟩ :=
        processParsed_complete text buffer between true
      refine .inl ⟨next, ?_, following, ?_, ?_⟩
      · rw [List.foldlM_cons, failed]
        show List.foldlM (Turn.processParsed text buffer) middle [.complete true] = .ok next
        rw [List.foldlM_cons, done]
        rfl
      · rw [written, writtenFirst, knownFirst, List.append_assoc]
        rfl
      · rw [known, knownFirst]
        exact (Bool.or_false _).symm
  -- session_info
  · have here : turn.handleEvent text buffer (.obj fields) = turn.handleSessionInfo text fields := by
      unfold Turn.handleEvent
      dsimp only
      rw [if_pos type]
    rw [here, sign]
    refine (handleSessionInfo_spec text valid fields).imp_left ?_
    rintro ⟨next, done, following, written, known⟩
    refine ⟨next, done, following, ?_, ?_⟩
    · rw [written]
      split_ifs <;> rfl
    · rw [known]
      cases text.truthy (getOr fields "session_id" .null) <;> rfl
  -- anything else
  · have plain := plain_of_parseCliEvent text (fun fields same => (types fields same).1)
      (fun fields same => (types fields same).2.1)
    have ran : turn.handleEvent text buffer event =
        (parseCliEvent text event).foldlM (Turn.processParsed text buffer) turn := by
      cases event with
      | obj fields => exact handleEvent_of_ne text buffer turn (types fields rfl).2.2
      | _ => rfl
    rw [ran, sign]
    rcases foldlM_plain text buffer _ plain turn with ⟨next, done, same⟩ | ⟨raised, stopped, same⟩
    · refine .inl ⟨next, done, same.valid valid, ?_, ?_⟩
      · rw [same.written]
        exact (List.append_nil _).symm
      · unfold Turn.known
        rw [same.captured]
        exact (Bool.or_false _).symm
    · exact .inr ⟨raised, stopped, same⟩

theorem handledEvents_cons (turn : Turn σ) (event : Json) (rest : List Json) :
    handledEvents text buffer turn (event :: rest) =
      match turn.handleEvent text buffer event with
      | .ok next => event :: handledEvents text buffer next rest
      | .error _ => [] := rfl

/-- **All events of a session**: what is written, and that the node is in the last state. -/
theorem handleEvents_spec {turn : Turn σ} (valid : turn.Valid) (events : List Json)
    (ending : CliStreamEnd) (error : String) :
    (turn.handleEvents text buffer events ending error).written = turn.written ++
      (statesWritten turn.known ((handledEvents text buffer turn events).map (signal text)) ++
        if interrupted (handledEvents text buffer turn events) events ending then [.error] else []) ∧
    (turn.handleEvents text buffer events ending error).written.getLast? =
      some (turn.handleEvents text buffer events ending error).state := by
  induction events generalizing turn with
  | nil =>
    cases ending with
    | ends =>
      refine ⟨?_, valid.last⟩
      exact (List.append_nil _).symm
    | raises errorMessage => exact ⟨rfl, List.getLast?_concat⟩
  | cons event rest ih =>
    rcases handleEvent_spec text buffer valid event with
      ⟨next, done, following, written, known⟩ | ⟨raised, stopped, same⟩
    · have later : turn.handleEvents text buffer (event :: rest) ending error =
          next.handleEvents text buffer rest ending error := by
        unfold Turn.handleEvents
        rw [List.foldlM_cons, done]
        rfl
      have handled : handledEvents text buffer turn (event :: rest) =
          event :: handledEvents text buffer next rest := by
        rw [handledEvents_cons, done]
      have same : interrupted (event :: handledEvents text buffer next rest) (event :: rest) ending =
          interrupted (handledEvents text buffer next rest) rest ending := by
        unfold interrupted
        rw [List.length_cons, List.length_cons]
        simp only [Nat.add_lt_add_iff_right]
      obtain ⟨states, last⟩ := ih following
      rw [later, handled, same]
      refine ⟨?_, last⟩
      rw [states, written, List.map_cons, statesWritten, known, List.append_assoc, List.append_assoc]
    · have failed : turn.handleEvents text buffer (event :: rest) ending error =
          raised.taskFailed text buffer error := by
        unfold Turn.handleEvents
        rw [List.foldlM_cons, stopped]
        rfl
      have handled : handledEvents text buffer turn (event :: rest) = [] := by
        rw [handledEvents_cons, stopped]
      rw [failed, handled]
      refine ⟨?_, List.getLast?_concat⟩
      show raised.written ++ [.error] = _
      rw [same.written]
      rfl

/-- A turn that starts with or without a known id. -/
theorem start_valid (captured : Option Json) (temp : Option SessionId)
    (ids : temp = none ↔ captured.isSome = true) :
    (Turn.start buffer captured temp).Valid :=
  ⟨ids, rfl⟩

/-- A session's turn is truthful exactly when its signals settle it. -/
theorem truthful_of_session_iff {captured : Option Json} {temp : Option SessionId}
    (ids : temp = none ↔ captured.isSome = true) (events : List Json) (ending : CliStreamEnd)
    (error : String) :
    Truthful text ((Turn.start buffer captured temp).handleEvents text buffer events ending error)
      (handledEvents text buffer (.start buffer captured temp) events) ↔
    Settles captured.isSome
      (interrupted (handledEvents text buffer (.start buffer captured temp) events) events ending)
      ((handledEvents text buffer (.start buffer captured temp) events).map (signal text)) := by
  obtain ⟨written, last⟩ := handleEvents_spec text buffer (start_valid buffer captured temp ids)
    events ending error
  have states : ((Turn.start buffer captured temp).handleEvents text buffer events ending
      error).written = statesOf captured.isSome
        (interrupted (handledEvents text buffer (.start buffer captured temp) events) events ending)
        ((handledEvents text buffer (.start buffer captured temp) events).map (signal text)) := written
  rw [states] at last
  rw [← statesOf_truthful_iff last]
  have failures : (∃ event ∈ handledEvents text buffer (.start buffer captured temp) events,
      signal text event = .failedExit) ↔ .failedExit ∈
        (handledEvents text buffer (.start buffer captured temp) events).map (signal text) := by
    rw [List.mem_map]
  constructor
  · rintro ⟨terminal, lasting, failed⟩
    rw [states] at lasting
    exact ⟨terminal, lasting, fun member => failed (failures.mpr member)⟩
  · rintro ⟨terminal, lasting, failed⟩
    refine ⟨terminal, ?_, fun exists_ => failed (failures.mp exists_)⟩
    rw [states]
    exact lasting

/-- A turn that never reaches its events is in error. -/
theorem truthful_of_error (turn : Turn σ) (state : turn.state = .error)
    (written : turn.written = [.inProgress, .error]) : Truthful text turn [] := by
  refine ⟨.inr state, ?_, fun _ => state⟩
  rw [written]
  exact List.pairwise_pair.mpr nofun

/-- **The node reaches a truthful terminal state** exactly when the handled events settle the turn. -/
theorem truthful_iff (acquired : Acquired) (events : List Json) (ending : CliStreamEnd)
    (error : String) :
    Truthful text (processNode text buffer acquired events ending error)
      (handledOf text buffer acquired events) ↔
    SettlesTurn text buffer acquired events ending := by
  cases acquired with
  | limit errorMessage =>
    exact iff_of_true (truthful_of_error text _ rfl rfl) trivial
  | raises errorMessage =>
    exact iff_of_true (truthful_of_error text _ rfl rfl) trivial
  | new tempId =>
    have ids : some tempId = none ↔ (none : Option Json).isSome = true := iff_of_false nofun nofun
    exact truthful_of_session_iff text buffer ids events ending error
  | reused sessionId =>
    exact truthful_of_session_iff text buffer (iff_of_true rfl rfl) events ending error

end Events

/-- **A failed exit ends as completed**: the session's id is known, and the parser returns an error and
then a completion. -/
theorem failedExit_completes :
    ¬ Truthful ⟨fun _ => "", fun _ => false⟩
      (processNode ⟨fun _ => "", fun _ => false⟩ ⟨(), fun _ _ => some (), fun _ _ => (), fun _ => ()⟩
        (.new ⟨"pending_1", by decide⟩)
        [.obj [("type", .str "session_info"), ("session_id", .str "s1")],
          .obj [("type", .str "exit"), ("code", .int 1)]] .ends "")
      [.obj [("type", .str "session_info"), ("session_id", .str "s1")],
        .obj [("type", .str "exit"), ("code", .int 1)]] := by
  intro truthful
  have error := truthful.failed ⟨_, List.mem_cons_of_mem _ (List.mem_singleton_self _), rfl⟩
  exact nomatch error

end ClaudeProxy
