/-
**How a native stream ends.**

`Held` is what one connection keeps: what was yielded and what is still held back are together the
transformed events `out`, which are also what the tracker has observed. Behind `out`,

* `errorTail_events` — an error ends the message in a new text block, `message_delta`,
  `message_stop`;
* `recovered_events` — a recovery adds block events, closes the open blocks, and sends whichever of
  the two closing events is missing.

Both add a block event when `message_delta` is already out, but for one case: a recovery that finds
every tool block complete (`finished_iff`). So the message terminates once exactly when the
connection that is not started over broke off before its `message_delta`, or in that case
(`terminates_once_iff`).

Events are as the proxy's own reader reads the frames. A block event whose data it cannot decode (a
raw U+0085, U+2028 or U+2029 in a string) has no payload there; `MessagePrefix` asks for one.
-/

import ClaudeProxy.Provider.NativeTransport
import ClaudeProxy.Sse.PolicyOrder

namespace ClaudeProxy

open Json (getKey setKey)
open EmittedNativeSseTracker (Indexed)

/-! ### One connection -/

/-- What a connection's state says about the transformed events so far. -/
structure Held (state : StreamState) (out : List SseEvent) : Prop where
  coherent : state.holdback.Coherent
  sent : state.yielded ++ state.holdback.events = out
  tracker : state.tracker = EmittedNativeSseTracker.observeAll {} out
  quiet : state.holdback.committed = false → state.yielded = []
  something : state.holdback.committed = true → out ≠ []

theorem held_init : Held {} [] :=
  ⟨fun now => Bool.noConfusion now, rfl, rfl, fun _ => rfl, fun now => Bool.noConfusion now⟩

section Connection

variable {call : NativeCall} {number : Nat} {state : StreamState} {out : List SseEvent}

theorem Held.outgoing (held : Held state out) :
    RecoveryHoldbackBuffer.Outgoing state.yielded state.holdback out :=
  ⟨held.coherent, held.sent, held.quiet⟩

theorem Held.push (held : Held state out) (event : SseEvent) :
    Held (pushEvent call number state event) (out ++ [event]) := by
  have pushed := held.outgoing.push event (call.measured number state.chunks event)
  refine ⟨pushed.coherent, pushed.sent, ?_, pushed.quiet, fun _ => ?_⟩
  · show state.tracker.observe event = _
    rw [held.tracker, EmittedNativeSseTracker.observeAll_append]
    rfl
  · exact List.append_ne_nil_of_right_ne_nil _ (List.cons_ne_nil _ _)

theorem Held.pushAll (held : Held state out) (events : List SseEvent) :
    Held (events.foldl (pushEvent call number) state) (out ++ events) := by
  induction events generalizing state out with
  | nil =>
    rw [List.append_nil]
    exact held
  | cons event rest ih =>
    rw [← List.singleton_append, ← List.append_assoc]
    exact ih (held.push event)

theorem pushAll_policy (events : List SseEvent) (state : StreamState) :
    (events.foldl (pushEvent call number) state).policy = state.policy := by
  induction events generalizing state with
  | nil => rfl
  | cons event rest ih => exact ih _

/-- How a connection ends whose events the policy transforms. -/
theorem readStream_held (number : Nat) (ending : Option UpstreamError)
    {events sent : List SseEvent} {policy : NativeSseBlockPolicyState} (held : Held state out)
    (transformed : transformNativeSseStream call.thinkingEnabled state.policy events =
      .ok (sent, policy)) :
    ∃ last, Held last (out ++ sent) ∧ readStream call number state events ending =
      ⟨last, true, match ending with
        | some error => some error
        | none => if last.tracker.messageStopped then none else some .truncatedProviderStream⟩ := by
  induction events generalizing state out sent with
  | nil =>
    cases transformed
    refine ⟨state, by rwa [List.append_nil], ?_⟩
    cases ending with
    | some error => rfl
    | none =>
      rw [readStream, EmittedNativeSseTracker.hasTerminalMessage]
      dsimp only
      split_ifs <;> rfl
  | cons event rest ih =>
    rw [transformNativeSseStream] at transformed
    split at transformed
    · cases transformed
    · rename_i answer middle step
      split at transformed
      · cases transformed
      · rename_i later afterRest run
        cases transformed
        have readHead : Held { state with policy := middle } out :=
          ⟨held.coherent, held.sent, held.tracker, held.quiet, held.something⟩
        have pushed : Held ((answer.getD []).foldl (pushEvent call number)
            { state with policy := middle }) (out ++ answer.getD []) := readHead.pushAll _
        obtain ⟨last, heldLast, ended⟩ := ih pushed (by rw [pushAll_policy]; exact run)
        refine ⟨last, by rwa [← List.append_assoc], ?_⟩
        rw [readStream, step]
        exact ended

/-- **A flush gives out the rest.** -/
theorem Held.flushed (held : Held state out) : state.yielded ++ state.holdback.flush.1 = out :=
  held.outgoing.flushed

end Connection

/-! ### What is added behind the events -/

/-- The events that an error adds. -/
theorem errorTail_events (call : NativeCall) {state : StreamState} {out : List SseEvent}
    (held : Held state out) (tracker : EmittedNativeSseTracker) (error : UpstreamError) :
    ∃ added, state.yielded ++ errorTail call state tracker error = out ++ added ∧
      (out = [] → MessagePhase.opening.run added = some .stopped) ∧
      (out ≠ [] → MessagePhase.content.run added = some .stopped) ∧
      ∃ event ∈ added, event.isBlockEvent = true := by
  by_cases nothing : out = []
  · have uncommitted : state.holdback.committed = false := by
      rcases committed : state.holdback.committed
      · rfl
      · exact absurd nothing (held.something committed)
    have empty := held.sent
    rw [nothing, List.append_eq_nil_iff] at empty
    refine ⟨emitErrorEvents call (call.errorMessage error), ?_, fun _ => rfl,
      fun some => absurd nothing some, contentBlockStop 0, ?_, rfl⟩
    swap
    · simp [emitErrorEvents, iterProviderStreamErrorSseEvents, errorBlockEvents,
        SseBuilder.emitError]
    rw [nothing, empty.1, errorTail, uncommitted, RecoveryHoldbackBuffer.hasBuffered, empty.2]
    rfl
  · have sends : (state.holdback.committed || state.holdback.hasBuffered) = true := by
      rcases committed : state.holdback.committed
      · have buffered := held.sent
        rw [held.quiet committed, List.nil_append] at buffered
        rw [RecoveryHoldbackBuffer.hasBuffered, buffered]
        simpa using nothing
      · rfl
    refine ⟨tracker.iterCloseUnclosedBlocks.1 ++
      iterMidstreamErrorTail call tracker (call.errorMessage error), ?_,
      fun none => absurd none nothing, fun _ => ?_, ?_⟩
    · rw [errorTail, if_pos sends]
      show state.yielded ++ (state.holdback.flush.1 ++ _ ++ _) = _
      rw [List.append_assoc, ← List.append_assoc state.yielded, held.flushed]
      rfl
    · rw [MessagePhase.run_append, MessagePhase.run_content, Option.bind_some]
      · rfl
      · intro event member
        obtain ⟨index, _, rfl⟩ := List.mem_map.mp member
        rfl
    · exact ⟨contentBlockStop tracker.nextContentIndex,
        List.mem_append_right _ (by simp [iterMidstreamErrorTail, errorBlockEvents,
          SseBuilder.emitError]), rfl⟩

section Recovered

variable {runtime : Runtime} {tools : List RequestTool} {upstream : Upstream}
  {thinkingEnabled : Bool} {body : Body} {error : UpstreamError} {number : Nat}
  {tracker after : EmittedNativeSseTracker} {events : List SseEvent}

/-- A continued suffix sends block events only, and leaves the message's end alone. -/
theorem appendSuffix_plain (blockType member : String) (tracker : EmittedNativeSseTracker)
    (suffix : String) :
    (∀ event ∈ (tracker.appendSuffix blockType member suffix).1, event.isBlockEvent = true) ∧
      (tracker.appendSuffix blockType member suffix).2.stopReason = tracker.stopReason ∧
      (tracker.appendSuffix blockType member suffix).2.messageStopped =
        tracker.messageStopped := by
  unfold EmittedNativeSseTracker.appendSuffix
  split_ifs
  · exact ⟨fun event member => (List.not_mem_nil member).elim, rfl, rfl⟩
  · rcases tracker.lastOpenBlock blockType with _ | active
    · refine ⟨fun event member => ?_, rfl, rfl⟩
      rcases List.mem_pair.mp member with rfl | rfl <;> rfl
    · refine ⟨fun event member => ?_, rfl, rfl⟩
      rw [List.mem_singleton.mp member]
      rfl

/-- The closing of a message, by the two fields it depends on. -/
theorem iterSuccessTail_eq {tracker : EmittedNativeSseTracker} (before : EmittedNativeSseTracker)
    (stopReason : String)
    (sameReason : tracker.stopReason = before.stopReason)
    (sameStopped : tracker.messageStopped = before.messageStopped) :
    (tracker.iterSuccessTail stopReason).1 =
      tracker.openStack.reverse.map contentBlockStop ++ before.closingEvents stopReason := by
  show tracker.openStack.reverse.map contentBlockStop ++
    EmittedNativeSseTracker.closingEvents _ stopReason = _
  unfold EmittedNativeSseTracker.closingEvents
  rw [← sameReason, ← sameStopped]

theorem isBlockEvent_stops {indexes : List Int} :
    ∀ event ∈ indexes.map contentBlockStop, event.isBlockEvent = true := by
  intro event member
  obtain ⟨index, _, rfl⟩ := List.mem_map.mp member
  rfl

/-- **What a recovery adds**: block events, then the closing events that are missing. Without a
block event of its own it found every tool block complete. -/
theorem recovered_events (indexed : Indexed tracker)
    (recovered : nativeRecoveryEvents runtime upstream thinkingEnabled tools body tracker error
      number = (.ok (some events), after)) :
    ∃ blocks reason, events = blocks ++ tracker.closingEvents reason ∧
      (∀ event ∈ blocks, event.isBlockEvent = true) ∧
      (blocks = [] → isRetryableStreamError error = true ∧
        canSalvageToolUse runtime (toolSchemasByName tools) tracker = .ok true) := by
  unfold nativeRecoveryEvents at recovered
  split_ifs at recovered with permanent hasTool nothing
  · cases recovered
  · obtain ⟨repairs, middle, rfl, repaired, named⟩ := repairedToolEvents_parts indexed recovered
    refine ⟨repairs ++ middle.openStack.reverse.map contentBlockStop, "tool_use", ?_,
      List.forall_mem_append.mpr ⟨repaired.onlyDeltas, isBlockEvent_stops⟩, fun empty => ?_⟩
    · rw [iterSuccessTail_eq tracker "tool_use" (by rw [repaired.rest])
        (by rw [repaired.rest]), List.append_assoc]
    · have complete := repaired.silent named (List.append_eq_nil_iff.mp empty).1
      refine ⟨by simpa using permanent, ?_⟩
      rw [canSalvageToolUse, if_neg (by simpa [EmittedNativeSseTracker.hasToolBlock] using hasTool)]
      exact allComplete_iff.mpr complete
  · cases recovered
  · split at recovered
    · cases recovered
    · rename_i text thinking _ _
      unfold continuedEvents at recovered
      dsimp only at recovered
      obtain ⟨thinkingBlocks, thinkingReason, thinkingStopped⟩ := appendSuffix_plain "thinking"
        "thinking" tracker ((continuationSuffix tracker.emittedThinking thinking).getD "")
      change ∀ event ∈ (tracker.appendThinkingSuffix _).1, _ at thinkingBlocks
      change (tracker.appendThinkingSuffix _).2.stopReason = _ at thinkingReason
      change (tracker.appendThinkingSuffix _).2.messageStopped = _ at thinkingStopped
      set thought := tracker.appendThinkingSuffix
        ((continuationSuffix tracker.emittedThinking thinking).getD "") with hThought
      obtain ⟨textBlocks, textReason, textStopped⟩ := appendSuffix_plain "text" "text"
        thought.2 ((continuationSuffix tracker.emittedText text).getD "")
      change ∀ event ∈ (thought.2.appendTextSuffix _).1, _ at textBlocks
      change (thought.2.appendTextSuffix _).2.stopReason = _ at textReason
      change (thought.2.appendTextSuffix _).2.messageStopped = _ at textStopped
      set written := thought.2.appendTextSuffix
        ((continuationSuffix tracker.emittedText text).getD "") with hWritten
      split_ifs at recovered with empty
      · cases recovered
      · cases recovered
        refine ⟨thought.1 ++ written.1 ++ written.2.openStack.reverse.map contentBlockStop,
          "end_turn", ?_, List.forall_mem_append.mpr
          ⟨List.forall_mem_append.mpr ⟨thinkingBlocks, textBlocks⟩, isBlockEvent_stops⟩,
          fun none => absurd (List.append_eq_nil_iff.mp none).1 empty⟩
        rw [iterSuccessTail_eq tracker "end_turn" (textReason.trans thinkingReason)
          (textStopped.trans thinkingStopped), List.append_assoc (thought.1 ++ written.1)]

/-- Complete blocks need no repair. -/
theorem repairToolBlocks_complete {schemas : Dict String ToolSchema}
    {blocks : List EmittedBlockState} (tracker : EmittedNativeSseTracker) (index number : Nat)
    (complete : ∀ block ∈ blocks, completeToolBlock runtime schemas block = .ok true) :
    repairToolBlocks runtime schemas upstream thinkingEnabled body index blocks tracker number =
      (.ok (some []), tracker) := by
  induction blocks generalizing index with
  | nil => rfl
  | cons block rest ih =>
    rw [repairToolBlocks, complete block List.mem_cons_self]
    exact ih (index + 1) fun other member => complete other (List.mem_cons_of_mem _ member)

/-- **A finished message is left alone**: with every tool block complete, recovery closes it. -/
theorem complete_recovered (retryable : isRetryableStreamError error = true)
    (salvaged : canSalvageToolUse runtime (toolSchemasByName tools) tracker = .ok true) :
    ∃ after, nativeRecoveryEvents runtime upstream thinkingEnabled tools body tracker error number =
      (.ok (some (tracker.openStack.reverse.map contentBlockStop ++
        tracker.closingEvents "tool_use")), after) := by
  have hasTool : tracker.hasToolBlock = true := by
    rw [EmittedNativeSseTracker.hasToolBlock]
    unfold canSalvageToolUse at salvaged
    split_ifs at salvaged with none
    · cases salvaged
    · exact Bool.not_eq_true' _ ▸ Bool.not_eq_true _ ▸ none
  have repaired : repairToolBlocks runtime (toolSchemasByName tools) upstream thinkingEnabled body 0
      tracker.toolBlocks tracker number = (.ok (some []), tracker) :=
    repairToolBlocks_complete tracker 0 number (canSalvageToolUse_complete salvaged)
  refine ⟨(tracker.iterSuccessTail "tool_use").2, ?_⟩
  rw [nativeRecoveryEvents, if_neg (by rw [retryable]; decide), if_pos hasTool, repairedToolEvents,
    repaired]
  dsimp only
  rw [salvaged]
  rfl

end Recovered

/-! ### The end of a failed connection -/

section Failed

variable {call : NativeCall} {number : Nat} {state : StreamState} {out : List SseEvent}
  {phase : MessagePhase} {nest : Nest Int}

theorem nil_of_opening (ordered : MessagePhase.opening.run out = some .opening) : out = [] := by
  cases out with
  | nil => rfl
  | cons event rest =>
    have started := MessagePhase.run_passed (Or.inl rfl) ordered
    rw [MessagePhase.run_cons, Option.bind_eq_some_iff] at ordered
    obtain ⟨next, step, _⟩ := ordered
    obtain ⟨name, _⟩ := Option.ite_none_right_eq_some.mp step
    rw [MessagePhase.countEvents_cons, if_pos name] at started
    change 1 + _ + 0 = 0 at started
    omega

/-- The events behind the ones held back, whatever is decided. -/
theorem recoverOrFail_added (call : NativeCall) (number : Nat) (held : Held state out)
    (indexed : Indexed state.tracker) (error : UpstreamError) :
    ∃ added, state.yielded ++ recoverOrFail call number state error = out ++ added ∧
      (state.tracker.stopReason = none → state.tracker.messageStopped = false →
        (out = [] → MessagePhase.opening.run added = some .stopped) ∧
        (out ≠ [] → MessagePhase.content.run added = some .stopped)) ∧
      ((∃ event ∈ added, event.isBlockEvent = true) ∨ isRetryableStreamError error = true ∧
        completeToolSalvageable call state.tracker = .ok true) := by
  have failed : ∀ tracker, ∃ added, state.yielded ++ errorTail call state tracker error =
      out ++ added ∧ (state.tracker.stopReason = none → state.tracker.messageStopped = false →
        (out = [] → MessagePhase.opening.run added = some .stopped) ∧
        (out ≠ [] → MessagePhase.content.run added = some .stopped)) ∧
      ((∃ event ∈ added, event.isBlockEvent = true) ∨ isRetryableStreamError error = true ∧
        completeToolSalvageable call state.tracker = .ok true) := by
    intro tracker
    obtain ⟨added, sent, first, later, block⟩ := errorTail_events call held tracker error
    exact ⟨added, sent, fun _ _ => ⟨first, later⟩, Or.inl block⟩
  unfold recoverOrFail
  split_ifs with recovers
  · rw [Bool.and_eq_true] at recovers
    split
    · rename_i events after recovered
      obtain ⟨blocks, reason, rfl, plain, finished⟩ := recovered_events indexed recovered
      refine ⟨blocks ++ state.tracker.closingEvents reason, ?_, fun noReason running =>
        ⟨fun nothing => ?_, fun _ => ?_⟩, ?_⟩
      · rw [← List.append_assoc, held.flushed]
      · rw [held.tracker, nothing] at recovers
        exact absurd recovers.1 (by decide)
      · rw [MessagePhase.run_append, MessagePhase.run_content fun event member =>
          isMessageEvent_of_isBlockEvent (plain event member), Option.bind_some,
          EmittedNativeSseTracker.closingEvents, noReason, running]
        rfl
      · by_cases empty : blocks = []
        · right
          rw [completeToolSalvageable, if_pos recovers.1]
          exact finished empty
        · left
          obtain ⟨event, member⟩ := List.exists_mem_of_ne_nil blocks empty
          exact ⟨event, List.mem_append_left _ member, plain event member⟩
    · exact failed _
  · exact failed _

/-- A message whose end is out and whose tool blocks are complete gets the events it lacks. -/
theorem finished_terminates {error : UpstreamError} (held : Held state out)
    (ordered : MessagePhase.opening.run out = some phase)
    (behind : phase = .closing ∨ phase = .stopped)
    (hasReason : state.tracker.stopReason.isSome = true)
    (noneOpen : state.tracker.openStack = [])
    (stopped : state.tracker.messageStopped = true ↔ phase = .stopped)
    (retryable : isRetryableStreamError error = true)
    (salvageable : completeToolSalvageable call state.tracker = .ok true) :
    TerminatesOnce (state.yielded ++ recoverOrFail call number state error) := by
  unfold completeToolSalvageable at salvageable
  split_ifs at salvageable with hasContent
  · obtain ⟨after, recovered⟩ : ∃ after, nativeRecoveryEvents call.runtime call.upstream
        call.thinkingEnabled call.tools call.body state.tracker error (number + 1) =
        (.ok (some (state.tracker.openStack.reverse.map contentBlockStop ++
          state.tracker.closingEvents "tool_use")), after) :=
      complete_recovered retryable salvageable
    have events : recoverOrFail call number state error = state.holdback.flush.1 ++
        state.tracker.closingEvents "tool_use" := by
      rw [recoverOrFail, hasContent, retryable, recovered, noneOpen]
      rfl
    rw [events, ← List.append_assoc, held.flushed]
    refine terminatesOnce_of_run ?_
    obtain ⟨reason, found⟩ := Option.isSome_iff_exists.mp hasReason
    rw [MessagePhase.run_append, ordered, Option.bind_some, EmittedNativeSseTracker.closingEvents,
      found]
    rcases behind with rfl | rfl
    · have running : state.tracker.messageStopped = false := by
        rcases now : state.tracker.messageStopped
        · rfl
        · cases stopped.mp now
      rw [running]
      rfl
    · rw [stopped.mpr rfl]
      rfl
  · cases salvageable

/-- **How a failed connection that is not started over ends**: the message terminates once exactly
when `message_delta` was not out yet, or every tool block is complete and the error retryable. -/
theorem finished_iff (held : Held state out) (ordered : MessagePhase.opening.run out = some phase)
    (closed : nest.opened = ∅ → state.tracker.openStack = [])
    (reached : Reached phase state.tracker nest) (error : UpstreamError) :
    TerminatesOnce (state.yielded ++ recoverOrFail call number state error) ↔
      state.tracker.stopReason = none ∨ isRetryableStreamError error = true ∧
        completeToolSalvageable call state.tracker = .ok true := by
  have indexed : Indexed state.tracker :=
    held.tracker ▸ EmittedNativeSseTracker.indexed_init.afterEvents out
  obtain ⟨added, sent, runs, decided⟩ :=
    recoverOrFail_added call number held indexed error
  have late : phase = .closing ∨ phase = .stopped → state.tracker.stopReason.isSome = true →
      nest.opened = ∅ → (state.tracker.messageStopped = true ↔ phase = .stopped) →
      (TerminatesOnce (state.yielded ++ recoverOrFail call number state error) ↔
        state.tracker.stopReason = none ∨ isRetryableStreamError error = true ∧
          completeToolSalvageable call state.tracker = .ok true) := by
    intro behind hasReason noneOpen stopped
    constructor
    · intro terminates
      rw [sent] at terminates
      rcases decided with block | finished
      · exact absurd terminates (not_terminatesOnce ordered behind block)
      · exact Or.inr finished
    · rintro (noReason | ⟨retryable, salvageable⟩)
      · rw [noReason] at hasReason
        cases hasReason
      · exact finished_terminates held ordered behind hasReason (closed noneOpen) stopped retryable
          salvageable
  cases phase with
  | opening =>
    refine iff_of_true ?_ (Or.inl reached.1)
    obtain rfl := nil_of_opening ordered
    rw [sent, List.nil_append]
    exact terminatesOnce_of_run ((runs reached.1 reached.2).1 rfl)
  | content =>
    refine iff_of_true ?_ (Or.inl reached.1)
    have started : out ≠ [] := by
      rintro rfl
      cases ordered
    rw [sent]
    refine terminatesOnce_of_run ?_
    rw [MessagePhase.run_append, ordered, Option.bind_some]
    exact (runs reached.1 reached.2).2 started
  | closing =>
    exact late (Or.inl rfl) reached.1 reached.2.2
      ⟨fun now => absurd (reached.2.1.symm.trans now) (by decide), fun now => by cases now⟩
  | stopped => exact late (Or.inr rfl) reached.1 reached.2.2 ⟨fun _ => rfl, fun _ => reached.2.1⟩

end Failed

/-! ### The whole call -/

/-- The connection that is not started over. -/
def lastConnection (call : NativeCall) : (retries : Nat) → (number : Nat) → StreamEnd
  | retries, number =>
    let ended := connect call number
    match ended.error with
    | none => ended
    | some error =>
      match completeToolSalvageable call ended.state.tracker with
      | .error _ => ended
      | .ok salvageable =>
        match startsOver ended error salvageable retries, retries with
        | true, retries + 1 => lastConnection call retries (number + 1)
        | _, _ => ended

/-- The condition on that connection: it completed; or it broke off before `message_delta`, or
retryably behind it with every tool block complete; or, when checking the tool blocks raises,
the whole message had already been sent. -/
def EndsCleanly (call : NativeCall) (ended : StreamEnd) : Prop :=
  match ended.error with
  | none => True
  | some error =>
    match completeToolSalvageable call ended.state.tracker with
    | .error _ =>
      ended.state.holdback.committed = true ∧ ended.state.tracker.messageStopped = true
    | .ok salvageable =>
      ended.state.tracker.stopReason = none ∨
        isRetryableStreamError error = true ∧ salvageable = true

instance (call : NativeCall) (ended : StreamEnd) : Decidable (EndsCleanly call ended) := by
  unfold EndsCleanly
  split
  · infer_instance
  · split <;> infer_instance

section Call

variable {call : NativeCall}

/-- What is known of a connection that serves a prefix of a message. -/
theorem connect_held (number : Nat)
    (wellFormed : ∀ events ending, call.upstream number call.body = .opened events ending →
      MessagePrefix events) :
    ∃ out phase nest, Held (connect call number).state out ∧
      MessagePhase.opening.run out = some phase ∧
      (nest.opened = ∅ → (connect call number).state.tracker.openStack = []) ∧
      Reached phase (connect call number).state.tracker nest ∧
      ((connect call number).error = none → phase = .stopped) := by
  unfold connect
  split
  · exact ⟨[], .opening, Nest.empty, held_init, rfl, fun _ => rfl, ⟨rfl, rfl⟩,
      fun none => by cases none⟩
  · rename_i events ending answer
    obtain ⟨phase, nest, out, policy, _, _, transformed, ordered, link, reached⟩ :=
      messagePrefix_transformed call.thinkingEnabled (wellFormed events ending answer)
    obtain ⟨last, held, ended⟩ := readStream_held number ending held_init transformed
    rw [List.nil_append] at held
    rw [ended]
    rw [← held.tracker] at link reached
    refine ⟨out, phase, nest, held, ordered, link.closed, reached, fun completed => ?_⟩
    cases ending with
    | some error => cases completed
    | none =>
      dsimp only at completed
      split_ifs at completed with stopped
      cases phase with
      | stopped => rfl
      | opening | content =>
        rw [reached.2] at stopped
        cases stopped
      | closing =>
        rw [reached.2.1] at stopped
        cases stopped

/-- What was yielded before an exception left the generator. -/
theorem yielded_iff {state : StreamState} {out : List SseEvent} {phase : MessagePhase}
    {nest : Nest Int} (held : Held state out) (ordered : MessagePhase.opening.run out = some phase)
    (reached : Reached phase state.tracker nest) :
    TerminatesOnce state.yielded ↔
      state.holdback.committed = true ∧ state.tracker.messageStopped = true := by
  rcases committed : state.holdback.committed
  · rw [held.quiet committed]
    exact ⟨fun terminates => absurd terminates.oneStart (by decide),
      fun both => Bool.noConfusion both.1⟩
  · have all := held.sent
    rw [held.coherent committed, List.append_nil] at all
    rw [all]
    have stops : countEvents "message_stop" out = phase.passed "message_stop" :=
      MessagePhase.run_passed (Or.inr (Or.inr rfl)) ordered
    constructor
    · intro terminates
      rw [terminates.oneStop] at stops
      cases phase with
      | stopped => exact ⟨rfl, reached.2.1⟩
      | opening | content | closing => cases stops
    · rintro ⟨_, stopped⟩
      cases phase with
      | stopped => exact terminatesOnce_of_run ordered
      | opening | content =>
        rw [reached.2] at stopped
        cases stopped
      | closing =>
        rw [reached.2.1] at stopped
        cases stopped

/-- A connection that is not started over. -/
theorem ends_here (call : NativeCall) (retries number : Nat)
    (wellFormed : ∀ events ending, call.upstream number call.body = .opened events ending →
      MessagePrefix events)
    (last : ∀ error salvageable, (connect call number).error = some error →
      completeToolSalvageable call (connect call number).state.tracker = .ok salvageable →
      startsOver (connect call number) error salvageable retries = false) :
    TerminatesOnce (streamResponse call retries number).1 ↔
      EndsCleanly call (lastConnection call retries number) := by
  obtain ⟨out, phase, nest, held, ordered, closed, reached, completed⟩ :=
    connect_held number wellFormed
  rw [streamResponse, lastConnection]
  dsimp only
  rcases failed : (connect call number).error with _ | error
  · dsimp only
    rw [held.flushed, EndsCleanly, failed]
    obtain rfl := completed failed
    exact iff_of_true (terminatesOnce_of_run ordered) trivial
  · dsimp only
    rcases checked : completeToolSalvageable call (connect call number).state.tracker with
      raised | salvageable
    · dsimp only
      rw [EndsCleanly, failed]
      dsimp only
      rw [checked]
      exact yielded_iff held ordered reached
    · dsimp only
      rw [last error salvageable failed checked]
      dsimp only
      rw [EndsCleanly, failed]
      dsimp only
      rw [checked, finished_iff held ordered closed reached error, checked, Except.ok.injEq]

/-- **Exactly when a native stream is terminated once**: for every call whose message requests are
answered with prefixes of well-formed messages, every block event of which the proxy's reader can
decode, however the connections break off, whatever the recovery requests are answered, and whenever
the holdback buffer commits. -/
theorem terminates_once_iff (call : NativeCall) (retries number : Nat)
    (wellFormed : ∀ number events ending, call.upstream number call.body = .opened events ending →
      MessagePrefix events) :
    TerminatesOnce (streamResponse call retries number).1 ↔
      EndsCleanly call (lastConnection call retries number) := by
  induction retries generalizing number with
  | zero =>
    refine ends_here call 0 number (wellFormed number) fun error salvageable _ _ => ?_
    rw [startsOver, decide_eq_false (lt_irrefl 0), Bool.and_false]
  | succ retries ih =>
    by_cases again : ∃ error salvageable, (connect call number).error = some error ∧
        completeToolSalvageable call (connect call number).state.tracker = .ok salvageable ∧
        startsOver (connect call number) error salvageable (retries + 1) = true
    · obtain ⟨error, salvageable, failed, checked, restarts⟩ := again
      obtain ⟨out, phase, nest, held, _⟩ := connect_held number (wellFormed number)
      have uncommitted : (connect call number).state.holdback.committed = false := by
        simp only [startsOver, Bool.and_eq_true, Bool.not_eq_true'] at restarts
        exact restarts.1.1.1.1
      have again : (streamResponse call (retries + 1) number).1 =
          (streamResponse call retries (number + 1)).1 := by
        rw [streamResponse]
        simp only [failed, checked, restarts, held.quiet uncommitted, List.nil_append]
      have last : lastConnection call (retries + 1) number =
          lastConnection call retries (number + 1) := by
        rw [lastConnection]
        simp only [failed, checked, restarts]
      rw [again, last]
      exact ih (number + 1)
    · refine ends_here call (retries + 1) number (wellFormed number)
        fun error salvageable failed checked => ?_
      rcases restarts : startsOver (connect call number) error salvageable (retries + 1)
      · rfl
      · exact absurd ⟨error, salvageable, failed, checked, restarts⟩ again

end Call

/-! ### A text message -/

/-- A text message up to its last block. -/
def helloBlocks : List SseEvent :=
  [formatSseEvent "message_start" [("type", .str "message_start")],
    contentBlockStart 0 [("type", .str "text"), ("text", .str "")],
    contentBlockDelta 0 [("type", .str "text_delta"), ("text", .str "Hello")],
    contentBlockStop 0]

/-- The whole message. -/
def helloMessage : List SseEvent :=
  helloBlocks ++ formatSseEvent "message_delta"
      [("type", .str "message_delta"), ("delta", .obj [("stop_reason", .str "end_turn")])] ::
    [SseBuilder.messageStop]

/-- Every request is answered with the events, and then the connection breaks off. -/
def brokenCall (events : List SseEvent) : NativeCall where
  runtime := emptyObjectRuntime
  upstream _ _ := .opened events (some .httpxReadError)
  thinkingEnabled := true
  tools := []
  body := []
  model := "model"
  inputTokens := 1
  errorMessage _ := "Provider request failed."
  freshMessageId := "msg_1"
  measured _ _ _ := ⟨100, 0, 0⟩

theorem helloBlocks_read : Reads Nest.empty helloBlocks ((Nest.empty.start 0).stop 0) :=
  ⟨by decide, rfl⟩

/-- The blocks of the message, typed and without a `message_delta` among them. -/
theorem helloBlocks_typed : ∀ event ∈ helloBlocks,
    (event.event = "content_block_start" → ∃ block blockType,
      event.contentBlock = .obj block ∧ getKey block "type" = .str blockType) ∧
    event.event ≠ "message_delta" := by
  intro event member
  simp only [helloBlocks, List.mem_cons, List.not_mem_nil, or_false] at member
  rcases member with rfl | rfl | rfl | rfl
  · exact ⟨fun name => absurd name (by decide), by decide⟩
  · exact ⟨fun _ => ⟨_, _, rfl, rfl⟩, by decide⟩
  · exact ⟨fun name => absurd name (by decide), by decide⟩
  · exact ⟨fun name => absurd name (by decide), by decide⟩

theorem helloBlocks_messagePrefix : MessagePrefix helloBlocks where
  ordered := ⟨.content, rfl⟩
  nested := ⟨_, helloBlocks_read⟩
  typed event member := (helloBlocks_typed event member).1
  settled before event after split name := by
    have member : event ∈ helloBlocks := split ▸ List.mem_append_right _ List.mem_cons_self
    exact absurd name (helloBlocks_typed event member).2

/-- A connection that breaks off behind the blocks ends the message once. -/
theorem brokenHello_terminates :
    TerminatesOnce (streamResponse (brokenCall helloBlocks) earlyTransparentMaxRetries 0).1 :=
  (terminates_once_iff (brokenCall helloBlocks) earlyTransparentMaxRetries 0
    fun _ _ _ answer => by
      cases answer
      exact helloBlocks_messagePrefix).mpr (by decide +kernel)

theorem helloMessage_messagePrefix : MessagePrefix helloMessage where
  ordered := ⟨.stopped, rfl⟩
  nested := ⟨_, helloBlocks_read.append (Reads.others (by decide))⟩
  typed event member := by
    rcases List.mem_append.mp member with inside | last
    · exact (helloBlocks_typed event inside).1
    · rcases List.mem_pair.mp last with rfl | rfl <;> exact fun name => absurd name (by decide)
  settled before event after split name :=
    settled_of_split (by decide) (fun event member => (helloBlocks_typed event member).2) rfl rfl
      helloBlocks_read (by decide) split name

/-- One that breaks off behind the whole message makes the proxy end it again. -/
theorem finishedHello_ends_twice :
    MessagePrefix helloMessage ∧
      ¬TerminatesOnce (streamResponse (brokenCall helloMessage) earlyTransparentMaxRetries 0).1 :=
  ⟨helloMessage_messagePrefix, fun terminates => absurd terminates.oneDelta (by decide +kernel)⟩

end ClaudeProxy
