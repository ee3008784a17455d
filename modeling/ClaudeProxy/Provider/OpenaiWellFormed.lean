/-
**The stream of an OpenAI call is well formed.**

What runs behind the chunk loop and in its handler is outside the `try`: an exception there leaves the
generator, and one that recovery raises loses the events that recovery has made.

* `WellFormedStream` — one `message_start`, blocks that nest, then `message_delta` and `message_stop`.
* `lastAttempt` — the attempt that is not started over, and what it ended with.
* `StepsSafely` — what the steps outside the `try` need of the variables before them.
* **`wellFormed_iff`** — the stream is well formed, and nothing is raised, just then.
-/

import ClaudeProxy.Provider.OpenaiStopReason

namespace ClaudeProxy

open RecoveryHoldbackBuffer (Outgoing)

/-! ### Well-formed streams -/

/-- **A well-formed stream**: every block is started once, with a higher index than those before,
extended while it is open, and stopped once; all of them between one `message_start` and one
`message_delta`, which one `message_stop` follows. -/
structure WellFormedStream (events : List SseEvent) : Prop where
  nested : WellNested events
  increasing : (starts (marks events)).Pairwise (· < ·)
  ordered : ∃ start content delta stop, events = start :: (content ++ [delta, stop]) ∧
    start.event = "message_start" ∧ (∀ event ∈ content, event.isMessageEvent = false) ∧
    delta.event = "message_delta" ∧ stop.event = "message_stop"

/-- The content of a message, all of whose blocks are closed; `next` is the next index. -/
structure ClosedContent (content : List SseEvent) (next : Int) : Prop where
  reads : ∃ last, Reads Nest.empty content last ∧ last.opened = ∅ ∧ ∀ index ∈ last.seen, index < next
  ascends : Ascends 0 next (starts (marks content))
  plain : ∀ event ∈ content, event.isMessageEvent = false

namespace ClosedContent

variable {content : List SseEvent} {next : Int}

/-- **Closed content between the events of the message.** -/
theorem wellFormed (closed : ClosedContent content next) (first last : SseBuilder)
    (stopReason : String) (outputTokens : Int) :
    WellFormedStream (first.messageStart ::
      (content ++ [last.messageDelta stopReason outputTokens, SseBuilder.messageStop])) := by
  obtain ⟨nest, reads, empty, -⟩ := closed.reads
  have begins : Reads Nest.empty [first.messageStart] Nest.empty :=
    Reads.others fun event member => by rw [List.mem_singleton.mp member]; rfl
  have ends : Reads nest [last.messageDelta stopReason outputTokens, SseBuilder.messageStop] nest := by
    refine Reads.others fun event member => ?_
    simp only [List.mem_cons, List.not_mem_nil, or_false] at member
    rcases member with rfl | rfl <;> rfl
  refine ⟨wellNested_iff.mpr ⟨nest, begins.append (reads.append ends), empty⟩, ?_,
    ⟨_, content, _, _, rfl, rfl, closed.plain, rfl, rfl⟩⟩
  rw [marks_cons_none rfl, marks_append, starts_append]
  exact (List.append_nil _).symm ▸ closed.ascends.increasing

/-- The block of an error, behind the others. -/
theorem block (closed : ClosedContent content next) {index : Int} (above : next ≤ index)
    (block payload : List (String × Json)) :
    ClosedContent (content ++ [contentBlockStart index block, contentBlockDelta index payload,
      contentBlockStop index]) (index + 1) := by
  obtain ⟨nest, reads, empty, below⟩ := closed.reads
  have fresh : index ∉ nest.seen := fun seen => absurd (below index seen) (by omega)
  have isOpen : index ∈ (nest.start index).opened := Finset.mem_insert_self _ _
  have whole := ((Reads.start fresh block).append (Reads.delta isOpen payload)).append
    (Reads.stop isOpen)
  refine ⟨⟨_, reads.append whole, ?_, fun other seen => ?_⟩, ?_, fun event member => ?_⟩
  · rw [Nest.opened_stop, Nest.opened_start, Finset.erase_insert fun member => fresh (nest.within member)]
    exact empty
  · rw [Nest.seen_stop, Nest.seen_start, Finset.mem_insert] at seen
    rcases seen with rfl | seen
    · omega
    · have low := below other seen
      omega
  · rw [marks_append, starts_append]
    have skipped : Ascends next index [] := Ascends.nil above
    exact closed.ascends.append (skipped.append (Ascends.singleton index))
  · rcases List.mem_append.mp member with before | here
    · exact closed.plain event before
    · simp only [List.mem_cons, List.not_mem_nil, or_false] at here
      rcases here with rfl | rfl | rfl <;> rfl

/-- An event that is neither of a block nor of the message. -/
theorem aside (closed : ClosedContent content next) {event : SseEvent}
    (other : event.isBlockEvent = false) (plain : event.isMessageEvent = false) :
    ClosedContent (content ++ [event]) next := by
  obtain ⟨nest, reads, empty, below⟩ := closed.reads
  have silent : Reads nest [event] nest :=
    Reads.others fun _ member => by rw [List.mem_singleton.mp member]; exact other
  refine ⟨⟨nest, reads.append silent, empty, below⟩, ?_, fun event' member => ?_⟩
  · rw [marks_append, marks_cons_none (SseEvent.mark?_eq_none_of_not_block other), marks_nil,
      List.append_nil]
    exact closed.ascends
  · rcases List.mem_append.mp member with before | here
    · exact closed.plain event' before
    · rw [List.mem_singleton.mp here]
      exact plain

end ClosedContent

namespace SseBuilder

/-- What the end of all blocks changes: no text and no thinking is open. -/
theorem closeAllBlocks_eq (sse : SseBuilder) : (closeAllBlocks sse).2 =
    { sse with blocks := { sse.blocks with thinkingStarted := false, textStarted := false } } := by
  unfold closeAllBlocks closeContentBlocks Emit.followedBy
  dsimp only
  rcases sse with ⟨messageId, model, inputTokens, blocks, texts, reasonings⟩
  rcases blocks with ⟨nextIndex, thinkingIndex, textIndex, thinking, text, toolStates⟩
  cases thinking <;> cases text <;> rfl

/-- Neither text nor thinking is open. -/
def Settled (sse : SseBuilder) : Prop :=
  sse.blocks.textStarted = false ∧ sse.blocks.thinkingStarted = false

/-- Text and thinking, open or not. -/
theorem settled_iff {sse : SseBuilder} :
    sse.Settled ↔ sse.writer.block .text = none ∧ sse.writer.block .thinking = none := by
  rw [Settled, block_text, block_thinking]
  cases sse.blocks.textStarted <;> cases sse.blocks.thinkingStarted <;> simp

/-- Behind the end of all blocks, only the tool calls still have theirs. -/
theorem writer_closeAllBlocks {sse : SseBuilder} {owner : BlockOwner} {index : Int}
    (here : (closeAllBlocks sse).2.writer.block owner = some index) :
    ∃ toolIndex, owner = .tool toolIndex ∧ sse.writer.block (.tool toolIndex) = some index := by
  rw [closeAllBlocks_eq] at here
  cases owner with
  | thinking => cases here
  | text => cases here
  | tool toolIndex => exact ⟨toolIndex, rfl, here⟩

end SseBuilder

namespace OpenaiCall

variable {call : OpenaiCall} {state next : ChatState} {out : List SseEvent} {nest : Nest Int}
  {sse : SseBuilder}

/-- **All blocks are closed** behind what the client has read. -/
theorem closedContent (written : Continues Nest.empty call.newSseBuilder out nest sse) :
    ClosedContent (out ++ (SseBuilder.closeAllBlocks sse).1) sse.blocks.nextIndex := by
  obtain ⟨last, reads, empty, seen⟩ := SseBuilder.closeAllBlocks_reads written.inStep
  refine ⟨⟨last, written.reads.append reads, empty, fun index member => ?_⟩, ?_, fun event member => ?_⟩
  · exact written.inStep.below index (seen ▸ member)
  · rw [SseBuilder.closeAllBlocks_events, marks_append, marks_stops, starts_append, starts_map_stop,
      List.append_nil]
    exact written.ascends
  · rcases List.mem_append.mp member with before | here
    · exact written.content event before
    · rw [SseBuilder.closeAllBlocks_events] at here
      obtain ⟨index, -, rfl⟩ := List.mem_map.mp here
      rfl

/-- **The error tail ends a message.** -/
theorem wellFormed_errorTail (written : Continues Nest.empty call.newSseBuilder out nest sse)
    (errorMessage : String) :
    WellFormedStream (call.newSseBuilder.messageStart ::
      (out ++ (emitOpenaiErrorTail errorMessage sse).1)) := by
  have closed := closedContent written
  unfold emitOpenaiErrorTail Emit.followedBy
  dsimp only
  split_ifs
  · rw [← List.append_assoc, ← List.append_assoc]
    exact (closed.aside rfl rfl).wellFormed _ _ _ _
  · rw [← List.append_assoc, ← List.append_assoc]
    have same : (SseBuilder.closeAllBlocks sse).2.blocks.nextIndex = sse.blocks.nextIndex := by
      rw [SseBuilder.closeAllBlocks_eq]
    exact (closed.block (le_of_eq same.symm) _ _).wellFormed _ _ _ _

/-! ### The last attempt -/

section Attempts

variable (call : OpenaiCall)

/-- **The attempt that is not started over**: what it ended with, and the variables it left. -/
def lastAttempt : (retries : Nat) → ChatState → Option UpstreamError × ChatState
  | retries, state =>
    match call.connect state with
    | .ok _ ended => (none, ended)
    | .error error failed =>
      match call.completeToolSalvageable failed.sse with
      | .error _ => (some error, failed)
      | .ok salvageable =>
        match startsOver failed error salvageable retries, retries with
        | true, retries + 1 => lastAttempt retries (call.startOver failed)
        | _, _ => (some error, failed)

/-- The handler of an attempt that is not started over. -/
def handle (error : UpstreamError) (failed : ChatState) :
    EStateM.Result UpstreamError ChatState Unit :=
  match call.completeToolSalvageable failed.sse with
  | .error raised => .error (.python raised) failed
  | .ok _ => call.recoverOrFail error failed

/-- What is done behind the last attempt. -/
def behind : Option UpstreamError × ChatState → EStateM.Result UpstreamError ChatState Unit
  | (none, ended) => call.finish ended
  | (some error, failed) => call.handle error failed

end Attempts

theorem streamFrom_eq (call : OpenaiCall) (retries : Nat) (state : ChatState) :
    call.streamFrom retries state = call.behind (call.lastAttempt retries state) := by
  induction retries generalizing state with
  | zero =>
    rw [streamFrom, lastAttempt]
    cases call.connect state with
    | ok value ended => rfl
    | error error failed =>
      dsimp only
      cases asked : call.completeToolSalvageable failed.sse with
      | error raised => simp only [behind, handle, asked]
      | ok salvageable =>
        dsimp only
        cases startsOver failed error salvageable 0 <;> simp only [behind, handle, asked]
  | succ retries ih =>
    rw [streamFrom, lastAttempt]
    cases call.connect state with
    | ok value ended => rfl
    | error error failed =>
      dsimp only
      cases asked : call.completeToolSalvageable failed.sse with
      | error raised => simp only [behind, handle, asked]
      | ok salvageable =>
        dsimp only
        cases startsOver failed error salvageable (retries + 1) with
        | true => exact ih _
        | false => simp only [behind, handle, asked]

/-- **The invariant holds where the last attempt ends.** -/
theorem kept_lastAttempt {retries ids : Nat} (begun : Begun call ids state) :
    Kept call (call.lastAttempt retries state).2 := by
  have fresh : ∀ {ids : Nat} {state : ChatState}, Begun call ids state → Kept call state :=
    fun begun => Kept.fresh begun.sse begun.outgoing begun.aliasBuffers
  induction retries generalizing state ids with
  | zero =>
    rw [lastAttempt]
    cases ran : call.connect state with
    | ok value ended => exact keeps_connect.of_ok (fresh begun) ran
    | error error failed =>
      have kept := keeps_connect.of_error (fresh begun) ran
      dsimp only
      cases call.completeToolSalvageable failed.sse with
      | error raised => exact kept
      | ok salvageable =>
        dsimp only
        cases startsOver failed error salvageable 0 <;> exact kept
  | succ retries ih =>
    rw [lastAttempt]
    cases ran : call.connect state with
    | ok value ended => exact keeps_connect.of_ok (fresh begun) ran
    | error error failed =>
      have kept := keeps_connect.of_error (fresh begun) ran
      dsimp only
      cases call.completeToolSalvageable failed.sse with
      | error raised => exact kept
      | ok salvageable =>
        dsimp only
        cases again : startsOver failed error salvageable (retries + 1) with
        | true => exact ih (begun_startOver kept again)
        | false => exact kept

/-! ### The end of a complete response -/

/-- The Task arguments that still wait are JSON objects, or are not JSON at all: then they are sent
as an empty object. -/
def TaskArgsReadable (call : OpenaiCall) (state : ChatState) : Prop :=
  ∀ index tool, state.sse.blocks.toolStates.get? index = some tool →
    ContentBlockManager.awaitsTaskArgs tool = true →
      ∃ out, ContentBlockManager.flushedTaskArgs call.runtime tool.taskArgBuffer = .ok out

/-- The tokens are reported, or can be counted. -/
def CanCount (call : OpenaiCall) (state : ChatState) : Prop :=
  state.usage.bind ChatUsage.completionTokens = none → state.sse.Countable call.encoder

theorem flushTaskArgs_eq_ok_iff {runtime : Runtime} {entries : List (Int × ToolCallState)}
    {blocks : ContentBlockManager} :
    (∃ result, ContentBlockManager.flushTaskArgs runtime entries blocks = .ok result) ↔
      ∀ entry ∈ entries, ContentBlockManager.awaitsTaskArgs entry.2 = true →
        ∃ out, ContentBlockManager.flushedTaskArgs runtime entry.2.taskArgBuffer = .ok out := by
  induction entries generalizing blocks with
  | nil => exact iff_of_true ⟨_, rfl⟩ fun _ member => absurd member List.not_mem_nil
  | cons entry rest ih =>
    obtain ⟨index, tool⟩ := entry
    rw [ContentBlockManager.flushTaskArgs, List.forall_mem_cons]
    cases awaits : ContentBlockManager.awaitsTaskArgs tool with
    | false =>
      rw [if_neg Bool.false_ne_true, ih]
      exact (and_iff_right fun now => by cases now).symm
    | true =>
      rw [if_pos rfl]
      cases ContentBlockManager.flushedTaskArgs runtime tool.taskArgBuffer with
      | error error =>
        refine iff_of_false (by rintro ⟨_, ⟨⟩⟩) fun all => ?_
        obtain ⟨out, ⟨⟩⟩ := all.1 rfl
      | ok out =>
        dsimp only
        rw [← @ih (blocks.setToolState index { tool with taskArgsEmitted := true, taskArgBuffer := "" })]
        cases ContentBlockManager.flushTaskArgs runtime rest
          (blocks.setToolState index { tool with taskArgsEmitted := true, taskArgBuffer := "" }) with
        | error error => exact iff_of_false (by rintro ⟨_, ⟨⟩⟩) fun all => by obtain ⟨_, ⟨⟩⟩ := all.2
        | ok result => exact iff_of_true ⟨_, rfl⟩ ⟨fun _ => ⟨out, rfl⟩, result, rfl⟩

theorem taskArgsReadable_iff : TaskArgsReadable call state ↔
    ∃ result, state.sse.blocks.flushTaskArgBuffers call.runtime = .ok result := by
  unfold ContentBlockManager.flushTaskArgBuffers
  rw [flushTaskArgs_eq_ok_iff]
  exact ⟨fun readable entry inside => readable entry.1 entry.2 ((Dict.mem_entries_iff _).mp inside),
    fun readable index tool found => readable (index, tool) ((Dict.mem_entries_iff _).mpr found)⟩

/-- Task buffers that were flushed could be read. -/
theorem readable_of_flushed (ran : call.flushTaskArgBuffers state = .ok () next) :
    TaskArgsReadable call state := by
  unfold flushTaskArgBuffers at ran
  rw [get_bind_eq_ok] at ran
  obtain ⟨result, middle, flushed, -⟩ := bind_eq_ok.mp ran
  exact taskArgsReadable_iff.mpr ⟨result, (raising_eq_ok.mp flushed).1⟩

/-- **The Task buffers are flushed** where they can be read. -/
theorem flushed_of_readable (kept : Kept call state) (readable : TaskArgsReadable call state) :
    ∃ next, call.flushTaskArgBuffers state = .ok () next ∧ Kept call next := by
  obtain ⟨⟨outs, blocks⟩, flushed⟩ := taskArgsReadable_iff.mp readable
  obtain ⟨relabels, -, owners⟩ := flushTaskArgBuffers_ok flushed
  have ready : KeptWith call (outs.map Prod.fst) (state.withBlocks blocks) := by
    refine ⟨kept.relabel relabels, fun index member => ?_⟩
    obtain ⟨out, inside, rfl⟩ := List.mem_map.mp member
    exact (kept.started_of_waiting (owners out inside)).of_writer relabels.writer
  have each : Returns (KeptWith call (outs.map Prod.fst)) (outs.forM fun out =>
      (do call.holdEvents (← toolDelta out.1 out.2) : Chat Unit)) :=
    Ensures.forM fun out inside => returns_holdToolDelta (List.mem_map_of_mem inside) out.2
  obtain ⟨⟨⟩, next, ran, here⟩ := each.exists_ok ready
  refine ⟨next, ?_, here.1⟩
  unfold flushTaskArgBuffers
  rw [get_bind_eq_ok, flushed]
  exact ran

/-- **The tokens are counted** just when they can be. -/
theorem outputTokens_returns_iff :
    (∃ tokens, call.outputTokens state = .ok tokens state) ↔ CanCount call state := by
  unfold outputTokens CanCount
  rw [← SseBuilder.estimateOutputTokens_eq_ok_iff]
  simp only [get_bind_eq_ok]
  cases state.usage.bind ChatUsage.completionTokens with
  | some completion => exact iff_of_true ⟨completion, rfl⟩ nofun
  | none =>
    dsimp only
    simp only [raising_eq_ok, and_true, forall_const]

/-- The builder behind its blocks' end, with what it pushed. -/
theorem closing_eq (state : ChatState) : ∃ closed : ChatState,
    call.write SseBuilder.closeAllBlocks state = .ok () closed ∧
      ChatMoves state closed (SseBuilder.closeAllBlocks state.sse).1 ∧
      (CanCount call closed ↔ CanCount call state) := by
  refine ⟨_, write_eq _ _, ?_⟩
  obtain ⟨moves, sse, -⟩ := @pushAll_moves call (SseBuilder.closeAllBlocks state.sse).1
    { state with sse := (SseBuilder.closeAllBlocks state.sse).2 }
  refine ⟨⟨moves.pushes, moves.reading⟩, ?_⟩
  have usage : ∀ (events : List SseEvent) (now : ChatState),
      (events.foldl call.pushEvent now).usage = now.usage := by
    intro events
    induction events with
    | nil => exact fun _ => rfl
    | cons event rest ih => exact fun now => ih (call.pushEvent now event)
  unfold CanCount SseBuilder.Countable
  rw [usage, sse, SseBuilder.closeAllBlocks_eq]
  rfl

/-- What the steps behind a complete response need of the variables before them: the flush that the
waiting Task arguments can be read, the count that no special token stands in what it counts. -/
structure FinishesSafely (call : OpenaiCall) (ended : ChatState) : Prop where
  readable : ∀ flushed, call.flushContent ended = .ok () flushed → TaskArgsReadable call flushed
  countable : ∀ settled,
    (do call.flushContent; call.flushTaskArgBuffers : Chat Unit) ended = .ok () settled →
      CanCount call settled

/-- **A response that is finished** is well formed. -/
theorem wellFormed_of_finish (kept : Kept call state) (ran : call.finish state = .ok () next) :
    WellFormedStream (call.newSseBuilder.messageStart :: next.yielded) := by
  unfold finish at ran
  obtain ⟨⟨⟩, flushed, flushedContent, flushedRan⟩ := bind_eq_ok.mp ran
  obtain ⟨⟨⟩, settled, flushedTask, settledRan⟩ := bind_eq_ok.mp flushedRan
  obtain ⟨⟨⟩, closed, wrote, closedRan⟩ := bind_eq_ok.mp settledRan
  obtain ⟨outputTokens, counted, estimated, countedRan⟩ := bind_eq_ok.mp closedRan
  obtain rfl := state_of_outputTokens estimated
  have keptFlushed := returns_flushContent.of_ok kept flushedContent
  obtain ⟨_, again, keptSettled⟩ := flushed_of_readable keptFlushed (readable_of_flushed flushedTask)
  cases flushedTask.symm.trans again
  obtain ⟨out, nest, outgoing, written⟩ := keptSettled.written
  obtain ⟨_, wroteAgain, moves, -⟩ := @closing_eq call settled
  cases wrote.symm.trans wroteAgain
  rw [get_bind_eq_ok] at countedRan
  obtain ⟨⟨⟩, delta, heldDelta, deltaRan⟩ := bind_eq_ok.mp countedRan
  obtain ⟨⟨⟩, stop, heldStop, lastRan⟩ := bind_eq_ok.mp deltaRan
  obtain ⟨movesDelta, -⟩ := @pushAll_moves call
    [counted.sse.messageDelta (mapStopReason counted.finishReason) outputTokens] counted
  obtain ⟨movesStop, -⟩ := @pushAll_moves call [SseBuilder.messageStop] delta
  cases heldDelta
  cases heldStop
  cases lastRan
  have pushed := (movesDelta.trans movesStop).pushes _ (moves.pushes _ outgoing)
  dsimp only
  rw [pushed.flushed]
  exact (closedContent written).wellFormed _ _ _ _

/-- **A complete response is finished** just when its steps are safe. -/
theorem finish_returns_iff (kept : Kept call state) :
    (∃ next, call.finish state = .ok () next) ↔ FinishesSafely call state := by
  obtain ⟨⟨⟩, flushed, flushedContent, keptFlushed⟩ := returns_flushContent.exists_ok kept
  constructor
  · rintro ⟨next, ran⟩
    unfold finish at ran
    obtain ⟨⟨⟩, _, again, ran⟩ := bind_eq_ok.mp ran
    cases flushedContent.symm.trans again
    obtain ⟨⟨⟩, settled, flushedTask, ran⟩ := bind_eq_ok.mp ran
    obtain ⟨⟨⟩, closed, wrote, ran⟩ := bind_eq_ok.mp ran
    obtain ⟨outputTokens, counted, estimated, -⟩ := bind_eq_ok.mp ran
    refine ⟨fun other there => ?_, fun other there => ?_⟩
    · cases flushedContent.symm.trans there
      exact readable_of_flushed flushedTask
    · obtain ⟨⟨⟩, _, first, second⟩ := bind_eq_ok.mp there
      cases flushedContent.symm.trans first
      cases flushedTask.symm.trans second
      obtain ⟨_, wroteAgain, -, same⟩ := @closing_eq call settled
      cases wrote.symm.trans wroteAgain
      obtain rfl := state_of_outputTokens estimated
      exact same.mp (outputTokens_returns_iff.mp ⟨outputTokens, estimated⟩)
  · intro safe
    obtain ⟨settled, flushedTask, keptSettled⟩ :=
      flushed_of_readable keptFlushed (safe.readable flushed flushedContent)
    obtain ⟨closed, wrote, moves, same⟩ := @closing_eq call settled
    have able := safe.countable settled (bind_eq_ok.mpr ⟨(), flushed, flushedContent, flushedTask⟩)
    obtain ⟨tokens, counts⟩ := outputTokens_returns_iff.mpr (same.mpr able)
    refine ⟨_, bind_eq_ok.mpr ⟨(), flushed, flushedContent, bind_eq_ok.mpr ⟨(), settled, flushedTask,
      bind_eq_ok.mpr ⟨(), closed, wrote, bind_eq_ok.mpr ⟨tokens, closed, counts, rfl⟩⟩⟩⟩⟩

/-! ### Recovery -/

/-- Recovery has made these events; none of them was sent, and no call was started or closed. -/
structure Prepared (base next : ChatState) (events : List SseEvent) : Prop where
  yielded : next.yielded = base.yielded
  holdback : next.holdback = base.holdback
  continues : ∀ nest, InStep nest base.sse.writer → ∃ after, Continues nest base.sse events after next.sse
  tools : ∀ index, next.sse.writer.block (.tool index) = base.sse.writer.block (.tool index)

/-- Nothing was sent, and no block was opened or closed. -/
structure Unsent (base next : ChatState) : Prop where
  yielded : next.yielded = base.yielded
  holdback : next.holdback = base.holdback
  writer : next.sse.writer = base.sse.writer

theorem Unsent.refl (base : ChatState) : Unsent base base := ⟨rfl, rfl, rfl⟩

theorem Unsent.prepared {base : ChatState} (unsent : Unsent base next) : Prepared base next [] :=
  ⟨unsent.yielded, unsent.holdback,
    fun nest inStep => ⟨nest, Continues.nothing inStep unsent.writer⟩,
    fun index => congrArg (fun writer => writer.block (.tool index)) unsent.writer⟩

theorem Prepared.refl (base : ChatState) : Prepared base base [] := (Unsent.refl base).prepared

theorem Prepared.trans {base : ChatState} {first second : List SseEvent}
    (before : Prepared base state first) (later : Prepared state next second) :
    Prepared base next (first ++ second) := by
  refine ⟨later.yielded.trans before.yielded, later.holdback.trans before.holdback, fun nest inStep => ?_,
    fun index => (later.tools index).trans (before.tools index)⟩
  obtain ⟨middle, written⟩ := before.continues nest inStep
  obtain ⟨after, further⟩ := later.continues middle written.inStep
  exact ⟨after, written.append further⟩

section Repair

variable {base : ChatState}

theorem unsent_requesting {α : Type} (ask : Nat → Except UpstreamError α × Nat) :
    Keeps (Unsent base) (requesting ask) := by
  intro state unsent
  unfold requesting
  rcases ask state.requests with ⟨_ | _, requests⟩
  · exact ⟨unsent.yielded, unsent.holdback, unsent.writer⟩
  · exact ⟨unsent.yielded, unsent.holdback, unsent.writer⟩

theorem keeps_raising {α : Type} {holds : ChatState → Prop} (result : Except PyError α) :
    Keeps holds (raising result) := by
  cases result with
  | error error => exact Keeps.throw _
  | ok value => exact Keeps.pure _

theorem unsent_askForRepair (toolName pre : String) (recoveryBody : Body) (attempts : Nat) :
    Keeps (Unsent base) (call.askForRepair toolName pre recoveryBody attempts) := by
  induction attempts with
  | zero => exact Keeps.pure _
  | succ attempts ih =>
    unfold askForRepair
    refine Keeps.bind (unsent_requesting _) fun texts => Keeps.bind (keeps_raising _) fun repair => ?_
    cases repair with
    | some accepted => exact Keeps.pure _
    | none => exact ih

theorem unsent_missingArgs (tool : ToolCallState) (aliasBuffer : Option String) :
    Keeps (Unsent base) (call.missingArgs tool aliasBuffer) := by
  unfold missingArgs
  refine Keeps.bind (keeps_raising _) fun parsed => ?_
  cases parsed with
  | some fields => exact Keeps.pure _
  | none =>
    refine Keeps.get fun state unsent => Keeps.at_ (Keeps.bind (unsent_askForRepair _ _ _ _) ?_) unsent
    intro accepted
    cases accepted <;> exact Keeps.pure _

/-- **The rest of a started call's arguments.** -/
theorem repairDelta_prepares {index : Int} (started : base.sse.Started index) (missing : String) :
    Ensures (Unsent base) (repairDelta index missing)
      (fun events next => Unsent base next ∧ ∀ nest, InStep nest base.sse.writer →
        Continues nest base.sse events nest next.sse)
      (fun _ => Unsent base) := by
  intro state unsent
  unfold repairDelta
  split_ifs with empty
  · exact ⟨unsent, fun nest inStep => Continues.nothing inStep unsent.writer⟩
  · obtain ⟨tool, found, isStarted⟩ := started.of_writer unsent.writer
    rw [toolDelta_eq found]
    have same := (emitToolDelta_relabels found missing).writer
    refine ⟨⟨unsent.yielded, unsent.holdback, same.trans unsent.writer⟩, fun nest inStep => ?_⟩
    have delta := SseBuilder.emitToolDelta_continues (unsent.writer ▸ inStep) found isStarted missing
    exact delta.moved (congrArg BlockWriter.next unsent.writer).symm

/-- **The repair of the started calls**: a delta for each, or nothing at all. -/
theorem repairOpenaiToolArgs_prepares {tools : List (Int × ToolCallState)}
    (started : ∀ entry ∈ tools, base.sse.Started entry.1) :
    Ensures (Unsent base) (call.repairOpenaiToolArgs tools)
      (fun result next => Unsent base next ∧ ∀ events, result = some events →
        ∀ nest, InStep nest base.sse.writer → Continues nest base.sse events nest next.sse)
      (fun _ => Unsent base) := by
  induction tools with
  | nil =>
    unfold repairOpenaiToolArgs
    refine Ensures.get fun state unsent => ?_
    refine @Ensures.bind _ _ _ _ _ _ (fun _ => Unsent base) _ _ _
      (Keeps.at_ (keeps_raising _) unsent) fun complete => ?_
    split
    · refine Ensures.pure fun next here => ⟨here, fun events same nest inStep => ?_⟩
      cases same
      exact Continues.nothing inStep here.writer
    · exact Ensures.pure fun next here => ⟨here, nofun⟩
  | cons entry rest ih =>
    obtain ⟨index, tool⟩ := entry
    have further := ih fun other inside => started other (List.mem_cons_of_mem _ inside)
    unfold repairOpenaiToolArgs
    refine Ensures.get fun state unsent => ?_
    refine @Ensures.bind _ _ _ _ _ _ (fun _ => Unsent base) _ _ _
      (Keeps.at_ (unsent_missingArgs _ _) unsent) fun missing => ?_
    cases missing with
    | none => exact Ensures.pure fun next here => ⟨here, nofun⟩
    | some missing =>
      dsimp only
      refine Ensures.bind (repairDelta_prepares (started _ List.mem_cons_self) missing) fun events => ?_
      rintro middle ⟨here, first⟩
      refine (Ensures.bind further fun later => ?_) middle here
      cases later with
      | none => exact Ensures.pure fun next last => ⟨last.1, nofun⟩
      | some later =>
        refine Ensures.pure fun next last => ⟨last.1, fun all same nest inStep => ?_⟩
        cases same
        exact (first nest inStep).append
          ((last.2 later rfl nest inStep).moved (congrArg BlockWriter.next here.writer))

/-- One suffix of a text, in its block. -/
theorem continued_prepares {emit : String → Emit} (continuing : ∀ text, (emit text).Continuing)
    (spares : ∀ text, SparesTools (emit text)) (suffix : Option String) (state : ChatState) :
    ∃ events next, continued emit suffix state = .ok events next ∧ Prepared state next events := by
  unfold continued
  split_ifs
  · exact ⟨[], state, rfl, Prepared.refl state⟩
  · refine ⟨_, _, rfl, rfl, rfl, fun nest inStep => continuing _ nest state.sse inStep, fun index => ?_⟩
    rw [SseBuilder.block_tool, SseBuilder.block_tool, spares]

/-- The events that recovery would send. -/
def preparedEvents (result : Option (List SseEvent × String)) : List SseEvent :=
  (result.map Prod.fst).getD []

theorem continuedEvents_prepares (text thinking : String) (state : ChatState) :
    ∃ result next, continuedEvents text thinking state = .ok result next ∧
      Prepared state next (preparedEvents result) := by
  obtain ⟨first, middle, thought, before⟩ := continued_prepares SseBuilder.thinking_continuing
    thinking_spares (continuationSuffix state.sse.accumulatedReasoning thinking) state
  obtain ⟨second, last, told, later⟩ := continued_prepares SseBuilder.text_continuing
    text_spares (continuationSuffix state.sse.accumulatedText text) middle
  have all := before.trans later
  by_cases empty : first ++ second = []
  · have nothing : Prepared state last [] := empty ▸ all
    refine ⟨none, last, ?_, nothing⟩
    unfold continuedEvents
    rw [get_bind_eq_ok]
    refine bind_eq_ok.mpr ⟨first, middle, thought, bind_eq_ok.mpr ⟨second, last, told, ?_⟩⟩
    rw [if_pos empty]
    rfl
  · refine ⟨some (first ++ second, "end_turn"), last, ?_, all⟩
    unfold continuedEvents
    rw [get_bind_eq_ok]
    refine bind_eq_ok.mpr ⟨first, middle, thought, bind_eq_ok.mpr ⟨second, last, told, ?_⟩⟩
    rw [if_neg empty]
    rfl

end Repair

/-- The started calls of a builder are started. -/
theorem started_of_mem {entry : Int × ToolCallState} (member : entry ∈ sse.startedToolStates) :
    sse.Started entry.1 := by
  obtain ⟨inside, started⟩ := List.mem_filter.mp member
  exact ⟨entry.2, (Dict.mem_entries_iff _).mp inside, started⟩

/-- **What recovery does** before it ends the message. -/
theorem preparedRecovery_prepares (error : UpstreamError) (state : ChatState) :
    Ensures (fun now => now = state) (call.preparedRecovery error)
      (fun result next => Prepared state next (preparedEvents result))
      (fun _ next => Prepared state next []) := by
  have nothing : Ensures (fun now => now = state)
      (pure none : Chat (Option (List SseEvent × String)))
      (fun result next => Prepared state next (preparedEvents result))
      (fun _ next => Prepared state next []) := Ensures.pure fun next here => here ▸ Prepared.refl state
  have asks : ∀ {α : Type} (result : Except PyError α), Ensures (fun now => now = state)
      (raising result) (fun _ now => now = state) (fun _ next => Prepared state next []) :=
    fun result => (keeps_raising result).weaken (fun _ _ here => here)
      fun _ _ here => here ▸ Prepared.refl state
  unfold preparedRecovery
  refine Ensures.get fun now same => ?_
  subst same
  refine Ensures.ite nothing (Ensures.ite ?_ (Ensures.ite nothing ?_))
  · refine Ensures.bind (asks _) fun complete => Ensures.ite ?_ ?_
    · exact Ensures.pure fun next here => here ▸ Prepared.refl now
    · refine Ensures.bind ((Ensures.at_ (repairOpenaiToolArgs_prepares fun entry member =>
        started_of_mem member) (Unsent.refl now)).weaken (fun _ _ after => after)
        fun _ _ unsent => unsent.prepared) fun repaired => ?_
      cases repaired with
      | none => exact Ensures.pure fun next here => here.1.prepared
      | some events =>
        refine Ensures.pure fun next here => ⟨here.1.yielded, here.1.holdback, fun nest inStep => ?_, ?_⟩
        · exact ⟨nest, here.2 events rfl nest inStep⟩
        · exact here.1.prepared.tools
  · refine Ensures.bind ((Ensures.at_ (unsent_requesting _) (Unsent.refl now)).weaken
      (fun _ _ after => after) fun _ _ unsent => unsent.prepared) fun texts => ?_
    intro middle unsent
    obtain ⟨result, next, ran, prepared⟩ := continuedEvents_prepares texts.1 texts.2 middle
    dsimp only
    rw [ran]
    exact unsent.prepared.trans prepared

/-- **The end of a recovered message** raises just when its tokens cannot be counted; its blocks are
closed either way. -/
theorem endMessage_cases (stopReason : String) (state : ChatState) :
    let closed := { state with sse := (SseBuilder.closeAllBlocks state.sse).2 }
    (state.sse.Countable call.encoder → ∃ outputTokens, call.endMessage stopReason state =
      .ok ((SseBuilder.closeAllBlocks state.sse).1 ++
        [closed.sse.messageDelta stopReason outputTokens, SseBuilder.messageStop]) closed) ∧
    (¬ state.sse.Countable call.encoder →
      ∃ error, call.endMessage stopReason state = .error error closed) := by
  intro closed
  have same : closed.sse.Countable call.encoder ↔ state.sse.Countable call.encoder := by
    show (SseBuilder.closeAllBlocks state.sse).2.Countable call.encoder ↔ _
    rw [SseBuilder.closeAllBlocks_eq]
    rfl
  have program : call.endMessage stopReason state =
      (do
        let outputTokens ← raising (closed.sse.estimateOutputTokens call.encoder)
        pure ((SseBuilder.closeAllBlocks state.sse).1 ++
          [closed.sse.messageDelta stopReason outputTokens, SseBuilder.messageStop]) :
        Chat (List SseEvent)) closed := rfl
  rw [← same, ← SseBuilder.estimateOutputTokens_eq_ok_iff, program]
  cases closed.sse.estimateOutputTokens call.encoder with
  | ok tokens => exact ⟨fun _ => ⟨tokens, rfl⟩, fun never => absurd ⟨tokens, rfl⟩ never⟩
  | error error => exact ⟨(by rintro ⟨_, ⟨⟩⟩), fun _ => ⟨_, rfl⟩⟩

/-! ### The handler -/

/-- The builder with what recovery has added to it, where recovery comes to the end of the message. -/
def recovered (call : OpenaiCall) (error : UpstreamError) (failed : ChatState) : Option SseBuilder :=
  if hasCommittedSseOutput failed.sse && isRetryableStreamError error then
    match call.preparedRecovery error failed with
    | .ok (some _) next => some next.sse
    | _ => none
  else none

section Handler

variable {error : UpstreamError} {failed : ChatState}

/-- Recovery that gives up, or is not tried. -/
theorem recovers_nothing (nothing : call.recovered error failed = none) :
    ∃ left, Prepared failed left [] ∧ call.recoverOrFail error failed = call.errorExit error left := by
  unfold recovered at nothing
  unfold recoverOrFail
  split_ifs at nothing ⊢ with tried
  · have prepares := @preparedRecovery_prepares call error failed failed rfl
    rcases ran : call.preparedRecovery error failed with ⟨_ | prepared, left⟩ | ⟨raised, left⟩
    · rw [ran] at prepares
      refine ⟨left, prepares, ?_⟩
      unfold recoveryEvents
      rw [bind_of_ok ran]
      rfl
    · rw [ran] at nothing
      cases nothing
    · rw [ran] at prepares
      refine ⟨left, prepares, ?_⟩
      unfold recoveryEvents
      rw [bind_of_error ran]
  · exact ⟨failed, Prepared.refl failed, rfl⟩

/-- Recovery that comes to the end of the message. -/
theorem recovers_some (some_ : call.recovered error failed = some sse) :
    ∃ middle events, middle.sse = sse ∧ Prepared failed middle events ∧
      (sse.Countable call.encoder → ∃ stopReason outputTokens next,
        call.recoverOrFail error failed = .ok () next ∧
        next.yielded = middle.yielded ++ middle.holdback.flush.1 ++
          (events ++ ((SseBuilder.closeAllBlocks sse).1 ++
            [(SseBuilder.closeAllBlocks sse).2.messageDelta stopReason outputTokens,
              SseBuilder.messageStop]))) ∧
      (¬ sse.Countable call.encoder → call.recoverOrFail error failed =
        call.errorExit error { middle with sse := (SseBuilder.closeAllBlocks sse).2 }) := by
  unfold recovered at some_
  unfold recoverOrFail
  split_ifs at some_ ⊢ with tried
  have prepares := @preparedRecovery_prepares call error failed failed rfl
  rcases ran : call.preparedRecovery error failed with ⟨_ | ⟨events, stopReason⟩, middle⟩ | ⟨raised, left⟩
  · rw [ran] at some_
    cases some_
  · rw [ran] at some_ prepares
    obtain rfl := Option.some.inj some_
    obtain ⟨counts, raises⟩ := @endMessage_cases call stopReason middle
    refine ⟨middle, events, rfl, prepares, fun countable => ?_, fun uncountable => ?_⟩
    · obtain ⟨outputTokens, ends⟩ := counts countable
      refine ⟨stopReason, outputTokens, ?_⟩
      unfold recoveryEvents
      rw [bind_of_ok ran]
      dsimp only
      rw [bind_of_ok ends]
      exact ⟨_, rfl, rfl⟩
    · obtain ⟨raised, ends⟩ := raises uncountable
      unfold recoveryEvents
      rw [bind_of_ok ran]
      dsimp only
      rw [bind_of_error ends]
  · rw [ran] at some_
    cases some_

theorem errorExit_of_message {message : String} (known : call.errorMessage error = .ok message)
    (state : ChatState) : call.errorExit error state = .ok () { state with
      yielded := state.yielded ++ (openaiErrorExit call.newSseBuilder state.sse state.holdback
        message).map ProviderChunk.event } := by
  unfold errorExit
  rw [known]
  rfl

theorem errorExit_raises {raised : PyError} (unknown : call.errorMessage error = .error raised)
    (state : ChatState) : call.errorExit error state = .error (.python raised) state := by
  unfold errorExit
  rw [unknown]
  rfl

/-- **What the error exit yields**: an error tail behind all that was written, or a message of its own
where nothing was. -/
theorem errorExit_yields {left : ChatState} (outgoing : Outgoing left.yielded left.holdback out)
    (message : String) :
    let events := left.yielded ++ (openaiErrorExit call.newSseBuilder left.sse left.holdback
      message).map ProviderChunk.event
    events = out ++ (emitOpenaiErrorTail message left.sse).1 ∨
      (out = [] ∧ events = (emitOpenaiErrorTail message call.newSseBuilder).1) := by
  unfold openaiErrorExit
  cases committed : left.holdback.committed with
  | true =>
    left
    have all := outgoing.flushed
    have kept : left.holdback.flush.1 = [] := by
      rw [RecoveryHoldbackBuffer.flush, if_pos committed]
    rw [kept, List.append_nil] at all
    simp only [Bool.not_true, Bool.false_and, Bool.false_eq_true, if_false, inErrorTail_events, all]
  | false =>
    cases buffered : left.holdback.hasBuffered with
    | true =>
      left
      simp only [Bool.not_false, Bool.and_self, if_true, List.map_append, ordinary_events,
        inErrorTail_events, ← List.append_assoc, outgoing.flushed]
    | false =>
      right
      obtain ⟨nothing, empty⟩ := outgoing.nothing committed buffered
      simp only [Bool.not_false, Bool.and_false, Bool.false_eq_true, if_false, if_true, nothing,
        List.nil_append, inErrorTail_events, empty, and_self]

/-- **The error exit** behind what the client has read. -/
theorem errorExit_wellFormed {left : ChatState} {message : String}
    (known : call.errorMessage error = .ok message)
    (outgoing : Outgoing left.yielded left.holdback out)
    (written : Continues Nest.empty call.newSseBuilder out nest left.sse) :
    ∃ next, call.errorExit error left = .ok () next ∧
      WellFormedStream (call.newSseBuilder.messageStart :: next.yielded) := by
  refine ⟨_, errorExit_of_message known left, ?_⟩
  rcases errorExit_yields outgoing message with all | ⟨-, fresh⟩
  · show WellFormedStream (call.newSseBuilder.messageStart :: (left.yielded ++ _))
    rw [all]
    exact wellFormed_errorTail written message
  · show WellFormedStream (call.newSseBuilder.messageStart :: (left.yielded ++ _))
    rw [fresh]
    exact wellFormed_errorTail (Continues.nothing call.newSseBuilder_inStep rfl) message

/-- The error tail stops the blocks of the calls, and its own. -/
theorem stop_notMem_errorTail {index : Int} (unowned : ∀ owner, sse.writer.block owner ≠ some index)
    (below : index < sse.blocks.nextIndex) (message : String) :
    Mark.stop index ∉ marks (emitOpenaiErrorTail message sse).1 := by
  have closes : Mark.stop index ∉ marks (SseBuilder.closeAllBlocks sse).1 := by
    rw [SseBuilder.closeAllBlocks_events, marks_stops]
    intro member
    obtain ⟨other, inside, same⟩ := List.mem_map.mp member
    obtain ⟨owner, -, here⟩ := List.mem_filterMap.mp inside
    exact unowned owner (Mark.stop.inj same ▸ here)
  unfold emitOpenaiErrorTail Emit.followedBy
  dsimp only
  rw [marks_append, marks_append, List.mem_append, List.mem_append, not_or, not_or]
  refine ⟨⟨closes, ?_⟩, ?_⟩
  · have next : (SseBuilder.closeAllBlocks sse).2.blocks.nextIndex = sse.blocks.nextIndex := by
      rw [SseBuilder.closeAllBlocks_eq]
    split_ifs
    · exact List.not_mem_nil
    · show Mark.stop index ∉ [Mark.start _, Mark.delta _, Mark.stop _]
      rw [next]
      simp only [List.mem_cons, reduceCtorEq, Mark.stop.injEq, List.not_mem_nil, or_false, false_or]
      exact ne_of_lt below
  · exact List.not_mem_nil

variable {middle : ChatState} {events : List SseEvent}

/-- **Recovery that fails at the count** is harmless where neither text nor thinking was open. -/
theorem uncounted_continues (written : Continues Nest.empty call.newSseBuilder out nest failed.sse)
    (prepared : Prepared failed middle events) (settled : failed.sse.Settled) :
    Continues Nest.empty call.newSseBuilder out nest (SseBuilder.closeAllBlocks middle.sse).2 := by
  obtain ⟨noText, noThinking⟩ := SseBuilder.settled_iff.mp settled
  obtain ⟨after, further⟩ := prepared.continues nest written.inStep
  have upward : failed.sse.blocks.nextIndex ≤
      (SseBuilder.closeAllBlocks middle.sse).2.blocks.nextIndex := by
    rw [SseBuilder.closeAllBlocks_eq]
    exact further.ascends.upward
  have block : (SseBuilder.closeAllBlocks middle.sse).2.writer.block = failed.sse.writer.block := by
    funext owner
    rw [SseBuilder.closeAllBlocks_eq]
    cases owner with
    | thinking => exact noThinking.symm
    | text => exact noText.symm
    | tool index => exact prepared.tools index
  refine ⟨written.reads, ⟨?_, ?_, ?_⟩, ?_, written.content⟩
  · rw [block]
    exact written.inStep.opened
  · exact fun index seen => lt_of_lt_of_le (written.inStep.below index seen) upward
  · rw [block]
    exact written.inStep.apart
  · have all := written.ascends.append (Ascends.nil upward)
    rwa [List.append_nil] at all

/-- **Where text or thinking was open**, its stop is lost. -/
theorem uncounted_illFormed {message : String}
    (outgoing : Outgoing failed.yielded failed.holdback out)
    (written : Continues Nest.empty call.newSseBuilder out nest failed.sse)
    (prepared : Prepared failed middle events) (unsettled : ¬ failed.sse.Settled)
    (known : call.errorMessage error = .ok message) {next : ChatState}
    (ran : call.errorExit error { middle with sse := (SseBuilder.closeAllBlocks middle.sse).2 } =
      .ok () next) :
    ¬ WellFormedStream (call.newSseBuilder.messageStart :: next.yielded) := by
  set left : ChatState := { middle with sse := (SseBuilder.closeAllBlocks middle.sse).2 } with isLeft
  have unsent : Outgoing left.yielded left.holdback out := by
    rw [isLeft]
    dsimp only
    rw [prepared.yielded, prepared.holdback]
    exact outgoing
  obtain ⟨owner, index, apart, here⟩ : ∃ owner index, (∀ toolIndex, owner ≠ .tool toolIndex) ∧
      failed.sse.writer.block owner = some index := by
    rw [SseBuilder.settled_iff, not_and_or, ← Ne, ← Ne, Option.ne_none_iff_exists',
      Option.ne_none_iff_exists'] at unsettled
    rcases unsettled with ⟨index, text⟩ | ⟨index, thinking⟩
    · exact ⟨.text, index, nofun, text⟩
    · exact ⟨.thinking, index, nofun, thinking⟩
  have isOpen := written.inStep.isOpen here
  obtain ⟨after, further⟩ := prepared.continues nest written.inStep
  have below : index < left.sse.blocks.nextIndex := by
    have upward := further.ascends.upward
    have low := written.inStep.block_lt here
    rw [isLeft]
    dsimp only
    rw [SseBuilder.closeAllBlocks_eq]
    exact lt_of_lt_of_le low upward
  have unowned : ∀ other, left.sse.writer.block other ≠ some index := by
    intro other there
    obtain ⟨toolIndex, -, tool⟩ := SseBuilder.writer_closeAllBlocks there
    rw [prepared.tools] at tool
    exact apart toolIndex (written.inStep.apart _ _ _ here tool)
  rw [errorExit_of_message known left] at ran
  cases ran
  rintro ⟨nested, -, -⟩
  obtain ⟨last, reads, empty⟩ := wellNested_iff.mp nested
  obtain ⟨first, begins, rest⟩ := reads.uncons
  have started : Reads Nest.empty [call.newSseBuilder.messageStart] Nest.empty :=
    Reads.others fun event member => by rw [List.mem_singleton.mp member]; rfl
  obtain rfl := begins.unique started
  rcases @errorExit_yields call out left unsent message with all | ⟨nothing, -⟩
  · dsimp only at rest all
    rw [all] at rest
    obtain ⟨behind, before, later⟩ := rest.split
    obtain rfl := before.unique written.reads
    have still := Nest.opened_of_run later.accepted isOpen (stop_notMem_errorTail unowned below message)
    rw [empty] at still
    exact Finset.notMem_empty _ still
  · have reads := written.reads
    rw [nothing] at reads
    rw [Reads.nil_iff.mp reads] at isOpen
    exact Finset.notMem_empty _ isOpen

end Handler

/-- What the handler needs of the variables that an attempt left: the complete calls can be told, and
either recovery ends a message whose tokens can be counted, or the error can be told, and no text and
no thinking is open when recovery fails at the count. -/
structure HandlesSafely (call : OpenaiCall) (error : UpstreamError) (failed : ChatState) : Prop where
  asked : ∃ salvageable, call.completeToolSalvageable failed.sse = .ok salvageable
  handled : (∃ sse, call.recovered error failed = some sse ∧ sse.Countable call.encoder) ∨
    ((∃ message, call.errorMessage error = .ok message) ∧
      (call.recovered error failed = none ∨ failed.sse.Settled))

/-- **The handler ends a well-formed message** just when its steps are safe. -/
theorem handle_wellFormed_iff {error : UpstreamError} {failed : ChatState}
    (kept : Kept call failed) :
    (∃ next, call.handle error failed = .ok () next ∧
        WellFormedStream (call.newSseBuilder.messageStart :: next.yielded)) ↔
      HandlesSafely call error failed := by
  obtain ⟨out, nest, outgoing, written⟩ := kept.written
  have unsent : ∀ {left : ChatState}, left.yielded = failed.yielded →
      left.holdback = failed.holdback → Outgoing left.yielded left.holdback out := by
    intro left yielded holdback
    rw [yielded, holdback]
    exact outgoing
  unfold handle
  cases asked : call.completeToolSalvageable failed.sse with
  | error raised =>
    refine iff_of_false (by rintro ⟨_, ⟨⟩, _⟩) fun safe => ?_
    obtain ⟨_, told⟩ := safe.asked
    cases asked.symm.trans told
  | ok salvageable =>
    dsimp only
    cases recovery : call.recovered error failed with
    | none =>
      obtain ⟨left, prepared, exits⟩ := recovers_nothing recovery
      obtain ⟨after, further⟩ := prepared.continues nest written.inStep
      have written' := written.append further
      rw [List.append_nil] at written'
      rw [exits]
      cases known : call.errorMessage error with
      | error raised =>
        rw [errorExit_raises known]
        refine iff_of_false (by rintro ⟨_, ⟨⟩, _⟩) fun safe => ?_
        rcases safe.handled with ⟨_, some_, -⟩ | ⟨⟨_, told⟩, -⟩
        · cases recovery.symm.trans some_
        · cases known.symm.trans told
      | ok message =>
        exact iff_of_true (errorExit_wellFormed known (unsent prepared.yielded prepared.holdback) written')
          ⟨⟨_, asked⟩, Or.inr ⟨⟨message, known⟩, Or.inl recovery⟩⟩
    | some sse =>
      obtain ⟨middle, events, rfl, prepared, counted, uncounted⟩ := recovers_some recovery
      by_cases countable : middle.sse.Countable call.encoder
      · obtain ⟨stopReason, outputTokens, next, ran, yielded⟩ := counted countable
        obtain ⟨after, further⟩ := prepared.continues nest written.inStep
        have closed := closedContent (written.append further)
        refine iff_of_true ⟨next, ran, ?_⟩ ⟨⟨_, asked⟩, Or.inl ⟨_, recovery, countable⟩⟩
        rw [yielded, (unsent prepared.yielded prepared.holdback).flushed, ← List.append_assoc,
          ← List.append_assoc]
        exact closed.wellFormed _ _ _ _
      · rw [uncounted countable]
        have other : ∀ safe : HandlesSafely call error failed,
            (∃ message, call.errorMessage error = .ok message) ∧ failed.sse.Settled := by
          intro safe
          rcases safe.handled with ⟨_, some_, counts⟩ | ⟨told, nothing | settled⟩
          · cases recovery.symm.trans some_
            exact absurd counts countable
          · cases recovery.symm.trans nothing
          · exact ⟨told, settled⟩
        cases known : call.errorMessage error with
        | error raised =>
          rw [errorExit_raises known]
          refine iff_of_false (by rintro ⟨_, ⟨⟩, _⟩) fun safe => ?_
          obtain ⟨⟨_, told⟩, -⟩ := other safe
          cases known.symm.trans told
        | ok message =>
          by_cases settled : failed.sse.Settled
          · refine iff_of_true (errorExit_wellFormed known
              (unsent prepared.yielded prepared.holdback)
              (uncounted_continues written prepared settled)) ?_
            exact ⟨⟨_, asked⟩, Or.inr ⟨⟨message, known⟩, Or.inr settled⟩⟩
          · refine iff_of_false ?_ fun safe => settled (other safe).2
            rintro ⟨next, ran, wellFormed⟩
            exact uncounted_illFormed outgoing written prepared settled known ran wellFormed

/-! ### The whole call -/

/-- What the steps outside the `try` need behind the last attempt. -/
def StepsSafely (call : OpenaiCall) : Option UpstreamError × ChatState → Prop
  | (none, ended) => FinishesSafely call ended
  | (some error, failed) => HandlesSafely call error failed

/-- **The stream is well formed and nothing is raised** just when the steps outside the `try` are safe
behind the last attempt. -/
theorem wellFormed_iff (call : OpenaiCall) :
    (call.streamResponse.2 = none ∧ WellFormedStream call.streamResponse.1) ↔
      StepsSafely call (call.lastAttempt earlyTransparentMaxRetries call.initialState) := by
  have kept := @kept_lastAttempt call _ earlyTransparentMaxRetries 0 (begun_initialState call)
  have result : (call.streamResponse.2 = none ∧ WellFormedStream call.streamResponse.1) ↔
      ∃ next, call.behind (call.lastAttempt earlyTransparentMaxRetries call.initialState) =
        .ok () next ∧ WellFormedStream (call.newSseBuilder.messageStart :: next.yielded) := by
    unfold streamResponse
    rw [streamFrom_eq]
    cases call.behind (call.lastAttempt earlyTransparentMaxRetries call.initialState) with
    | ok value next => exact ⟨fun here => ⟨next, rfl, here.2⟩, by rintro ⟨_, ⟨⟩, here⟩; exact ⟨rfl, here⟩⟩
    | error error next => exact iff_of_false (by rintro ⟨⟨⟩, _⟩) (by rintro ⟨_, ⟨⟩, _⟩)
  rw [result]
  revert kept
  rcases call.lastAttempt earlyTransparentMaxRetries call.initialState with ⟨_ | error, last⟩
  · intro kept
    show (∃ next, call.finish last = .ok () next ∧ _) ↔ FinishesSafely call last
    rw [← finish_returns_iff kept]
    exact ⟨fun ⟨next, ran, _⟩ => ⟨next, ran⟩, fun ⟨next, ran⟩ => ⟨next, ran, wellFormed_of_finish kept ran⟩⟩
  · exact fun kept => handle_wellFormed_iff kept

/-- The upstream thinks aloud about a special token of the tokenizer, and reports no usage. -/
def specialThought : OpenaiCall :=
  { scripted [⟨[⟨some { reasoningContent := some "<|endoftext|>" }, none⟩], none⟩,
      ⟨[⟨some {}, some "stop"⟩], none⟩] with
    encoder := some ⟨["<|endoftext|>"], fun _ => 1⟩ }

/-- The count refuses the token, behind the blocks: the message has no end. -/
theorem specialThought_raises :
    ¬ (specialThought.streamResponse.2 = none ∧ WellFormedStream specialThought.streamResponse.1) := by
  rintro ⟨nothing, -⟩
  have raised : specialThought.streamResponse.2.isSome = true := by decide +kernel
  rw [nothing] at raised
  cases raised

end OpenaiCall

end ClaudeProxy
