/-
**The chunk loop as a sequence of moves.**

* `toolStarts`, `blockView` — what a client is told of tool calls, altogether and of one block.
* `Besides` — a move that leaves the native calls alone; text-detected calls are whole blocks.
* **`Runs`** — such moves and tool-call deltas, in the order in which they happen.
* `ContentParsers` — the two parsers of the content, apart from the rest of the call.
* **`runs_of_readStream`** — what the chunk loop does with a stream that it reads to its end.
-/

import ClaudeProxy.Provider.OpenaiTools

namespace ClaudeProxy

open Json (getKey)
open RecoveryHoldbackBuffer (Outgoing)

/-! ### What a client is told of tool calls -/

/-- The event starts a tool call. -/
def SseEvent.startsToolUse (event : SseEvent) : Bool :=
  decide (event.event = "content_block_start") &&
    decide (getKey event.block "type" = .str "tool_use")

def toolStarts (events : List SseEvent) : List SseEvent := events.filter (·.startsToolUse)

@[simp] theorem toolStarts_append (first second : List SseEvent) :
    toolStarts (first ++ second) = toolStarts first ++ toolStarts second :=
  List.filter_append first second

/-- The event starts a tool call in that block, or extends its arguments. -/
def SseEvent.tells (block : Int) (event : SseEvent) : Bool :=
  event.startsToolUse && decide (event.mark? = some (.start block)) ||
    decide (event.deltaType = .str "input_json_delta") &&
      decide (event.mark? = some (.delta block))

def blockView (block : Int) (events : List SseEvent) : List SseEvent :=
  events.filter (·.tells block)

@[simp] theorem blockView_append (block : Int) (first second : List SseEvent) :
    blockView block (first ++ second) = blockView block first ++ blockView block second :=
  List.filter_append first second

theorem startsToolUse_toolStart (block : Int) (toolId : String) (tool : ToolCallState) :
    (OpenaiCall.toolStart block toolId tool).startsToolUse = true := by
  unfold OpenaiCall.toolStart SseBuilder.toolUseBlock
  rfl

theorem tells_toolStart (block other : Int) (toolId : String) (tool : ToolCallState) :
    (OpenaiCall.toolStart block toolId tool).tells other = decide (block = other) := by
  have started := startsToolUse_toolStart block toolId tool
  have mark : (OpenaiCall.toolStart block toolId tool).mark? = some (.start block) := rfl
  rw [SseEvent.tells, started, mark]
  by_cases same : block = other <;> simp [same]

theorem tells_inputDelta (block other : Int) (piece : String) :
    (inputDelta block piece).tells other = decide (block = other) := by
  have mark : (inputDelta block piece).mark? = some (.delta block) := rfl
  have input : (inputDelta block piece).deltaType = .str "input_json_delta" := rfl
  rw [SseEvent.tells, input, mark]
  by_cases same : block = other <;> simp [same]

theorem toolStarts_pieces (block : Int) (pieces : List String) :
    toolStarts (pieces.map (inputDelta block)) = [] := by
  refine List.filter_eq_nil_iff.mpr fun event member => ?_
  obtain ⟨piece, -, rfl⟩ := List.mem_map.mp member
  exact Bool.false_ne_true

theorem blockView_pieces (block : Int) (pieces : List String) :
    blockView block (pieces.map (inputDelta block)) = pieces.map (inputDelta block) := by
  refine List.filter_eq_self.mpr fun event member => ?_
  obtain ⟨piece, -, rfl⟩ := List.mem_map.mp member
  rw [tells_inputDelta, decide_eq_true rfl]

theorem blockView_pieces_ne {block other : Int} (away : block ≠ other) (pieces : List String) :
    blockView other (pieces.map (inputDelta block)) = [] := by
  refine List.filter_eq_nil_iff.mpr fun event member => ?_
  obtain ⟨piece, -, rfl⟩ := List.mem_map.mp member
  rw [tells_inputDelta, decide_eq_false away]
  exact Bool.false_ne_true

/-! ### Methods of the builder that leave the native calls alone -/

/-- The native calls stay, `detected` other calls are started, and only blocks are told of that are
opened here. -/
structure Emit.Besides (emit : Emit) (detected : Nat) : Prop where
  calls : ∀ sse, (emit sse).2.blocks.toolStates = sse.blocks.toolStates
  upward : ∀ sse, sse.blocks.nextIndex ≤ (emit sse).2.blocks.nextIndex
  starts : ∀ sse, (toolStarts (emit sse).1).length = detected
  view : ∀ sse block, block < sse.blocks.nextIndex ∨ (emit sse).2.blocks.nextIndex ≤ block →
    blockView block (emit sse).1 = []
  content : ∀ sse, ∀ event ∈ (emit sse).1, event.isMessageEvent = false

namespace Emit.Besides

variable {first second : Emit} {before after : Nat}

theorem followedBy (begins : first.Besides before) (continues : second.Besides after) :
    (first.followedBy second).Besides (before + after) where
  calls sse := (continues.calls _).trans (begins.calls sse)
  upward sse := (begins.upward sse).trans (continues.upward _)
  starts sse := by
    show (toolStarts ((first sse).1 ++ (second (first sse).2).1)).length = _
    rw [toolStarts_append, List.length_append, begins.starts, continues.starts]
  view sse block outside := by
    show blockView block ((first sse).1 ++ (second (first sse).2).1) = []
    have early : block < sse.blocks.nextIndex ∨ (first sse).2.blocks.nextIndex ≤ block :=
      outside.imp_right fun above => le_trans (continues.upward _) above
    have late : block < (first sse).2.blocks.nextIndex ∨
        (second (first sse).2).2.blocks.nextIndex ≤ block :=
      outside.imp_left fun below => lt_of_lt_of_le below (begins.upward sse)
    rw [blockView_append, begins.view sse block early, continues.view _ block late]
    rfl
  content sse event member := by
    rcases List.mem_append.mp member with isFirst | isSecond
    · exact begins.content sse event isFirst
    · exact continues.content _ event isSecond

/-- One of two ways. -/
theorem ite {condition : SseBuilder → Bool} (yes : first.Besides before)
    (no : second.Besides before) :
    Emit.Besides (fun sse => if condition sse then first sse else second sse) before where
  calls sse := by
    split_ifs
    · exact yes.calls sse
    · exact no.calls sse
  upward sse := by
    split_ifs
    · exact yes.upward sse
    · exact no.upward sse
  starts sse := by
    split_ifs
    · exact yes.starts sse
    · exact no.starts sse
  view sse block := by
    split_ifs
    · exact yes.view sse block
    · exact no.view sse block
  content sse := by
    split_ifs
    · exact yes.content sse
    · exact no.content sse

/-- A single event of a block that is no tool call. -/
theorem single {emit : Emit} (calls : ∀ sse, (emit sse).2.blocks.toolStates = sse.blocks.toolStates)
    (upward : ∀ sse, sse.blocks.nextIndex ≤ (emit sse).2.blocks.nextIndex)
    (event : SseBuilder → SseEvent) (only : ∀ sse, (emit sse).1 = [event sse])
    (quiet : ∀ sse, (event sse).startsToolUse = false)
    (untold : ∀ sse block, (event sse).tells block = false)
    (content : ∀ sse, (event sse).isMessageEvent = false) : emit.Besides 0 where
  calls := calls
  upward := upward
  starts sse := by
    rw [only sse, toolStarts, List.filter_cons_of_neg (by rw [quiet sse]; exact Bool.false_ne_true)]
    rfl
  view sse block _ := by
    rw [only sse, blockView,
      List.filter_cons_of_neg (by rw [untold sse block]; exact Bool.false_ne_true)]
    rfl
  content sse other member := by
    rw [only sse] at member
    rw [List.mem_singleton.mp member]
    exact content sse

end Emit.Besides

namespace SseBuilder

theorem nothing_besides : Emit.Besides (fun sse => ([], sse)) 0 :=
  ⟨fun _ => rfl, fun _ => le_rfl, fun _ => rfl, fun _ _ _ => rfl,
    fun _ _ member => absurd member List.not_mem_nil⟩

theorem startThinkingBlock_besides : startThinkingBlock.Besides 0 :=
  Emit.Besides.single (fun _ => rfl) (fun sse => Int.le_of_lt (Int.lt_succ sse.blocks.nextIndex)) _
    (fun _ => rfl) (fun _ => rfl) (fun _ _ => rfl) fun _ => rfl

theorem startTextBlock_besides : startTextBlock.Besides 0 :=
  Emit.Besides.single (fun _ => rfl) (fun sse => Int.le_of_lt (Int.lt_succ sse.blocks.nextIndex)) _
    (fun _ => rfl) (fun _ => rfl) (fun _ _ => rfl) fun _ => rfl

theorem stopThinkingBlock_besides : stopThinkingBlock.Besides 0 :=
  Emit.Besides.single (fun _ => rfl) (fun _ => le_rfl) _ (fun _ => rfl) (fun _ => rfl)
    (fun _ _ => rfl) fun _ => rfl

theorem stopTextBlock_besides : stopTextBlock.Besides 0 :=
  Emit.Besides.single (fun _ => rfl) (fun _ => le_rfl) _ (fun _ => rfl) (fun _ => rfl)
    (fun _ _ => rfl) fun _ => rfl

theorem emitThinkingDelta_besides (content : String) : (emitThinkingDelta content).Besides 0 :=
  Emit.Besides.single (fun _ => rfl) (fun _ => le_rfl) _ (fun _ => rfl) (fun _ => rfl)
    (fun _ _ => rfl) fun _ => rfl

theorem emitTextDelta_besides (content : String) : (emitTextDelta content).Besides 0 :=
  Emit.Besides.single (fun _ => rfl) (fun _ => le_rfl) _ (fun _ => rfl) (fun _ => rfl)
    (fun _ _ => rfl) fun _ => rfl

theorem thinking_besides (content : String) :
    (ensureThinkingBlock.followedBy (emitThinkingDelta content)).Besides 0 :=
  ((Emit.Besides.ite stopTextBlock_besides nothing_besides).followedBy
    (Emit.Besides.ite nothing_besides startThinkingBlock_besides)).followedBy
    (emitThinkingDelta_besides content)

theorem text_besides (content : String) :
    (ensureTextBlock.followedBy (emitTextDelta content)).Besides 0 :=
  ((Emit.Besides.ite stopThinkingBlock_besides nothing_besides).followedBy
    (Emit.Besides.ite nothing_besides startTextBlock_besides)).followedBy
    (emitTextDelta_besides content)

theorem closeContentBlocks_besides : closeContentBlocks.Besides 0 :=
  (Emit.Besides.ite stopThinkingBlock_besides nothing_besides).followedBy
    (Emit.Besides.ite stopTextBlock_besides nothing_besides)

end SseBuilder

namespace OpenaiCall

variable {call : OpenaiCall}

/-- **A detected call** is a new block. -/
theorem iterHeuristicToolUseSse_besides (toolUse : HeuristicTool) :
    (call.iterHeuristicToolUseSse toolUse).Besides 1 := by
  unfold iterHeuristicToolUseSse
  dsimp only
  refine @Emit.Besides.followedBy _ _ 0 1 SseBuilder.closeContentBlocks_besides ?_
  refine ⟨fun _ => rfl, fun sse => ?_, fun _ => rfl, fun sse block outside => ?_, ?_⟩
  · show sse.blocks.nextIndex ≤ sse.blocks.nextIndex + 1
    omega
  · refine List.filter_eq_nil_iff.mpr fun event member => ?_
    have away : sse.blocks.nextIndex ≠ block := by
      change block < sse.blocks.nextIndex ∨ sse.blocks.nextIndex + 1 ≤ block at outside
      omega
    simp only [List.mem_cons, List.not_mem_nil, or_false] at member
    rcases member with rfl | rfl | rfl
    · simp [SseEvent.tells, away]
    · simp [SseEvent.tells, away]
    · simp [SseEvent.tells]
  · intro sse event member
    simp only [List.mem_cons, List.not_mem_nil, or_false] at member
    rcases member with rfl | rfl | rfl <;> rfl

end OpenaiCall

/-! ### ChatMoves -/

/-- A move that leaves the native calls alone, but for the buffers of their arguments; `detected`
other calls are started. -/
structure Aside (state next : ChatState) (detected : Nat) : Prop where
  told : ∃ events, (∀ out, Outgoing state.yielded state.holdback out →
      Outgoing next.yielded next.holdback (out ++ events)) ∧
    (toolStarts events).length = detected ∧
    (∀ block, block < state.sse.blocks.nextIndex ∨ next.sse.blocks.nextIndex ≤ block →
      blockView block events = []) ∧
    ∀ event ∈ events, event.isMessageEvent = false
  calls : ∀ index, (state.callAt index).Same (next.callAt index)
  contents : ∀ index, (next.callAt index).contents = (state.callAt index).contents
  waiting : ∀ index, (state.callAt index).taskArgBuffer = "" →
    (next.callAt index).taskArgBuffer = ""
  upward : state.sse.blocks.nextIndex ≤ next.sse.blocks.nextIndex
  aliases : next.toolArgumentAliases = state.toolArgumentAliases

/-- Nothing is pushed, and the calls stay. -/
theorem Aside.quiet {state next : ChatState} (sse : next.sse = state.sse)
    (yielded : next.yielded = state.yielded) (holdback : next.holdback = state.holdback)
    (aliases : next.toolArgumentAliases = state.toolArgumentAliases) : Aside state next 0 := by
  have calls : ∀ index, next.callAt index = state.callAt index := by
    intro index
    rw [ChatState.callAt, sse, ChatState.callAt]
  refine ⟨⟨[], fun out outgoing => ?_, rfl, fun _ _ => rfl,
    fun _ member => absurd member List.not_mem_nil⟩, fun index => ?_, fun index => ?_,
    fun index empty => ?_, ?_, aliases⟩
  · rwa [yielded, holdback, List.append_nil]
  · rw [calls]
    rfl
  · rw [calls]
  · rwa [calls]
  · rw [sse]

/-- A method of the builder that leaves the native calls alone. -/
theorem aside_of_write {call : OpenaiCall} {emit : Emit} {detected : Nat} {state next : ChatState}
    (besides : emit.Besides detected) (ran : call.write emit state = .ok () next) :
    Aside state next detected ∧ next.reading = state.reading := by
  obtain ⟨moves, sse⟩ := OpenaiCall.write_moves ran
  have calls : ∀ index, next.callAt index = state.callAt index := by
    intro index
    rw [ChatState.callAt, ContentBlockManager.callAt, sse, besides.calls]
    rfl
  refine ⟨⟨⟨_, moves.pushes, besides.starts _, fun block => sse ▸ besides.view _ block,
    besides.content _⟩, fun index => ?_, fun index => ?_, fun index empty => ?_, ?_,
    congrArg ChatReading.toolArgumentAliases moves.reading⟩, moves.reading⟩
  · rw [calls]
    rfl
  · rw [calls]
  · rwa [calls]
  · rw [sse]
    exact besides.upward _

/-- The moves of a call: some tool-call deltas, and between them `detected` calls found in the text;
`late` are the calls that may get arguments which have waited. -/
inductive Runs (call : OpenaiCall) (late : Int → Prop) (state : ChatState) :
    List ToolCallDelta → Nat → ChatState → Prop
  | start : Runs call late state [] 0 state
  | aside {deltas : List ToolCallDelta} {detected further : Nat} {middle next : ChatState} :
    Runs call late state deltas detected middle → Aside middle next further →
      Runs call late state deltas (detected + further) next
  | delta {deltas : List ToolCallDelta} {detected : Nat} {middle next : ChatState}
      {tc : ToolCallDelta} :
    Runs call late state deltas detected middle → call.processToolCall tc middle = .ok () next →
      Runs call late state (deltas ++ [tc]) detected next
  | flush {deltas : List ToolCallDelta} {detected : Nat} {middle next : ChatState} {index : Int}
      {pieces : List String} :
    Runs call late state deltas detected middle → late index →
      (middle.callAt index).started = true → Delivers middle next index pieces →
      Runs call late state deltas detected next

/-- A move at which no call is detected. -/
theorem Runs.beside {call : OpenaiCall} {late : Int → Prop} {state middle next : ChatState}
    {deltas : List ToolCallDelta} {detected : Nat}
    (runs : Runs call late state deltas detected middle) (aside : Aside middle next 0) :
    Runs call late state deltas detected next :=
  runs.aside aside

theorem Runs.trans {call : OpenaiCall} {late : Int → Prop} {state middle next : ChatState}
    {first second : List ToolCallDelta} {before after : Nat}
    (runs : Runs call late state first before middle)
    (further : Runs call late middle second after next) :
    Runs call late state (first ++ second) (before + after) next := by
  induction further with
  | start => rwa [List.append_nil, Nat.add_zero]
  | aside _ moved ih => exact Nat.add_assoc _ _ _ ▸ ih.aside moved
  | delta _ ran ih => exact List.append_assoc first _ _ ▸ ih.delta ran
  | flush _ allowed started delivers ih => exact ih.flush allowed started delivers

/-! ### What a chunk brings -/

namespace ChatChunk

/-- The delta that is read of a chunk. -/
def delta (chunk : ChatChunk) : Option ChoiceDelta := chunk.choices.head?.bind Choice.delta

def content (chunk : ChatChunk) : String := (chunk.delta.bind ChoiceDelta.content).getD ""

def toolCalls (chunk : ChatChunk) : List ToolCallDelta :=
  (chunk.delta.map ChoiceDelta.toolCalls).getD []

/-- The finish reason behind a chunk. -/
def finishReason (chunk : ChatChunk) (reason : Option String) : Option String :=
  if chunk.delta.isSome then
    ((chunk.choices.head?.bind Choice.finishReason).filter (· ≠ "")).or reason
  else reason

end ChatChunk

/-- The two parsers of the content. -/
structure ContentParsers where
  think : ThinkTagParser
  heuristic : HeuristicToolParser

def ChatState.parsers (state : ChatState) : ContentParsers :=
  ⟨state.thinkParser, state.heuristicParser⟩

namespace OpenaiCall

section Detection

variable (call : OpenaiCall)

/-- How many tool calls the parser finds in a part, and the parser behind it. -/
def detectPart (parser : HeuristicToolParser) (part : ContentChunk) :
    Except PyError (Nat × HeuristicToolParser) :=
  match part.type with
  | .thinking => .ok (0, parser)
  | .text =>
    (parser.feed call.heuristicId call.isAlnum call.runtime part.content).map fun fed =>
      (fed.2.1.length, fed.2.2)

def detectParts (parser : HeuristicToolParser) :
    List ContentChunk → Except PyError (Nat × HeuristicToolParser)
  | [] => .ok (0, parser)
  | part :: parts =>
    match call.detectPart parser part with
    | .error error => .error error
    | .ok (found, parser) =>
      (detectParts parser parts).map fun later => (found + later.1, later.2)

/-- The same for the content of a chunk. -/
def detectContent (parsers : ContentParsers) (content : String) :
    Except PyError (Nat × ContentParsers) :=
  if content = "" then .ok (0, parsers)
  else
    let (parts, think) := parsers.think.feed content
    (call.detectParts parsers.heuristic parts).map fun found => (found.1, ⟨think, found.2⟩)

def detectContents (parsers : ContentParsers) :
    List ChatChunk → Except PyError (Nat × ContentParsers)
  | [] => .ok (0, parsers)
  | chunk :: chunks =>
    match call.detectContent parsers chunk.content with
    | .error error => .error error
    | .ok (found, parsers) =>
      (detectContents parsers chunks).map fun later => (found + later.1, later.2)

/-- How many tool calls the text parsers find in a stream, its end included. -/
def detectedCalls (parsers : ContentParsers) (chunks : List ChatChunk) : Except PyError Nat :=
  (call.detectContents parsers chunks).map fun found =>
    found.1 + found.2.heuristic.flush.1.length

end Detection

variable {call : OpenaiCall} {late : Int → Prop} {state next : ChatState}

/-! ### The chunk loop -/

/-- The call has gone on: some deltas, some detected calls; the parsers and the finish reason. -/
structure Progress (call : OpenaiCall) (late : Int → Prop) (state next : ChatState)
    (deltas : List ToolCallDelta) (detected : Nat) (parsers : ContentParsers) : Prop where
  runs : Runs call late state deltas detected next
  parsers : next.parsers = parsers
  finishReason : next.finishReason = state.finishReason

theorem Progress.trans {middle : ChatState} {first second : List ToolCallDelta}
    {before after : Nat} {parsers later : ContentParsers}
    (progress : Progress call late state middle first before parsers)
    (further : Progress call late middle next second after later) :
    Progress call late state next (first ++ second) (before + after) later :=
  ⟨progress.runs.trans further.runs, further.parsers,
    further.finishReason.trans progress.finishReason⟩

theorem Progress.stay : Progress call late state state [] 0 state.parsers :=
  ⟨Runs.start, rfl, rfl⟩

theorem runs_of_aside {detected : Nat} (aside : Aside state next detected) :
    Runs call late state [] detected next := by
  have runs := Runs.aside (@Runs.start call late state) aside
  rwa [Nat.zero_add] at runs

/-- One move beside the native calls. -/
theorem progress_of_aside {detected : Nat} (aside : Aside state next detected)
    (finishReason : next.finishReason = state.finishReason) :
    Progress call late state next [] detected next.parsers :=
  ⟨runs_of_aside aside, rfl, finishReason⟩

theorem progress_of_write {emit : Emit} {detected : Nat} (besides : emit.Besides detected)
    (ran : call.write emit state = .ok () next) :
    Progress call late state next [] detected state.parsers := by
  obtain ⟨aside, reading⟩ := aside_of_write besides ran
  have progress := @progress_of_aside call late _ _ _ aside (congrArg ChatReading.finishReason reading)
  have parsers : next.parsers = state.parsers :=
    congrArg (fun reading : ChatReading =>
      (⟨reading.thinkParser, reading.heuristicParser⟩ : ContentParsers)) reading
  rwa [parsers] at progress

theorem progress_of_writeThinking {content : String}
    (ran : call.writeThinking content state = .ok () next) :
    Progress call late state next [] 0 state.parsers :=
  progress_of_write (SseBuilder.thinking_besides content) ran

theorem progress_of_writeText {content : String}
    (ran : call.writeText content state = .ok () next) :
    Progress call late state next [] 0 state.parsers :=
  progress_of_write (SseBuilder.text_besides content) ran

/-- Detected calls, one block each. -/
theorem progress_of_toolUses {toolUses : List HeuristicTool}
    (ran : toolUses.forM (fun toolUse => call.write (call.iterHeuristicToolUseSse toolUse)) state =
      .ok () next) : Progress call late state next [] toolUses.length state.parsers := by
  induction toolUses generalizing state with
  | nil =>
    cases ran
    exact Progress.stay
  | cons toolUse rest ih =>
    obtain ⟨⟨⟩, middle, wrote, ran⟩ := bind_eq_ok.mp ran
    have first := @progress_of_write call late _ _ _ _ (iterHeuristicToolUseSse_besides toolUse) wrote
    have later := ih ran
    rw [first.parsers] at later
    have both := first.trans later
    rwa [Nat.add_comm] at both

theorem progress_of_handleReasoning {reasoning : String}
    (ran : call.handleReasoning reasoning state = .ok () next) :
    Progress call late state next [] 0 state.parsers := by
  unfold handleReasoning at ran
  split_ifs at ran
  · exact progress_of_writeThinking ran
  · cases ran
    exact Progress.stay

/-- Other parsers, and nothing else. -/
theorem progress_of_parsers (parsers : ContentParsers) :
    Progress call late state
      { state with thinkParser := parsers.think, heuristicParser := parsers.heuristic } [] 0
      parsers :=
  progress_of_aside (Aside.quiet rfl rfl rfl rfl) rfl

/-- **A part of the content.** -/
theorem progress_of_handlePart {part : ContentChunk}
    (ran : call.handlePart part state = .ok () next) :
    ∃ detected heuristic, call.detectPart state.heuristicParser part = .ok (detected, heuristic) ∧
      Progress call late state next [] detected ⟨state.thinkParser, heuristic⟩ := by
  obtain ⟨type, content⟩ := part
  cases type with
  | thinking =>
    refine ⟨0, state.heuristicParser, rfl, ?_⟩
    unfold handlePart at ran
    dsimp only at ran
    split_ifs at ran
    · exact progress_of_writeThinking ran
    · cases ran
      exact Progress.stay
  | text =>
    change call.handleTextPart content state = .ok () next at ran
    unfold handleTextPart at ran
    rw [get_bind_eq_ok] at ran
    unfold detectPart
    rcases fed : state.heuristicParser.feed call.heuristicId call.isAlnum call.runtime
      content with error | ⟨filteredText, detectedTools, heuristicParser⟩
    · rw [fed] at ran
      cases ran
    · rw [fed] at ran
      dsimp only at ran
      refine ⟨detectedTools.length, heuristicParser, rfl, ?_⟩
      rw [set_bind_eq_ok] at ran
      have parsed := @progress_of_parsers call late state ⟨state.thinkParser, heuristicParser⟩
      split_ifs at ran
      · obtain ⟨⟨⟩, middle, wrote, ran⟩ := bind_eq_ok.mp ran
        have text := @progress_of_writeText call late _ _ _ wrote
        have tools := @progress_of_toolUses call late _ _ _ ran
        have all := (parsed.trans text).trans tools
        rw [text.parsers, Nat.zero_add] at all
        exact all
      · have all := parsed.trans (progress_of_toolUses ran)
        rw [Nat.zero_add] at all
        exact all

/-- The parts of the content. -/
theorem progress_of_handleParts {parts : List ContentChunk}
    (ran : parts.forM call.handlePart state = .ok () next) :
    ∃ detected heuristic,
      call.detectParts state.heuristicParser parts = .ok (detected, heuristic) ∧
        Progress call late state next [] detected ⟨state.thinkParser, heuristic⟩ := by
  induction parts generalizing state with
  | nil =>
    cases ran
    exact ⟨0, _, rfl, Progress.stay⟩
  | cons part parts ih =>
    obtain ⟨⟨⟩, middle, handled, ran⟩ := bind_eq_ok.mp ran
    obtain ⟨found, heuristic, detected, first⟩ := @progress_of_handlePart call late _ _ _ handled
    obtain ⟨further, last, detectedLater, later⟩ := ih ran
    have parser : middle.heuristicParser = heuristic :=
      congrArg ContentParsers.heuristic first.parsers
    have think : middle.thinkParser = state.thinkParser := congrArg ContentParsers.think first.parsers
    rw [parser] at detectedLater
    rw [think] at later
    refine ⟨found + further, last, ?_, first.trans later⟩
    rw [detectParts, detected]
    dsimp only
    rw [detectedLater]
    rfl

theorem progress_of_handleContent {content : String}
    (ran : call.handleContent content state = .ok () next) :
    ∃ detected parsers, call.detectContent state.parsers content = .ok (detected, parsers) ∧
      Progress call late state next [] detected parsers := by
  unfold handleContent at ran
  unfold detectContent
  by_cases empty : content = ""
  · rw [if_neg (not_not.mpr empty)] at ran
    rw [if_pos empty]
    cases ran
    exact ⟨0, state.parsers, rfl, Progress.stay⟩
  · rw [if_pos empty] at ran
    rw [if_neg empty]
    rw [get_bind_eq_ok] at ran
    have fed : state.parsers.think.feed content = state.thinkParser.feed content := rfl
    rw [fed]
    revert ran
    rcases state.thinkParser.feed content with ⟨parts, think⟩
    intro ran
    dsimp only at ran ⊢
    rw [set_bind_eq_ok] at ran
    obtain ⟨detected, heuristic, found, parts⟩ := @progress_of_handleParts call late _ _ _ ran
    change call.detectParts state.heuristicParser _ = _ at found
    refine ⟨detected, ⟨think, heuristic⟩, ?_, ?_⟩
    · show (call.detectParts state.heuristicParser _).map _ = _
      rw [found]
      rfl
    · have all := (@progress_of_parsers call late state ⟨think, state.heuristicParser⟩).trans parts
      rwa [Nat.zero_add] at all

/-- A delta changes no variable of the chunk loop. -/
theorem reading_of_processToolCall {tc : ToolCallDelta}
    (ran : call.processToolCall tc state = .ok () next) : next.reading = state.reading := by
  obtain ⟨function, -, step⟩ := processToolCall_ok ran
  cases step with
  | passes pieces _ delivers _ => exact delivers.moves.reading
  | begins pieces _ _ begins _ => exact begins.moves.reading
  | waits _ _ moves _ => exact moves.reading

theorem progress_of_processToolCall {tc : ToolCallDelta}
    (ran : call.processToolCall tc state = .ok () next) :
    Progress call late state next [tc] 0 state.parsers := by
  have reading := reading_of_processToolCall ran
  exact ⟨Runs.start.delta ran, congrArg (fun reading : ChatReading =>
    (⟨reading.thinkParser, reading.heuristicParser⟩ : ContentParsers)) reading,
    congrArg ChatReading.finishReason reading⟩

/-- The tool-call deltas of a chunk, one by one. -/
theorem progress_of_deltas {toolCalls : List ToolCallDelta}
    (ran : toolCalls.forM call.processToolCall state = .ok () next) :
    Progress call late state next toolCalls 0 state.parsers := by
  induction toolCalls generalizing state with
  | nil =>
    cases ran
    exact Progress.stay
  | cons tc rest ih =>
    obtain ⟨⟨⟩, middle, processed, ran⟩ := bind_eq_ok.mp ran
    have first := @progress_of_processToolCall call late _ _ _ processed
    have later := ih ran
    rw [first.parsers] at later
    exact first.trans later

theorem progress_of_handleToolCalls {toolCalls : List ToolCallDelta}
    (ran : call.handleToolCalls toolCalls state = .ok () next) :
    Progress call late state next toolCalls 0 state.parsers := by
  unfold handleToolCalls at ran
  by_cases none : toolCalls = []
  · rw [if_neg (not_not.mpr none)] at ran
    cases ran
    rw [none]
    exact Progress.stay
  · rw [if_pos none] at ran
    obtain ⟨⟨⟩, middle, closed, ran⟩ := bind_eq_ok.mp ran
    have first := @progress_of_write call late _ _ _ _ SseBuilder.closeContentBlocks_besides closed
    have later := @progress_of_deltas call late _ _ _ ran
    rw [first.parsers] at later
    exact first.trans later

/-- **One chunk**: its tool-call deltas, and the calls that are found in its content. -/
theorem runs_of_handleChunk {chunk : ChatChunk}
    (ran : call.handleChunk chunk state = .ok () next) :
    ∃ detected parsers, call.detectContent state.parsers chunk.content = .ok (detected, parsers) ∧
      Runs call late state chunk.toolCalls detected next ∧ next.parsers = parsers ∧
      next.finishReason = chunk.finishReason state.finishReason := by
  unfold handleChunk at ran
  rw [modify_bind_eq_ok] at ran
  rcases chunk with ⟨_ | ⟨⟨_ | delta, reason⟩, rest⟩, usage⟩
  · cases ran
    exact ⟨0, state.parsers, rfl, runs_of_aside (Aside.quiet rfl rfl rfl rfl), rfl, rfl⟩
  · cases ran
    exact ⟨0, state.parsers, rfl, runs_of_aside (Aside.quiet rfl rfl rfl rfl), rfl, rfl⟩
  · dsimp only at ran
    rw [modify_bind_eq_ok] at ran
    set noted : ChatState := { state with
      usage := usage.or state.usage
      finishReason := (reason.filter (· ≠ "")).or state.finishReason } with isNoted
    have quiet : Aside state noted 0 := Aside.quiet rfl rfl rfl rfl
    obtain ⟨⟨⟩, reasoned, thinking, ran⟩ := bind_eq_ok.mp ran
    obtain ⟨⟨⟩, contented, text, ran⟩ := bind_eq_ok.mp ran
    have first := @progress_of_handleReasoning call late _ _ _ thinking
    obtain ⟨detected, parsers, found, second⟩ := @progress_of_handleContent call late _ _ _ text
    have third := @progress_of_handleToolCalls call late _ _ _ ran
    rw [first.parsers] at found
    rw [second.parsers] at third
    have all := (first.trans second).trans third
    have runs := (runs_of_aside quiet).trans all.runs
    simp only [Nat.zero_add, Nat.add_zero, List.nil_append] at runs
    exact ⟨detected, parsers, found, runs, all.parsers, all.finishReason⟩

/-- **The chunk loop.** -/
theorem runs_of_chunks {chunks : List ChatChunk}
    (ran : chunks.forM call.handleChunk state = .ok () next) :
    ∃ detected parsers, call.detectContents state.parsers chunks = .ok (detected, parsers) ∧
      Runs call late state (chunks.flatMap ChatChunk.toolCalls) detected next ∧
      next.parsers = parsers ∧
      next.finishReason =
        chunks.foldl (fun reason chunk => chunk.finishReason reason) state.finishReason := by
  induction chunks generalizing state with
  | nil =>
    cases ran
    exact ⟨0, _, rfl, Runs.start, rfl, rfl⟩
  | cons chunk chunks ih =>
    obtain ⟨⟨⟩, middle, handled, ran⟩ := bind_eq_ok.mp ran
    obtain ⟨found, parsers, detected, first, parsed, reason⟩ :=
      @runs_of_handleChunk call late _ _ _ handled
    obtain ⟨further, last, detectedLater, later, parsedLater, reasonLater⟩ := ih ran
    rw [parsed] at detectedLater
    rw [reason] at reasonLater
    refine ⟨found + further, last, ?_, first.trans later, parsedLater, reasonLater⟩
    rw [detectContents, detected]
    dsimp only
    rw [detectedLater]
    rfl

/-- The finish reason of a stream: the last one that is not empty. -/
def finishReasonOf (chunks : List ChatChunk) : Option String :=
  chunks.foldl (fun reason chunk => chunk.finishReason reason) none

end OpenaiCall

end ClaudeProxy
