/-
**The SSE builder of the OpenAI transport** (`core/anthropic/sse.py`).

`ContentBlockManager` hands out block indexes and remembers the open text and thinking block and the
state of every streamed tool call; `SseBuilder` writes the events. A method that yields events and
changes the builder is an `Emit`: the events, and the builder after them.
-/

import ClaudeProxy.Recovery.StreamRecovery
import ClaudeProxy.Sse.Event

namespace ClaudeProxy

open Json (getKey setKey)

/-! ### Tool calls and blocks -/

/-- `ToolCallState`. -/
structure ToolCallState where
  blockIndex : Int
  toolId : String
  name : String
  extraContent : Option (List (String × Json)) := none
  contents : List String := []
  started : Bool := false
  taskArgBuffer : String := ""
  taskArgsEmitted : Bool := false
  preStartArgs : String := ""
  deriving DecidableEq

/-- `ContentBlockManager`. -/
structure ContentBlockManager where
  nextIndex : Int := 0
  thinkingIndex : Int := -1
  textIndex : Int := -1
  thinkingStarted : Bool := false
  textStarted : Bool := false
  toolStates : Dict Int ToolCallState := ∅
  deriving DecidableEq

/-- `_normalize_task_run_in_background` on the arguments of a `Task` call. -/
def normalizeTaskRunInBackground (argsJson : Json) : Except PyError Json :=
  match argsJson with
  | .obj args =>
    if getKey args "run_in_background" = .bool false then .ok (.obj args)
    else .ok (.obj (setKey args "run_in_background" (.bool false)))
  | _ => .error (.attributeError "object has no attribute 'get'")

namespace ContentBlockManager

/-- `ensure_tool_state`. -/
def ensureToolState (blocks : ContentBlockManager) (index : Int) :
    ToolCallState × ContentBlockManager :=
  match blocks.toolStates.get? index with
  | some state => (state, blocks)
  | none =>
    let state : ToolCallState := { blockIndex := -1, toolId := "", name := "" }
    (state, { blocks with toolStates := blocks.toolStates.set index state })

/-- The state of a tool call replaced. -/
def setToolState (blocks : ContentBlockManager) (index : Int) (state : ToolCallState) :
    ContentBlockManager :=
  { blocks with toolStates := blocks.toolStates.set index state }

/-- `set_stream_tool_id`. -/
def setStreamToolId (blocks : ContentBlockManager) (index : Int) (toolId : String) :
    ContentBlockManager :=
  if toolId = "" then blocks
  else
    let (state, blocks) := blocks.ensureToolState index
    blocks.setToolState index { state with toolId }

/-- `set_tool_extra_content`, for content that is not empty. -/
def setToolExtraContent (blocks : ContentBlockManager) (index : Int)
    (extraContent : List (String × Json)) : ContentBlockManager :=
  let (state, blocks) := blocks.ensureToolState index
  blocks.setToolState index { state with extraContent := some extraContent }

/-- `register_tool_name`: a fragment extends the name, repeats a prefix of it, or restates it. -/
def registerToolName (blocks : ContentBlockManager) (index : Int) (name : String) :
    ContentBlockManager :=
  match blocks.toolStates.get? index with
  | none => blocks.setToolState index { blockIndex := -1, toolId := "", name }
  | some state =>
    if state.name = "" || Py.startsWith name state.name then
      blocks.setToolState index { state with name }
    else if !Py.startsWith state.name name then
      blocks.setToolState index { state with name := state.name ++ name }
    else blocks

/-- `buffer_task_args`: the arguments once they are complete. The state is as the code leaves it
when the normalisation raises. -/
def bufferTaskArgs (runtime : Runtime) (blocks : ContentBlockManager) (index : Int)
    (args : String) : Except PyError (Option Json) × ContentBlockManager :=
  match blocks.toolStates.get? index with
  | none => (.ok none, blocks)
  | some state =>
    if state.taskArgsEmitted then (.ok none, blocks)
    else
      let state := { state with taskArgBuffer := state.taskArgBuffer ++ args }
      match runtime.loads state.taskArgBuffer with
      | .error _ => (.ok none, blocks.setToolState index state)
      | .ok argsJson =>
        match normalizeTaskRunInBackground argsJson with
        | .error error => (.error error, blocks.setToolState index state)
        | .ok argsJson =>
          (.ok (some argsJson), blocks.setToolState index
            { state with taskArgsEmitted := true, taskArgBuffer := "" })

/-- `has_emitted_tool_block`. -/
def hasEmittedToolBlock (blocks : ContentBlockManager) : Bool :=
  blocks.toolStates.values.any ToolCallState.started

/-- The output for one buffered `Task` call: `except (JSONDecodeError, TypeError, ValueError)`
leaves `{}`, any other exception propagates. -/
def flushedTaskArgs (runtime : Runtime) (taskArgBuffer : String) : Except PyError String :=
  match runtime.loads taskArgBuffer with
  | .error (.jsonDecodeError _) | .error (.typeError _) | .error (.valueError _) =>
    .ok "\x7b\x7d"
  | .error error => .error error
  | .ok argsJson =>
    match normalizeTaskRunInBackground argsJson with
    | .error error => .error error
    | .ok argsJson => .ok (runtime.dumps argsJson)

/-- A call whose `Task` arguments are still buffered. -/
def awaitsTaskArgs (state : ToolCallState) : Bool :=
  state.taskArgBuffer ≠ "" && !state.taskArgsEmitted

/-- The loop of `flush_task_arg_buffers`. -/
def flushTaskArgs (runtime : Runtime) :
    List (Int × ToolCallState) → ContentBlockManager →
      Except PyError (List (Int × String) × ContentBlockManager)
  | [], blocks => .ok ([], blocks)
  | (index, state) :: rest, blocks =>
    if awaitsTaskArgs state then
      match flushedTaskArgs runtime state.taskArgBuffer with
      | .error error => .error error
      | .ok out =>
        match flushTaskArgs runtime rest (blocks.setToolState index
          { state with taskArgsEmitted := true, taskArgBuffer := "" }) with
        | .error error => .error error
        | .ok (results, blocks) => .ok ((index, out) :: results, blocks)
    else flushTaskArgs runtime rest blocks

/-- `flush_task_arg_buffers`. -/
def flushTaskArgBuffers (runtime : Runtime) (blocks : ContentBlockManager) :
    Except PyError (List (Int × String) × ContentBlockManager) :=
  flushTaskArgs runtime blocks.toolStates.entries blocks

end ContentBlockManager

/-! ### The builder -/

/-- `SSEBuilder`. -/
structure SseBuilder where
  messageId : String
  model : String
  inputTokens : Int
  blocks : ContentBlockManager := {}
  accumulatedTextParts : List String := []
  accumulatedReasoningParts : List String := []
  deriving DecidableEq

/-- A method that yields events: these, and the builder after them. -/
abbrev Emit := SseBuilder → List SseEvent × SseBuilder

/-- Two yielding methods, one after the other. -/
def Emit.followedBy (first second : Emit) : Emit := fun sse =>
  let (before, sse) := first sse
  let (after, sse) := second sse
  (before ++ after, sse)

/-- Nothing yielded. -/
def Emit.nothing : Emit := fun sse => ([], sse)

/-- `STOP_REASON_MAP` and `map_stop_reason`. -/
def mapStopReason (openaiReason : Option String) : String :=
  match openaiReason with
  | some reason =>
    if reason = "length" then "max_tokens"
    else if reason = "tool_calls" then "tool_use"
    else "end_turn"
  | none => "end_turn"

namespace SseBuilder

/-- `message_start`. -/
def messageStart (sse : SseBuilder) : SseEvent :=
  formatSseEvent "message_start"
    [("type", .str "message_start"),
      ("message", .obj
        [("id", .str sse.messageId), ("type", .str "message"), ("role", .str "assistant"),
          ("content", .arr []), ("model", .str sse.model), ("stop_reason", .null),
          ("stop_sequence", .null),
          ("usage", .obj [("input_tokens", .int sse.inputTokens), ("output_tokens", .int 1)])])]

/-- `message_delta`. -/
def messageDelta (sse : SseBuilder) (stopReason : String) (outputTokens : Int) : SseEvent :=
  formatSseEvent "message_delta"
    [("type", .str "message_delta"),
      ("delta", .obj [("stop_reason", .str stopReason), ("stop_sequence", .null)]),
      ("usage", .obj
        [("input_tokens", .int sse.inputTokens), ("output_tokens", .int outputTokens)])]

/-- `message_stop`. -/
def messageStop : SseEvent := formatSseEvent "message_stop" [("type", .str "message_stop")]

/-- `start_thinking_block`. -/
def startThinkingBlock : Emit := fun sse =>
  let index := sse.blocks.nextIndex
  ([contentBlockStart index [("type", .str "thinking"), ("thinking", .str "")]],
    { sse with blocks := { sse.blocks with
        nextIndex := index + 1, thinkingIndex := index, thinkingStarted := true } })

/-- `emit_thinking_delta`. -/
def emitThinkingDelta (content : String) : Emit := fun sse =>
  ([contentBlockDelta sse.blocks.thinkingIndex
      [("type", .str "thinking_delta"), ("thinking", .str content)]],
    { sse with accumulatedReasoningParts := sse.accumulatedReasoningParts ++ [content] })

/-- `stop_thinking_block`. -/
def stopThinkingBlock : Emit := fun sse =>
  ([contentBlockStop sse.blocks.thinkingIndex],
    { sse with blocks := { sse.blocks with thinkingStarted := false } })

/-- `start_text_block`. -/
def startTextBlock : Emit := fun sse =>
  let index := sse.blocks.nextIndex
  ([contentBlockStart index [("type", .str "text"), ("text", .str "")]],
    { sse with blocks := { sse.blocks with
        nextIndex := index + 1, textIndex := index, textStarted := true } })

/-- `emit_text_delta`. -/
def emitTextDelta (content : String) : Emit := fun sse =>
  ([contentBlockDelta sse.blocks.textIndex
      [("type", .str "text_delta"), ("text", .str content)]],
    { sse with accumulatedTextParts := sse.accumulatedTextParts ++ [content] })

/-- `stop_text_block`. -/
def stopTextBlock : Emit := fun sse =>
  ([contentBlockStop sse.blocks.textIndex],
    { sse with blocks := { sse.blocks with textStarted := false } })

/-- The `content_block` of a `tool_use` start. -/
def toolUseBlock (toolId name : String) (extraContent : Option (List (String × Json))) :
    List (String × Json) :=
  [("type", .str "tool_use"), ("id", .str toolId), ("name", .str name), ("input", .obj [])] ++
    match extraContent with
    | some (field :: fields) => [("extra_content", .obj (field :: fields))]
    | _ => []

/-- `start_tool_block`. -/
def startToolBlock (toolIndex : Int) (toolId name : String)
    (extraContent : Option (List (String × Json))) : Emit := fun sse =>
  let index := sse.blocks.nextIndex
  let state : ToolCallState := match sse.blocks.toolStates.get? toolIndex with
    | some state =>
      { state with
        blockIndex := index
        toolId := toolId
        extraContent := match extraContent with
          | some (field :: fields) => some (field :: fields)
          | _ => state.extraContent
        started := true }
    | none => { blockIndex := index, toolId, name, extraContent, started := true }
  ([contentBlockStart index (toolUseBlock toolId name extraContent)],
    { sse with blocks :=
        { sse.blocks with nextIndex := index + 1 }.setToolState toolIndex state })

/-- `emit_tool_delta`, for a tool index that has a state. -/
def emitToolDelta (toolIndex : Int) (state : ToolCallState) (partialJson : String) : Emit :=
  fun sse =>
    let extended := { state with contents := state.contents ++ [partialJson] }
    ([contentBlockDelta state.blockIndex
        [("type", .str "input_json_delta"), ("partial_json", .str partialJson)]],
      { sse with blocks := sse.blocks.setToolState toolIndex extended })

/-- `ensure_thinking_block`. -/
def ensureThinkingBlock : Emit :=
  Emit.followedBy
    (fun sse => if sse.blocks.textStarted then stopTextBlock sse else ([], sse))
    (fun sse => if sse.blocks.thinkingStarted then ([], sse) else startThinkingBlock sse)

/-- `ensure_text_block`. -/
def ensureTextBlock : Emit :=
  Emit.followedBy
    (fun sse => if sse.blocks.thinkingStarted then stopThinkingBlock sse else ([], sse))
    (fun sse => if sse.blocks.textStarted then ([], sse) else startTextBlock sse)

/-- `close_content_blocks`. -/
def closeContentBlocks : Emit :=
  Emit.followedBy
    (fun sse => if sse.blocks.thinkingStarted then stopThinkingBlock sse else ([], sse))
    (fun sse => if sse.blocks.textStarted then stopTextBlock sse else ([], sse))

/-- The started tool calls, in the order of their states. -/
def startedToolStates (sse : SseBuilder) : List (Int × ToolCallState) :=
  sse.blocks.toolStates.entries.filter fun entry => entry.2.started

/-- `close_all_blocks`. -/
def closeAllBlocks : Emit :=
  closeContentBlocks.followedBy fun sse =>
    (sse.startedToolStates.map fun entry => contentBlockStop entry.2.blockIndex, sse)

/-- `emit_error`. -/
def emitError (errorMessage : String) : Emit := fun sse =>
  let index := sse.blocks.nextIndex
  ([contentBlockStart index [("type", .str "text"), ("text", .str "")],
      contentBlockDelta index [("type", .str "text_delta"), ("text", .str errorMessage)],
      contentBlockStop index],
    { sse with blocks := { sse.blocks with nextIndex := index + 1 } })

/-- `emit_top_level_error`. -/
def emitTopLevelError (errorMessage : String) : SseEvent :=
  formatSseEvent "error"
    [("type", .str "error"),
      ("error", .obj [("type", .str "api_error"), ("message", .str errorMessage)])]

/-- `accumulated_text`. -/
def accumulatedText (sse : SseBuilder) : String := Py.join "" sse.accumulatedTextParts

/-- `accumulated_reasoning`. -/
def accumulatedReasoning (sse : SseBuilder) : String := Py.join "" sse.accumulatedReasoningParts

end SseBuilder

/-! ### Counting tokens -/

/-- The tokenizer: its special tokens, and the number of tokens of a text. -/
structure Encoder where
  special : List String
  count : String → Nat

/-- `encode`, which refuses a text with a special token in it. -/
def Encoder.encode (encoder : Encoder) (text : String) : Except PyError Nat :=
  if encoder.special.any (Py.contains text) then
    .error (.valueError "Encountered text corresponding to disallowed special token")
  else .ok (encoder.count text)

namespace SseBuilder

/-- The loop over the tool calls. -/
def toolTokens (encoder : Encoder) : List ToolCallState → Except PyError Nat
  | [] => .ok 0
  | tool :: rest => do
    let name ← encoder.encode tool.name
    let contents ← encoder.encode (Py.join "" tool.contents)
    let further ← toolTokens encoder rest
    .ok (name + contents + 15 + further)

/-- `estimate_output_tokens`; `none` is a missing `ENCODER`. -/
def estimateOutputTokens (sse : SseBuilder) (encoder : Option Encoder) : Except PyError Int :=
  let startedToolCount := (sse.blocks.toolStates.values.filter ToolCallState.started).length
  match encoder with
  | some encoder => do
    let textTokens ← encoder.encode sse.accumulatedText
    let reasoningTokens ← encoder.encode sse.accumulatedReasoning
    let toolTokens ← toolTokens encoder sse.blocks.toolStates.values
    let blockCount := (if sse.accumulatedReasoning = "" then 0 else 1) +
      (if sse.accumulatedText = "" then 0 else 1) + startedToolCount
    .ok (textTokens + reasoningTokens + toolTokens + blockCount * 4 : Nat)
  | none =>
    .ok (Py.len sse.accumulatedText / 4 + Py.len sse.accumulatedReasoning / 4 +
      startedToolCount * 50 : Nat)

/-- The texts that are counted. -/
def countedTexts (sse : SseBuilder) : List String :=
  sse.accumulatedText :: sse.accumulatedReasoning ::
    sse.blocks.toolStates.values.flatMap fun tool => [tool.name, Py.join "" tool.contents]

end SseBuilder

/-- No special token of the tokenizer stands in a text that is counted. -/
def SseBuilder.Countable (sse : SseBuilder) (encoder : Option Encoder) : Prop :=
  ∀ found ∈ encoder, ∀ text ∈ sse.countedTexts, found.special.any (Py.contains text) = false

theorem Encoder.encode_eq_ok_iff {encoder : Encoder} {text : String} :
    (∃ tokens, encoder.encode text = .ok tokens) ↔
      encoder.special.any (Py.contains text) = false := by
  unfold Encoder.encode
  cases encoder.special.any (Py.contains text) with
  | true => exact iff_of_false (by rintro ⟨_, ⟨⟩⟩) (by decide)
  | false => exact iff_of_true ⟨_, rfl⟩ rfl

theorem SseBuilder.toolTokens_eq_ok_iff {encoder : Encoder} {tools : List ToolCallState} :
    (∃ tokens, toolTokens encoder tools = .ok tokens) ↔
      ∀ text ∈ tools.flatMap (fun tool => [tool.name, Py.join "" tool.contents]),
        encoder.special.any (Py.contains text) = false := by
  induction tools with
  | nil => exact iff_of_true ⟨0, rfl⟩ (fun _ member => (List.not_mem_nil member).elim)
  | cons tool rest ih =>
    rw [List.flatMap_cons, List.forall_mem_append, ← ih, List.forall_mem_cons,
      List.forall_mem_singleton, ← Encoder.encode_eq_ok_iff, ← Encoder.encode_eq_ok_iff]
    rw [toolTokens]
    cases encoder.encode tool.name <;> cases encoder.encode (Py.join "" tool.contents) <;>
      cases toolTokens encoder rest <;> simp [bind, Except.bind]

/-- **When the estimate raises**: a counted text holds a special token. -/
theorem SseBuilder.estimateOutputTokens_eq_ok_iff {sse : SseBuilder} {encoder : Option Encoder} :
    (∃ tokens, sse.estimateOutputTokens encoder = .ok tokens) ↔ sse.Countable encoder := by
  unfold Countable
  cases encoder with
  | none => exact iff_of_true ⟨_, rfl⟩ (fun _ found => absurd found (Option.not_mem_none _))
  | some encoder =>
    simp only [Option.mem_def, Option.some.injEq, forall_eq']
    unfold countedTexts
    rw [List.forall_mem_cons, List.forall_mem_cons, ← toolTokens_eq_ok_iff,
      ← Encoder.encode_eq_ok_iff, ← Encoder.encode_eq_ok_iff]
    unfold estimateOutputTokens
    dsimp only
    cases encoder.encode sse.accumulatedText <;> cases encoder.encode sse.accumulatedReasoning <;>
      cases toolTokens encoder sse.blocks.toolStates.values <;> simp [bind, Except.bind]

/-- The last four events of a message that ends in an error: its text block, then the end. -/
def errorBlockEvents (sse : SseBuilder) (errorMessage : String) : List SseEvent :=
  (sse.emitError errorMessage).1 ++ [sse.messageDelta "end_turn" 1, SseBuilder.messageStop]

/-- `iter_provider_stream_error_sse_events`. -/
def iterProviderStreamErrorSseEvents (sse : SseBuilder) (errorMessage : String)
    (sentAnyEvent : Bool) : List SseEvent :=
  (if sentAnyEvent then [] else [sse.messageStart]) ++ errorBlockEvents sse errorMessage

end ClaudeProxy
