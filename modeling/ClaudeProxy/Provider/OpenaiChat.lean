/-
**The chunk loop of the OpenAI transport** (`OpenAIChatTransport` of `providers/openai_compat.py`).

A `Chat` program acts on a `ChatState` and may raise; the state it had reached then stays, for the
handler to look at. What the code calls and does not define is part of an `OpenaiCall`: the provider
with its hooks, the tokenizer, the clock and the event sizes that the buffer sees, the random ids.

* `createStream` — `_create_stream`, which may ask a second time with another body;
* `processToolCall` — `_process_tool_call`, with the Task and the alias buffers;
* `handleChunk` — one turn of the chunk loop; `connect` — one attempt, up to its finish reason.
-/

import ClaudeProxy.Parsers.HeuristicTool
import ClaudeProxy.Parsers.ThinkTag
import ClaudeProxy.Recovery.Holdback
import ClaudeProxy.Sse.Builder

namespace ClaudeProxy

open Json (getKey setKey)

/-! ### What the provider sends -/

/-- The `function` of a tool-call delta. -/
structure FunctionDelta where
  name : Option String
  arguments : Option String

/-- A tool-call delta; `extraContent` is what `_tool_call_extra_content` finds on it. -/
structure ToolCallDelta where
  index : Option Int
  id : Option String
  function : Option FunctionDelta
  extraContent : Option (List (String × Json)) := none

/-- The `delta` of a choice. -/
structure ChoiceDelta where
  content : Option String := none
  reasoningContent : Option String := none
  toolCalls : List ToolCallDelta := []

/-- A choice of a chunk. -/
structure Choice where
  delta : Option ChoiceDelta
  finishReason : Option String := none

/-- The usage of a chunk; `completionTokens` where it is an integer. -/
structure ChatUsage where
  completionTokens : Option Int

/-- A chunk. -/
structure ChatChunk where
  choices : List Choice
  usage : Option ChatUsage := none

/-- An open stream: its chunks, and the error that it breaks off with. -/
structure ChatStream where
  chunks : List ChatChunk
  ending : Option UpstreamError

/-- The provider: what it answers to the request of that number, and its hooks. -/
structure ChatProvider where
  upstream : Nat → Body → Except UpstreamError ChatStream
  prepareCreateBody : Body → Except UpstreamError Body
  getRetryRequestBody : UpstreamError → Body → Except UpstreamError (Option Body)
  toolArgumentAliases : Body → Except UpstreamError (Dict String (Dict String String))

/-! ### One call -/

/-- One call of `_stream_response_impl`, with what it depends on. -/
structure OpenaiCall where
  runtime : Runtime
  provider : ChatProvider
  encoder : Option Encoder
  isAlnum : Char → Bool
  tools : List RequestTool
  body : Body
  model : String
  inputTokens : Int
  messageId : String
  thinkingEnabled : Bool
  heuristicId : Nat → String
  toolUuid : Nat → String
  errorMessage : UpstreamError → Except PyError String
  measured : Nat → SseEvent → Measured

/-- The variables of the call: `requests` counts the requests, `pushes` the events pushed, and
`yielded` is what was yielded behind `message_start`. -/
structure ChatState where
  sse : SseBuilder
  body : Body
  requests : Nat := 0
  streamOpened : Bool := false
  holdback : RecoveryHoldbackBuffer SseEvent := {}
  pushes : Nat := 0
  yielded : List SseEvent := []
  thinkParser : ThinkTagParser := {}
  heuristicParser : HeuristicToolParser := {}
  finishReason : Option String := none
  usage : Option ChatUsage := none
  toolArgumentAliases : Dict String (Dict String String) := ∅
  aliasBuffers : Dict Int String := ∅

/-- The builder's blocks replaced. -/
def ChatState.withBlocks (state : ChatState) (blocks : ContentBlockManager) : ChatState :=
  { state with sse := { state.sse with blocks } }

/-- Statements of the call. -/
abbrev Chat := EStateM UpstreamError ChatState

namespace OpenaiCall

variable (call : OpenaiCall)

/-- `new_sse_builder`. -/
def newSseBuilder : SseBuilder :=
  { messageId := call.messageId, model := call.model, inputTokens := call.inputTokens }

/-! ### Events -/

/-- The events that a method of the builder yields. -/
def emitted (emit : Emit) : Chat (List SseEvent) :=
  modifyGet fun state => ((emit state.sse).1, { state with sse := (emit state.sse).2 })

/-- `emit_tool_delta`, which looks the call up. -/
def toolDelta (index : Int) (partialJson : String) : Chat (List SseEvent) := do
  match (← get).sse.blocks.toolStates.get? index with
  | none => throw (.python (.other "KeyError" (toString index)))
  | some tool => emitted (SseBuilder.emitToolDelta index tool partialJson)

/-- One event pushed. -/
def pushEvent (state : ChatState) (event : SseEvent) : ChatState :=
  let (given, holdback) := state.holdback.push event (call.measured state.pushes event)
  { state with
    holdback := holdback
    pushes := state.pushes + 1
    yielded := state.yielded ++ given }

/-- `hold_events`. -/
def holdEvents (events : List SseEvent) : Chat Unit :=
  modify fun state => events.foldl call.pushEvent state

/-- The events of a method of the builder, held. -/
def write (emit : Emit) : Chat Unit := do
  call.holdEvents (← emitted emit)

/-! ### Requests -/

/-- `create(**create_body, stream=True)`: its answer, and the number of the next request. A body that has
a `stream` of its own gives the keyword twice, and is not sent. -/
def send (body : Body) (number : Nat) : Except UpstreamError ChatStream × Nat :=
  match call.provider.prepareCreateBody body with
  | .error error => (.error error, number)
  | .ok prepared =>
    if (Assoc.get? "stream" prepared).isSome then
      (.error (.python (.typeError "got multiple values for keyword argument 'stream'")), number)
    else (call.provider.upstream number prepared, number + 1)

/-- `_create_stream`: the stream, and the body that it was created with. -/
def createStream (body : Body) (number : Nat) : Except UpstreamError (ChatStream × Body) × Nat :=
  match call.send body number with
  | (.ok stream, number) => (.ok (stream, body), number)
  | (.error error, number) =>
    match call.provider.getRetryRequestBody error body with
    | .error raised => (.error raised, number)
    | .ok none => (.error error, number)
    | .ok (some retryBody) =>
      match call.send retryBody number with
      | (.ok stream, number) => (.ok (stream, retryBody), number)
      | (.error raised, number) => (.error raised, number)

/-- A function of the request number, as a statement. -/
def requesting {α : Type} (ask : Nat → Except UpstreamError α × Nat) : Chat α := fun state =>
  match ask state.requests with
  | (.ok value, requests) => .ok value { state with requests }
  | (.error error, requests) => .error error { state with requests }

/-! ### Tool calls -/

mutual

/-- `_restore_aliased_tool_argument_value`. -/
def restoreAliasedToolArgumentValue (aliases : Dict String String) : Json → Json
  | .obj fields => .obj (restoreFields aliases [] fields)
  | .arr items => .arr (restoreItems aliases items)
  | value => value

/-- The members, behind those already restored. -/
def restoreFields (aliases : Dict String String) (restored : List (String × Json)) :
    List (String × Json) → List (String × Json)
  | [] => restored
  | (key, item) :: rest =>
    restoreFields aliases (setKey restored ((aliases.get? key).getD key)
      (restoreAliasedToolArgumentValue aliases item)) rest

/-- The items. -/
def restoreItems (aliases : Dict String String) : List Json → List Json
  | [] => []
  | item :: rest =>
    restoreAliasedToolArgumentValue aliases item :: restoreItems aliases rest

end

/-- `_restore_aliased_tool_arguments`. -/
def restoreAliasedToolArguments (argumentJson : String) (aliases : Dict String String) :
    Except PyError (Option String) :=
  match call.runtime.loadsOrNone argumentJson with
  | .error error => .error error
  | .ok none => .ok none
  | .ok (some (.obj fields)) =>
    .ok (some (call.runtime.dumps (restoreAliasedToolArgumentValue aliases (.obj fields))))
  | .ok (some _) => .ok (some argumentJson)

/-- `_emit_tool_arg_delta` for a `Task` call. -/
def emitTaskArgs (index : Int) (args : String) : Chat Unit := do
  let state ← get
  let (parsed, blocks) := state.sse.blocks.bufferTaskArgs call.runtime index args
  set (state.withBlocks blocks)
  match parsed with
  | .error error => throw (.python error)
  | .ok none => pure ()
  | .ok (some parsed) => call.holdEvents (← toolDelta index (call.runtime.dumps parsed))

/-- `_emit_tool_arg_delta` for a tool with argument aliases. -/
def emitAliasedArgs (index : Int) (args : String) (aliases : Dict String String) : Chat Unit := do
  let state ← get
  let bufferedArgs := (state.aliasBuffers.get? index).getD "" ++ args
  match call.restoreAliasedToolArguments bufferedArgs aliases with
  | .error error => throw (.python error)
  | .ok none => set { state with aliasBuffers := state.aliasBuffers.set index bufferedArgs }
  | .ok (some restored) =>
    set { state with aliasBuffers := state.aliasBuffers.erase index }
    call.holdEvents (← toolDelta index restored)

/-- `_emit_tool_arg_delta`. -/
def emitToolArgDelta (index : Int) (args : String) : Chat Unit := do
  let state ← get
  match state.sse.blocks.toolStates.get? index with
  | none => pure ()
  | some tool =>
    let aliases := (state.toolArgumentAliases.get? tool.name).getD ∅
    if args = "" then pure ()
    else if tool.name = "Task" then call.emitTaskArgs index args
    else if aliases.entries = [] then call.holdEvents (← toolDelta index args)
    else call.emitAliasedArgs index args aliases

/-- `tc_index`. -/
def toolCallIndex (tc : ToolCallDelta) (blocks : ContentBlockManager) : Int :=
  let index := tc.index.getD 0
  if index < 0 then blocks.toolStates.entries.length else index

/-- The id a delta carries. -/
def registerToolId (index : Int) (tc : ToolCallDelta) (blocks : ContentBlockManager) :
    ContentBlockManager :=
  match tc.id with
  | some id => blocks.setStreamToolId index id
  | none => blocks

/-- The extra content a delta carries: an empty one does not replace an earlier one. -/
def registerExtraContent (index : Int) (tc : ToolCallDelta) (blocks : ContentBlockManager) :
    ContentBlockManager :=
  match tc.extraContent with
  | some (field :: fields) => blocks.setToolExtraContent index (field :: fields)
  | _ => blocks

/-- What a delta says about its call: its id, its extra content, and its name. -/
def registerToolCall (index : Int) (tc : ToolCallDelta) (function : FunctionDelta)
    (blocks : ContentBlockManager) : ContentBlockManager :=
  let blocks := registerExtraContent index tc (registerToolId index tc blocks)
  match function.name with
  | some name => blocks.registerToolName index name
  | none => blocks

/-- A call whose name is not known yet. -/
def unnamed (tool : Option ToolCallState) : Bool :=
  Py.strip ((tool.map ToolCallState.name).getD "") = ""

/-- A named call is started, and gets the arguments that came before its name. -/
def startToolCall (index : Int) (tc : ToolCallDelta) : Chat Unit := do
  let state ← get
  let tool := state.sse.blocks.toolStates.get? index
  let resolvedId := ((tool.map ToolCallState.toolId).filter (· ≠ "")).or tc.id
  let toolId := (resolvedId.filter (· ≠ "")).getD ("tool_" ++ call.toolUuid state.pushes)
  let displayName := Py.strip ((tool.map ToolCallState.name).getD "")
  let extraContent := (tool.map ToolCallState.extraContent).getD
    (tc.extraContent.filter (· ≠ []))
  call.write (SseBuilder.startToolBlock index toolId displayName extraContent)
  let state ← get
  match state.sse.blocks.toolStates.get? index with
  | none => throw (.python (.other "KeyError" (toString index)))
  | some tool =>
    set (state.withBlocks (state.sse.blocks.setToolState index { tool with preStartArgs := "" }))
    call.emitToolArgDelta index tool.preStartArgs

/-- The arguments of a delta: they wait until the call is started. -/
def processArguments (index : Int) (wasUnnamed : Bool) (arguments : String) : Chat Unit := do
  let state ← get
  let (tool, blocks) := state.sse.blocks.ensureToolState index
  if arguments = "" then pure ()
  else if tool.started then call.emitToolArgDelta index arguments
  else if wasUnnamed then
    set (state.withBlocks (blocks.setToolState index
      { tool with preStartArgs := tool.preStartArgs ++ arguments }))
  else do
    set (state.withBlocks blocks)
    call.emitToolArgDelta index arguments

/-- `_process_tool_call`; `tc.function.name` is read before it is called. -/
def processToolCall (tc : ToolCallDelta) : Chat Unit := do
  match tc.function with
  | none =>
    throw (.python (.attributeError "'NoneType' object has no attribute 'name'"))
  | some function =>
    let state ← get
    let index := toolCallIndex tc state.sse.blocks
    let blocks := registerToolCall index tc function state.sse.blocks
    let tool := blocks.toolStates.get? index
    set (state.withBlocks blocks)
    if (tool.any ToolCallState.started || unnamed tool) = false then call.startToolCall index tc
    call.processArguments index (unnamed tool) (function.arguments.getD "")

/-- `_iter_heuristic_tool_use_sse`: a whole block, behind the open text and thinking. -/
def iterHeuristicToolUseSse (toolUse : HeuristicTool) : Emit :=
  let input := if toolUse.name = "Task" ∧
      getKey toolUse.input "run_in_background" ≠ .bool false then
      setKey toolUse.input "run_in_background" (.bool false)
    else toolUse.input
  SseBuilder.closeContentBlocks.followedBy fun sse =>
    let index := sse.blocks.nextIndex
    ([contentBlockStart index (SseBuilder.toolUseBlock toolUse.id toolUse.name none),
        contentBlockDelta index
          [("type", .str "input_json_delta"), ("partial_json", .str (call.runtime.dumps (.obj input)))],
        contentBlockStop index],
      { sse with blocks := { sse.blocks with nextIndex := index + 1 } })

/-! ### Chunks -/

/-- Thinking, in its block. -/
def writeThinking (content : String) : Chat Unit :=
  call.write (SseBuilder.ensureThinkingBlock.followedBy (SseBuilder.emitThinkingDelta content))

/-- Text, in its block. -/
def writeText (content : String) : Chat Unit :=
  call.write (SseBuilder.ensureTextBlock.followedBy (SseBuilder.emitTextDelta content))

/-- The reasoning of a delta. -/
def handleReasoning (reasoning : String) : Chat Unit :=
  if call.thinkingEnabled ∧ reasoning ≠ "" then call.writeThinking reasoning else pure ()

/-- Text that may hold tool calls. -/
def handleTextPart (content : String) : Chat Unit := do
  let state ← get
  match state.heuristicParser.feed call.heuristicId call.isAlnum call.runtime content with
  | .error error => throw (.python error)
  | .ok (filteredText, detectedTools, heuristicParser) =>
    set { state with heuristicParser }
    if filteredText ≠ "" then call.writeText filteredText
    detectedTools.forM fun toolUse => call.write (call.iterHeuristicToolUseSse toolUse)

/-- A part of the content. -/
def handlePart (part : ContentChunk) : Chat Unit :=
  match part.type with
  | .thinking => if call.thinkingEnabled then call.writeThinking part.content else pure ()
  | .text => call.handleTextPart part.content

/-- The content of a delta. -/
def handleContent (content : String) : Chat Unit := do
  if content ≠ "" then
    let state ← get
    let (parts, thinkParser) := state.thinkParser.feed content
    set { state with thinkParser }
    parts.forM call.handlePart

/-- The tool calls of a delta. -/
def handleToolCalls (toolCalls : List ToolCallDelta) : Chat Unit := do
  if toolCalls ≠ [] then
    call.write SseBuilder.closeContentBlocks
    toolCalls.forM call.processToolCall

/-- One turn of the chunk loop. -/
def handleChunk (chunk : ChatChunk) : Chat Unit := do
  modify fun state => { state with usage := chunk.usage.or state.usage }
  match chunk.choices with
  | [] => pure ()
  | choice :: _ =>
    match choice.delta with
    | none => pure ()
    | some delta =>
      modify fun state => { state with
        finishReason := (choice.finishReason.filter (· ≠ "")).or state.finishReason }
      call.handleReasoning (delta.reasoningContent.getD "")
      call.handleContent (delta.content.getD "")
      call.handleToolCalls delta.toolCalls

/-- The chunk loop. -/
def readStream (stream : ChatStream) : Chat Unit := do
  stream.chunks.forM call.handleChunk
  match stream.ending with
  | some error => throw error
  | none =>
    if (← get).finishReason.isNone then throw .truncatedProviderStream

/-- One attempt. -/
def connect : Chat Unit := do
  modify fun state => { state with streamOpened := false }
  let (stream, body) ← requesting (call.createStream (← get).body)
  modify fun state => { state with body, streamOpened := true }
  match call.provider.toolArgumentAliases body with
  | .error error => throw error
  | .ok toolArgumentAliases =>
    modify fun state => { state with toolArgumentAliases }
    call.readStream stream

end OpenaiCall

end ClaudeProxy
