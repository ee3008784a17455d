/-
**The OpenAI transport** (`OpenAIChatTransport._stream_response_impl`).

`streamFrom` is the loop over the attempts: an attempt that ends with a finish reason is finished by
`finish`, behind the loop and outside its `try`; one that fails is handled by starting over while
nothing was sent, by recovery, or by the error exit. `streamResponse` is what the client receives, and
the exception that leaves the generator, if one does.
-/

import ClaudeProxy.Provider.ErrorTail
import ClaudeProxy.Provider.OpenaiRecovery

namespace ClaudeProxy

namespace OpenaiCall

variable (call : OpenaiCall)

/-! ### The end of a complete response -/

/-- What the think-tag parser still holds. -/
def flushThinkParser : Chat Unit := do
  let state ← get
  let (remaining, thinkParser) := state.thinkParser.flush
  set { state with thinkParser }
  match remaining with
  | none => pure ()
  | some part =>
    match part.type with
    | .thinking => if call.thinkingEnabled then call.writeThinking part.content else pure ()
    | .text => call.writeText part.content

/-- What the heuristic parser still holds. -/
def flushHeuristicParser : Chat Unit := do
  let state ← get
  let (toolUses, heuristicParser) := state.heuristicParser.flush
  set { state with heuristicParser }
  toolUses.forM fun toolUse => call.write (call.iterHeuristicToolUseSse toolUse)

/-- The minimal text block, for a message without blocks or with thinking only. -/
def ensureContent : Chat Unit := do
  let sse := (← get).sse
  let hasStartedTool := sse.blocks.hasEmittedToolBlock
  let hasContentBlocks := sse.blocks.textIndex ≠ -1 ∨ sse.blocks.thinkingIndex ≠ -1 ∨
    hasStartedTool = true
  if ¬hasContentBlocks then call.writeText " "
  else if hasStartedTool = false ∧ Py.strip sse.accumulatedText = "" ∧
      Py.strip sse.accumulatedReasoning ≠ "" then call.writeText " "
  else pure ()

/-- One turn of `_flush_tool_argument_alias_buffers`. -/
def flushAliasBuffer (index : Int) (bufferedArgs : String) : Chat Unit := do
  let state ← get
  let dropped := { state with aliasBuffers := state.aliasBuffers.erase index }
  if bufferedArgs = "" then set dropped
  else
    match state.sse.blocks.toolStates.get? index with
    | none => pure ()
    | some tool =>
      let aliases := (state.toolArgumentAliases.get? tool.name).getD ∅
      if tool.name = "Task" ∨ aliases.entries = [] then pure ()
      else
        let restored ← raising (call.restoreAliasedToolArguments bufferedArgs aliases)
        call.holdEvents (← toolDelta index (restored.getD bufferedArgs))
        modify fun state => { state with aliasBuffers := state.aliasBuffers.erase index }

/-- `_flush_tool_argument_alias_buffers`. -/
def flushToolArgumentAliasBuffers : Chat Unit := do
  (← get).aliasBuffers.entries.forM fun entry => call.flushAliasBuffer entry.1 entry.2

/-- `_flush_task_arg_buffers`. -/
def flushTaskArgBuffers : Chat Unit := do
  let state ← get
  let (outs, blocks) ← raising (state.sse.blocks.flushTaskArgBuffers call.runtime)
  set (state.withBlocks blocks)
  outs.forM fun out => do call.holdEvents (← toolDelta out.1 out.2)

/-- What is flushed before the Task buffers. -/
def flushContent : Chat Unit := do
  call.flushThinkParser
  call.flushHeuristicParser
  call.ensureContent
  call.flushToolArgumentAliasBuffers

/-- The tokens of the usage, or else an estimate. -/
def outputTokens : Chat Int := do
  let state ← get
  match state.usage.bind ChatUsage.completionTokens with
  | some completion => pure completion
  | none => raising (state.sse.estimateOutputTokens call.encoder)

/-- The buffer is flushed. -/
def flushHoldback : Chat Unit :=
  modify fun state => { state with
    yielded := state.yielded ++ state.holdback.flush.1
    holdback := state.holdback.flush.2 }

/-- The end of a complete response. -/
def finish : Chat Unit := do
  call.flushContent
  call.flushTaskArgBuffers
  call.write SseBuilder.closeAllBlocks
  let outputTokens ← call.outputTokens
  let state ← get
  call.holdEvents [state.sse.messageDelta (mapStopReason state.finishReason) outputTokens]
  call.holdEvents [SseBuilder.messageStop]
  flushHoldback

/-! ### The handler -/

/-- `_has_committed_sse_output`. -/
def hasCommittedSseOutput (sse : SseBuilder) : Bool :=
  sse.blocks.textIndex ≠ -1 || sse.blocks.thinkingIndex ≠ -1 || sse.blocks.hasEmittedToolBlock

/-- `complete_tool_salvageable`. -/
def completeToolSalvageable (sse : SseBuilder) : Except PyError Bool :=
  if hasCommittedSseOutput sse && sse.blocks.hasEmittedToolBlock then
    call.allStartedToolsComplete sse
  else .ok false

/-- Whether a failed attempt is started over. -/
def startsOver (state : ChatState) (error : UpstreamError) (salvageable : Bool) (retries : Nat) :
    Bool :=
  !state.holdback.committed && state.streamOpened && isRetryableStreamError error &&
    !salvageable && decide (0 < retries)

/-- The variables of the next attempt; the counters go on. -/
def startOver (state : ChatState) : ChatState :=
  { sse := call.newSseBuilder
    body := state.body
    requests := state.requests
    streamOpened := state.streamOpened
    pushes := state.pushes
    yielded := state.yielded
    heuristicParser := { ids := state.heuristicParser.ids } }

/-- Events that are not held. -/
def yieldEvents (events : List SseEvent) : Chat Unit :=
  modify fun state => { state with yielded := state.yielded ++ events }

/-- The message ends in an error. -/
def errorExit (error : UpstreamError) : Chat Unit := do
  let errorMessage ← raising (call.errorMessage error)
  let state ← get
  yieldEvents ((openaiErrorExit call.newSseBuilder state.sse state.holdback errorMessage).map
    ProviderChunk.event)

/-- The handler's last part: recover, or end in an error. -/
def recoverOrFail (error : UpstreamError) : Chat Unit := fun state =>
  if hasCommittedSseOutput state.sse && isRetryableStreamError error then
    match call.recoveryEvents error state with
    | .ok (some events) recovered =>
      (do
        flushHoldback
        yieldEvents events : Chat Unit) recovered
    | .ok none left => call.errorExit error left
    | .error _ left => call.errorExit error left
  else call.errorExit error state

/-- The attempts, with `retries` transparent retries left. -/
def streamFrom : (retries : Nat) → ChatState → EStateM.Result UpstreamError ChatState Unit
  | retries, state =>
    match call.connect state with
    | .ok _ ended => call.finish ended
    | .error error ended =>
      match call.completeToolSalvageable ended.sse with
      | .error raised => .error (.python raised) ended
      | .ok salvageable =>
        match startsOver ended error salvageable retries, retries with
        | true, retries + 1 => streamFrom retries (call.startOver ended)
        | _, _ => call.recoverOrFail error ended

/-- The variables at the start. -/
def initialState : ChatState := { sse := call.newSseBuilder, body := call.body }

/-- `_stream_response_impl`: what is yielded, and the exception that leaves it. -/
def streamResponse : List SseEvent × Option UpstreamError :=
  match call.streamFrom earlyTransparentMaxRetries call.initialState with
  | .ok _ state => (call.newSseBuilder.messageStart :: state.yielded, none)
  | .error error state => (call.newSseBuilder.messageStart :: state.yielded, some error)

end OpenaiCall

end ClaudeProxy
