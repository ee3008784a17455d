/-
**Recovery of an interrupted chat stream** (`providers/openai_compat.py`).

* `collectRecoveryText` — `_collect_recovery_text`, over at most five requests;
* `repairOpenaiToolArgs` — `_repair_openai_tool_args`: the missing end of each started call;
* `recoveryEvents` — `_openai_recovery_events`: the events that end the message, or `none`.

Recovery changes the builder, and the change stays when it fails: `preparedRecovery` is the part that
writes blocks, `endMessage` the part that closes them, counts the tokens and may raise there.
-/

import ClaudeProxy.Provider.OpenaiChat

namespace ClaudeProxy

/-- A Python exception, raised. -/
def raising {α : Type} : Except PyError α → Chat α
  | .ok value => pure value
  | .error error => throw (.python error)

namespace OpenaiCall

variable (call : OpenaiCall)

/-! ### Texts -/

/-- One recovery request, read to its end: the text and the reasoning. -/
def collectOnce (body : Body) (number : Nat) : Except UpstreamError (String × String) × Nat :=
  match call.createStream body number with
  | (.error error, number) => (.error error, number)
  | (.ok (stream, _), number) =>
    match stream.ending with
    | some error => (.error error, number)
    | none =>
      let deltas := stream.chunks.filterMap fun chunk => chunk.choices.head?.bind Choice.delta
      (.ok (Py.join "" (deltas.filterMap ChoiceDelta.content),
        Py.join "" (deltas.filterMap ChoiceDelta.reasoningContent)), number)

/-- `_collect_recovery_text`, with `attempts` left and the last error. -/
def collectRecoveryText (body : Body) :
    Nat → Option UpstreamError → Nat → Except UpstreamError (String × String) × Nat
  | 0, some lastError, number => (.error lastError, number)
  | 0, none, number => (.ok ("", ""), number)
  | attempts + 1, _, number =>
    match call.collectOnce body number with
    | (.ok texts, number) => (.ok texts, number)
    | (.error error, number) =>
      if isRetryableStreamError error then
        collectRecoveryText body attempts (some error) number
      else (.error error, number)

/-- A recovery request, with its attempts. -/
def askForText (body : Body) : Chat (String × String) :=
  requesting (call.collectRecoveryText body midstreamRecoveryAttempts none)

/-! ### Tool calls -/

/-- The schemas of the request's tools. -/
def schemas : Dict String ToolSchema := toolSchemasByName call.tools

/-- The loop of `_all_started_tools_complete`. -/
def allComplete : List (Int × ToolCallState) → Except PyError Bool
  | [] => .ok true
  | (_, tool) :: rest =>
    match parseCompleteToolInput call.runtime call.schemas (Py.join "" tool.contents) tool.name with
    | .error error => .error error
    | .ok none => .ok false
    | .ok (some _) => allComplete rest

/-- `_all_started_tools_complete`. -/
def allStartedToolsComplete (sse : SseBuilder) : Except PyError Bool :=
  if sse.startedToolStates = [] then .ok false else call.allComplete sse.startedToolStates

/-- What there is of the arguments: those sent, or those that wait in a buffer. -/
def repairPrefix (tool : ToolCallState) (aliasBuffer : Option String) : String :=
  let emittedPrefix := Py.join "" tool.contents
  if emittedPrefix ≠ "" then emittedPrefix
  else if tool.name = "Task" ∧ tool.taskArgBuffer ≠ "" then tool.taskArgBuffer
  else aliasBuffer.getD ""

/-- The repair requests for one call, with `attempts` left: the accepted suffix. -/
def askForRepair (toolName pre : String) (recoveryBody : Body) : Nat → Chat (Option String)
  | 0 => pure none
  | attempts + 1 => do
    let (text, _) ← call.askForText recoveryBody
    match ← raising (acceptToolJsonRepair call.runtime call.schemas pre text toolName) with
    | some (suffix, _) => pure (some suffix)
    | none => askForRepair toolName pre recoveryBody attempts

/-- What one call still has to be sent; `none` when it cannot be completed. -/
def missingArgs (tool : ToolCallState) (aliasBuffer : Option String) : Chat (Option String) := do
  let emittedPrefix := Py.join "" tool.contents
  let pre := repairPrefix tool aliasBuffer
  match ← raising (parseCompleteToolInput call.runtime call.schemas pre tool.name) with
  | some _ => pure (some (if emittedPrefix = "" then pre else ""))
  | none =>
    let recoveryBody := makeToolRepairBody call.runtime (← get).body tool.name pre
      ((call.schemas.get? tool.name).map ToolSchema.inputSchema)
    match ← call.askForRepair tool.name pre recoveryBody midstreamRecoveryAttempts with
    | some suffix => pure (some (if emittedPrefix = "" then pre ++ suffix else suffix))
    | none => pure none

/-- A delta, unless it is empty. -/
def repairDelta (index : Int) (missing : String) : Chat (List SseEvent) :=
  if missing = "" then pure [] else toolDelta index missing

/-- `_repair_openai_tool_args`, over the started calls that are left. -/
def repairOpenaiToolArgs : List (Int × ToolCallState) → Chat (Option (List SseEvent))
  | [] => do
    if ← raising (call.allStartedToolsComplete (← get).sse) then pure (some []) else pure none
  | (index, tool) :: rest => do
    match ← call.missingArgs tool ((← get).aliasBuffers.get? index) with
    | none => pure none
    | some missing =>
      let events ← repairDelta index missing
      match ← repairOpenaiToolArgs rest with
      | none => pure none
      | some later => pure (some (events ++ later))

/-! ### The recovered message -/

/-- A suffix, written by a method of the builder. -/
def continued (emit : String → Emit) (suffix : Option String) : Chat (List SseEvent) :=
  if suffix.getD "" = "" then pure [] else emitted (emit (suffix.getD ""))

/-- The text branch: both suffixes, when there is one. -/
def continuedEvents (text thinking : String) : Chat (Option (List SseEvent × String)) := do
  let sse := (← get).sse
  let thinkingEvents ← continued
    (fun suffix => SseBuilder.ensureThinkingBlock.followedBy (SseBuilder.emitThinkingDelta suffix))
    (continuationSuffix sse.accumulatedReasoning thinking)
  let textEvents ← continued
    (fun suffix => SseBuilder.ensureTextBlock.followedBy (SseBuilder.emitTextDelta suffix))
    (continuationSuffix sse.accumulatedText text)
  if thinkingEvents ++ textEvents = [] then pure none
  else pure (some (thinkingEvents ++ textEvents, "end_turn"))

/-- What recovery adds to the blocks, and the stop reason; `none` when it adds nothing. -/
def preparedRecovery (error : UpstreamError) : Chat (Option (List SseEvent × String)) := do
  let state ← get
  if isRetryableStreamError error = false then pure none
  else if state.sse.blocks.hasEmittedToolBlock then
    if ← raising (call.allStartedToolsComplete state.sse) then pure (some ([], "tool_use"))
    else
      match ← call.repairOpenaiToolArgs state.sse.startedToolStates with
      | none => pure none
      | some events => pure (some (events, "tool_use"))
  else if state.sse.accumulatedText = "" ∧ state.sse.accumulatedReasoning = "" then pure none
  else
    let (text, thinking) ←
      call.askForText (makeTextRecoveryBody state.body state.sse.accumulatedText)
    continuedEvents text thinking

/-- The end of a message: its blocks are closed and its tokens estimated. -/
def endMessage (stopReason : String) : Chat (List SseEvent) := do
  let closed ← emitted SseBuilder.closeAllBlocks
  let sse := (← get).sse
  let outputTokens ← raising (sse.estimateOutputTokens call.encoder)
  pure (closed ++ [sse.messageDelta stopReason outputTokens, SseBuilder.messageStop])

/-- `_openai_recovery_events`. -/
def recoveryEvents (error : UpstreamError) : Chat (Option (List SseEvent)) := do
  match ← call.preparedRecovery error with
  | none => pure none
  | some (events, stopReason) => pure (some (events ++ (← call.endMessage stopReason)))

end OpenaiCall

end ClaudeProxy
