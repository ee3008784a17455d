/-
**The native transport** (`AnthropicMessagesTransport.stream_response`).

`streamResponse` opens a connection, sends its events through the block policy, the tracker and the
holdback buffer, and decides what to do when the connection fails: start over while nothing was
sent, recover, or end the message with an error. Its result is what the client receives, and the
exception that leaves the generator, if one does: only `can_salvage_tool_use`, called inside the
handler, can raise there.

The provider's other decisions are parameters of a `NativeCall`: what it answers to each request,
the clock and the event sizes the buffer sees, the text `_get_error_message` gives for an exception.
-/

import ClaudeProxy.Provider.NativeRecovery
import ClaudeProxy.Recovery.Holdback
import ClaudeProxy.Sse.Builder

namespace ClaudeProxy

/-- One call of `stream_response`, with what it depends on. -/
structure NativeCall where
  runtime : Runtime
  upstream : Upstream
  thinkingEnabled : Bool
  tools : List RequestTool
  body : Body
  model : String
  inputTokens : Int
  errorMessage : UpstreamError → String
  freshMessageId : String
  measured : Nat → Nat → SseEvent → Measured

/-- The state of one connection: `number` is its request's number, `chunks` the events pushed. -/
structure StreamState where
  policy : NativeSseBlockPolicyState := {}
  tracker : EmittedNativeSseTracker := {}
  holdback : RecoveryHoldbackBuffer SseEvent := {}
  chunks : Nat := 0
  yielded : List SseEvent := []

/-- How one connection ends: `none` when the response is complete. -/
structure StreamEnd where
  state : StreamState
  opened : Bool
  error : Option UpstreamError

section Stream

variable (call : NativeCall) (number : Nat)

/-- One event of the transformed stream, observed and pushed. -/
def pushEvent (state : StreamState) (event : SseEvent) : StreamState :=
  let (given, holdback) := state.holdback.push event (call.measured number state.chunks event)
  { state with
    tracker := state.tracker.observe event
    holdback := holdback
    chunks := state.chunks + 1
    yielded := state.yielded ++ given }

/-- The loop over the events of an open connection. -/
def readStream : StreamState → List SseEvent → Option UpstreamError → StreamEnd
  | state, [], some error => ⟨state, true, some error⟩
  | state, [], none =>
    if state.tracker.hasTerminalMessage then ⟨state, true, none⟩
    else ⟨state, true, some .truncatedProviderStream⟩
  | state, event :: rest, ending =>
    match transformNativeSseBlockEvent event state.policy call.thinkingEnabled with
    | .error error => ⟨state, true, some (.python error)⟩
    | .ok (output, policy) =>
      readStream ((output.getD []).foldl (pushEvent call number) { state with policy }) rest ending

/-- One connection, from a fresh state. -/
def connect : StreamEnd :=
  match call.upstream number call.body with
  | .refused error => ⟨{}, false, some error⟩
  | .opened events ending => readStream call number {} events ending

end Stream

/-- `complete_tool_salvageable`. -/
def completeToolSalvageable (call : NativeCall) (tracker : EmittedNativeSseTracker) :
    Except PyError Bool :=
  if tracker.hasContentBlock then
    canSalvageToolUse call.runtime (toolSchemasByName call.tools) tracker
  else .ok false

/-- Whether a failed connection is started over. -/
def startsOver (ended : StreamEnd) (error : UpstreamError) (salvageable : Bool) (retries : Nat) :
    Bool :=
  !ended.state.holdback.committed && ended.opened && isRetryableStreamError error &&
    !salvageable && decide (0 < retries)

/-- `iter_midstream_error_tail`. -/
def iterMidstreamErrorTail (call : NativeCall) (tracker : EmittedNativeSseTracker)
    (errorMessage : String) : List SseEvent :=
  errorBlockEvents
    { messageId := tracker.messageId.getD call.freshMessageId
      model := if tracker.model = "" then call.model else tracker.model
      inputTokens := call.inputTokens
      blocks := { nextIndex := tracker.nextContentIndex } }
    errorMessage

/-- `_emit_error_events`, when nothing was sent. -/
def emitErrorEvents (call : NativeCall) (errorMessage : String) : List SseEvent :=
  iterProviderStreamErrorSseEvents
    { messageId := call.freshMessageId, model := call.model, inputTokens := call.inputTokens }
    errorMessage false

/-- The end of a message that could not be recovered, behind what was already yielded. -/
def errorTail (call : NativeCall) (state : StreamState) (tracker : EmittedNativeSseTracker)
    (error : UpstreamError) : List SseEvent :=
  if state.holdback.committed || state.holdback.hasBuffered then
    let (closed, tracker) := tracker.iterCloseUnclosedBlocks
    state.holdback.flush.1 ++ closed ++
      iterMidstreamErrorTail call tracker (call.errorMessage error)
  else emitErrorEvents call (call.errorMessage error)

/-- The handler's last part: recover, or end in an error. -/
def recoverOrFail (call : NativeCall) (number : Nat) (state : StreamState)
    (error : UpstreamError) : List SseEvent :=
  if state.tracker.hasContentBlock && isRetryableStreamError error then
    match nativeRecoveryEvents call.runtime call.upstream call.thinkingEnabled call.tools
      call.body state.tracker error (number + 1) with
    | (.ok (some events), _) => state.holdback.flush.1 ++ events
    | (_, tracker) => errorTail call state tracker error
  else errorTail call state state.tracker error

/-- `stream_response`, with `retries` transparent retries left, from request `number` on. -/
def streamResponse (call : NativeCall) :
    (retries : Nat) → (number : Nat) → List SseEvent × Option PyError
  | retries, number =>
    let ended := connect call number
    match ended.error with
    | none => (ended.state.yielded ++ ended.state.holdback.flush.1, none)
    | some error =>
      match completeToolSalvageable call ended.state.tracker with
      | .error raised => (ended.state.yielded, some raised)
      | .ok salvageable =>
        match startsOver ended error salvageable retries, retries with
        | true, retries + 1 =>
          let (later, raised) := streamResponse call retries (number + 1)
          (ended.state.yielded ++ later, raised)
        | _, _ => (ended.state.yielded ++ recoverOrFail call number ended.state error, none)

end ClaudeProxy
