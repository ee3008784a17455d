/-
**Streams that end in an error.**

* `ProviderChunk` — an event of a provider's stream. The mark `fromErrorTail` stands on the events
  that a transport writes to end a message in an error; a client cannot see it.
* `nativeStream` — the stream of the native transport with its marks; **`nativeStream_events`**: but
  for them it is `streamResponse`.
* `openaiErrorExit` — the error exit of the OpenAI transport.
-/

import ClaudeProxy.Library.Fallback
import ClaudeProxy.Provider.NativeTransport

namespace ClaudeProxy

/-! ### Chunks -/

/-- An event of a provider's stream, and whether its transport wrote it to end in an error. -/
structure ProviderChunk where
  event : SseEvent
  fromErrorTail : Bool
  deriving DecidableEq

/-- A transport error: an event of an error tail, or a top-level `error` event. -/
def ProviderChunk.carriesError (chunk : ProviderChunk) : Bool :=
  chunk.fromErrorTail || chunk.event.event = "error"

/-- Events of an answer. -/
def ordinary (events : List SseEvent) : List ProviderChunk := events.map (⟨·, false⟩)

/-- Events of an error tail. -/
def inErrorTail (events : List SseEvent) : List ProviderChunk := events.map (⟨·, true⟩)

@[simp]
theorem ordinary_events (events : List SseEvent) :
    (ordinary events).map ProviderChunk.event = events := by
  rw [ordinary, List.map_map]
  exact List.map_id _

@[simp]
theorem inErrorTail_events (events : List SseEvent) :
    (inErrorTail events).map ProviderChunk.event = events := by
  rw [inErrorTail, List.map_map]
  exact List.map_id _

/-- An error tail carries an error, unless it is empty. -/
theorem inErrorTail_carriesError {events : List SseEvent} (some_ : events ≠ []) :
    ∃ chunk ∈ inErrorTail events, chunk.carriesError = true := by
  obtain ⟨event, rest, rfl⟩ := List.exists_cons_of_ne_nil some_
  exact ⟨⟨event, true⟩, List.mem_cons_self, rfl⟩

/-! ### The native transport -/

/-- `errorTail`, with its marks. -/
def errorTailChunks (call : NativeCall) (state : StreamState) (tracker : EmittedNativeSseTracker)
    (error : UpstreamError) : List ProviderChunk :=
  if state.holdback.committed || state.holdback.hasBuffered then
    let (closed, tracker) := tracker.iterCloseUnclosedBlocks
    ordinary (state.holdback.flush.1 ++ closed) ++
      inErrorTail (iterMidstreamErrorTail call tracker (call.errorMessage error))
  else inErrorTail (emitErrorEvents call (call.errorMessage error))

/-- `recoverOrFail`, with its marks. -/
def recoverOrFailChunks (call : NativeCall) (number : Nat) (state : StreamState)
    (error : UpstreamError) : List ProviderChunk :=
  if state.tracker.hasContentBlock && isRetryableStreamError error then
    match nativeRecoveryEvents call.runtime call.upstream call.thinkingEnabled call.tools
      call.body state.tracker error (number + 1) with
    | (.ok (some events), _) => ordinary (state.holdback.flush.1 ++ events)
    | (_, tracker) => errorTailChunks call state tracker error
  else errorTailChunks call state state.tracker error

/-- `streamResponse`, with its marks. -/
def nativeStream (call : NativeCall) : (retries : Nat) → (number : Nat) → Output ProviderChunk
  | retries, number =>
    let ended := connect call number
    match ended.error with
    | none => ⟨ordinary (ended.state.yielded ++ ended.state.holdback.flush.1), .completes⟩
    | some error =>
      match completeToolSalvageable call ended.state.tracker with
      | .error _ => ⟨ordinary ended.state.yielded, .fails⟩
      | .ok salvageable =>
        match startsOver ended error salvageable retries, retries with
        | true, retries + 1 =>
          let later := nativeStream call retries (number + 1)
          ⟨ordinary ended.state.yielded ++ later.chunks, later.ending⟩
        | _, _ =>
          ⟨ordinary ended.state.yielded ++ recoverOrFailChunks call number ended.state error,
            .completes⟩

theorem errorTailChunks_events (call : NativeCall) (state : StreamState)
    (tracker : EmittedNativeSseTracker) (error : UpstreamError) :
    (errorTailChunks call state tracker error).map ProviderChunk.event =
      errorTail call state tracker error := by
  unfold errorTailChunks errorTail
  split_ifs
  · simp only [List.map_append, ordinary_events, inErrorTail_events]
  · rw [inErrorTail_events]

theorem recoverOrFailChunks_events (call : NativeCall) (number : Nat) (state : StreamState)
    (error : UpstreamError) :
    (recoverOrFailChunks call number state error).map ProviderChunk.event =
      recoverOrFail call number state error := by
  unfold recoverOrFailChunks recoverOrFail
  split_ifs
  · rcases nativeRecoveryEvents call.runtime call.upstream call.thinkingEnabled call.tools call.body
      state.tracker error (number + 1) with ⟨_ | (_ | events), tracker⟩
    · exact errorTailChunks_events call state tracker error
    · exact errorTailChunks_events call state tracker error
    · exact ordinary_events _
  · exact errorTailChunks_events call state _ error

/-- What a connection leaves behind that is not started over. -/
theorem exit_events (call : NativeCall) (number : Nat) (error : UpstreamError) :
    (ordinary (connect call number).state.yielded ++
        recoverOrFailChunks call number (connect call number).state error).map ProviderChunk.event =
      (connect call number).state.yielded ++
        recoverOrFail call number (connect call number).state error := by
  rw [List.map_append, ordinary_events, recoverOrFailChunks_events]

/-- It ends normally. -/
theorem completed_iff : Ending.completes = .fails ↔ (none : Option PyError).isSome = true :=
  iff_of_false (by decide) (by decide)

/-- **Without the marks, the stream is that of the transport**, and it fails where that one raises. -/
theorem nativeStream_events (call : NativeCall) (retries number : Nat) :
    (nativeStream call retries number).chunks.map ProviderChunk.event =
        (streamResponse call retries number).1 ∧
      ((nativeStream call retries number).ending = .fails ↔
        (streamResponse call retries number).2.isSome = true) := by
  induction retries generalizing number with
  | zero =>
    rw [nativeStream, streamResponse]
    dsimp only
    rcases (connect call number).error with _ | error
    · exact ⟨ordinary_events _, completed_iff⟩
    · rcases completeToolSalvageable call (connect call number).state.tracker with raised | salvageable
      · exact ⟨ordinary_events _, fun _ => rfl, fun _ => rfl⟩
      · dsimp only
        rcases startsOver (connect call number) error salvageable 0 with _ | _
        · exact ⟨exit_events call number error, completed_iff⟩
        · exact ⟨exit_events call number error, completed_iff⟩
  | succ retries ih =>
    rw [nativeStream, streamResponse]
    dsimp only
    rcases (connect call number).error with _ | error
    · exact ⟨ordinary_events _, completed_iff⟩
    · rcases completeToolSalvageable call (connect call number).state.tracker with raised | salvageable
      · exact ⟨ordinary_events _, fun _ => rfl, fun _ => rfl⟩
      · dsimp only
        rcases startsOver (connect call number) error salvageable (retries + 1) with _ | _
        · exact ⟨exit_events call number error, completed_iff⟩
        · obtain ⟨events, ending⟩ := ih (number + 1)
          refine ⟨?_, ending⟩
          dsimp only
          rw [List.map_append, ordinary_events, events]

/-! ### The OpenAI transport -/

/-- `_emit_openai_error_tail`. -/
def emitOpenaiErrorTail (errorMessage : String) : Emit :=
  (SseBuilder.closeAllBlocks.followedBy fun sse =>
    if sse.blocks.hasEmittedToolBlock then ([SseBuilder.emitTopLevelError errorMessage], sse)
    else sse.emitError errorMessage).followedBy fun sse =>
      ([sse.messageDelta "end_turn" 1, SseBuilder.messageStop], sse)

/-- The error exit of `_stream_response_impl`: the held events are sent, or dropped for a message
without any, and the error tail ends the message. -/
def openaiErrorExit (fresh sse : SseBuilder) (holdback : RecoveryHoldbackBuffer SseEvent)
    (errorMessage : String) : List ProviderChunk :=
  if !holdback.committed && holdback.hasBuffered then
    ordinary holdback.flush.1 ++ inErrorTail (emitOpenaiErrorTail errorMessage sse).1
  else if !holdback.committed then inErrorTail (emitOpenaiErrorTail errorMessage fresh).1
  else inErrorTail (emitOpenaiErrorTail errorMessage sse).1

end ClaudeProxy
