/-
**The native SSE block policy** (`core/anthropic/native_sse_block_policy.py`).

`transformNativeSseBlockEvent` normalises one upstream event: it drops thinking blocks when thinking
is disabled, gives every block segment a fresh downstream index, closes the other open blocks when a
block starts, and reopens a block whose delta arrives after such a close. Here it works on events
after framing; `prefix + format_native_sse_event(...)` is a list of events, `return event` is the
event itself and `return None` the empty answer.

The three content-block branches read the payload with `.get`, so a payload that is JSON but no
object raises there.
-/

import ClaudeProxy.Python
import ClaudeProxy.Sse.Event

namespace ClaudeProxy

open Json (getKey setKey)

/-- Per upstream block: its segment's downstream index and whether that segment is open. -/
structure UpstreamBlockState where
  blockType : String
  downIndex : Int
  isOpen : Bool
  lastStartBlock : Option (List (String × Json))
  deriving DecidableEq

/-- The policy's state; `dropped_indexes` and `pending_suppressed_stops` are sets. -/
structure NativeSseBlockPolicyState where
  nextIndex : Int := 0
  byUpstream : Dict Int UpstreamBlockState := ∅
  droppedIndexes : Finset Int := ∅
  pendingSuppressedStops : Finset Int := ∅
  deriving DecidableEq

/-- `_delta_type_to_block_kind`. -/
def deltaTypeToBlockKind (deltaType : Json) : Option String :=
  match deltaType with
  | .str name =>
    if name = "thinking_delta" ∨ name = "signature_delta" then some "thinking"
    else if name = "text_delta" then some "text"
    else if name = "input_json_delta" then some "tool_use"
    else none
  | _ => none

/-- `_synthetic_start_content_block`. -/
def syntheticStartContentBlock (blockKind : String) (upstreamIndex : Int)
    (storedToolBlock : Option (List (String × Json))) : List (String × Json) :=
  if blockKind = "tool_use" then
    match storedToolBlock with
    | some stored =>
      if getKey stored "type" = .str "tool_use" then
        [("type", .str "tool_use"),
          ("id", match getKey stored "id" with
            | .str toolId =>
              if toolId ≠ "" then .str toolId else .str s!"toolu_or_{upstreamIndex}"
            | _ => .str s!"toolu_or_{upstreamIndex}"),
          ("name", match getKey stored "name" with
            | .str name => .str name
            | _ => .str ""),
          ("input", match getKey stored "input" with
            | .obj input => .obj input
            | _ => .obj [])]
      else
        [("type", .str "tool_use"), ("id", .str s!"toolu_or_{upstreamIndex}"),
          ("name", .str ""), ("input", .obj [])]
    | none =>
      [("type", .str "tool_use"), ("id", .str s!"toolu_or_{upstreamIndex}"),
        ("name", .str ""), ("input", .obj [])]
  else if blockKind = "thinking" then [("type", .str "thinking"), ("thinking", .str "")]
  else [("type", .str "text"), ("text", .str "")]

/-- `_should_drop_block_type`. -/
def shouldDropBlockType (blockType : Json) (thinkingEnabled : Bool) : Bool :=
  match blockType with
  | .str name =>
    if Py.startsWith name "redacted_thinking" then !thinkingEnabled
    else !thinkingEnabled && Py.contains name "thinking"
  | _ => false

/-- The open blocks other than the current one, in insertion order. -/
def otherOpenBlocks (state : NativeSseBlockPolicyState) (currentUpstream : Int) :
    List (Int × UpstreamBlockState) :=
  state.byUpstream.entries.filter fun entry => entry.1 ≠ currentUpstream && entry.2.isOpen

/-- `_synthetic_close_other_open_blocks`. -/
def syntheticCloseOtherOpenBlocks (state : NativeSseBlockPolicyState) (currentUpstream : Int) :
    List SseEvent × NativeSseBlockPolicyState :=
  let closing := otherOpenBlocks state currentUpstream
  (closing.map fun entry => contentBlockStop entry.2.downIndex,
    { state with
      byUpstream := state.byUpstream.mapValues fun upstream seg =>
        if upstream ≠ currentUpstream ∧ seg.isOpen then { seg with isOpen := false } else seg
      pendingSuppressedStops :=
        state.pendingSuppressedStops ∪ (closing.map Prod.fst).toFinset })

/-- `_allocate_new_segment`. -/
def allocateNewSegment (state : NativeSseBlockPolicyState) (upstreamIndex : Int)
    (blockType : String) (lastStartBlock : Option (List (String × Json))) :
    Int × NativeSseBlockPolicyState :=
  (state.nextIndex,
    { state with
      nextIndex := state.nextIndex + 1
      byUpstream := state.byUpstream.set upstreamIndex
        ⟨blockType, state.nextIndex, true, lastStartBlock⟩ })

/-- What a call returns: the events to yield (`none` drops the event), and the new state. -/
abbrev PolicyResult := Option (List SseEvent) × NativeSseBlockPolicyState

/-- The `content_block_start` branch. -/
def transformStart (event : SseEvent) (payload : List (String × Json))
    (state : NativeSseBlockPolicyState) (thinkingEnabled : Bool) : PolicyResult :=
  match getKey payload "content_block", (getKey payload "index").asInt? with
  | .obj block, some upstreamIndex =>
    let blockType := getKey block "type"
    if shouldDropBlockType blockType thinkingEnabled then
      (none, { state with droppedIndexes := insert upstreamIndex state.droppedIndexes })
    else
      match blockType with
      | .str blockType =>
        let (closed, state) := syntheticCloseOtherOpenBlocks state upstreamIndex
        let (newIdx, state) := allocateNewSegment state upstreamIndex blockType (some block)
        (some (closed ++ [formatSseEvent event.event (setKey payload "index" (.int newIdx))]),
          state)
      | _ => (some [event], state)
  | _, _ => (some [event], state)

/-- Start a segment under a delta: the synthetic start, then the delta at the new index. -/
def openSegment (event : SseEvent) (payload : List (String × Json)) (upstreamIndex : Int)
    (blockKind : String) (lastStartBlock : Option (List (String × Json)))
    (startBlock : List (String × Json)) (state : NativeSseBlockPolicyState) : PolicyResult :=
  let (newIdx, state) := allocateNewSegment state upstreamIndex blockKind lastStartBlock
  (some [contentBlockStart newIdx startBlock,
    formatSseEvent event.event (setKey payload "index" (.int newIdx))], state)

/-- The stored start block of a segment, when it is a `tool_use` block. -/
def storedTool (carry : Option (List (String × Json))) : Option (List (String × Json)) :=
  carry.filter fun block => getKey block "type" = .str "tool_use"

/-- The `content_block_delta` branch. -/
def transformDelta (event : SseEvent) (payload : List (String × Json))
    (state : NativeSseBlockPolicyState) (thinkingEnabled : Bool) : PolicyResult :=
  match getKey payload "delta", (getKey payload "index").asInt? with
  | .obj delta, some upstreamIndex =>
    let deltaType := getKey delta "type"
    if upstreamIndex ∈ state.droppedIndexes then (none, state)
    else if shouldDropBlockType deltaType thinkingEnabled then (none, state)
    else
      match deltaTypeToBlockKind deltaType with
      | none => (some [event], state)
      | some blockKind =>
        match state.byUpstream.get? upstreamIndex with
        | some seg =>
          if seg.isOpen then
            (some [formatSseEvent event.event (setKey payload "index" (.int seg.downIndex))],
              state)
          else
            -- a delta after a synthetic close: reopen the block under a new index
            openSegment event payload upstreamIndex blockKind seg.lastStartBlock
              (syntheticStartContentBlock blockKind upstreamIndex
                (storedTool seg.lastStartBlock))
              { state with
                pendingSuppressedStops := state.pendingSuppressedStops.erase upstreamIndex }
        | none =>
          if blockKind = "text" ∨ blockKind = "tool_use" then
            let syntheticBlock := syntheticStartContentBlock blockKind upstreamIndex none
            openSegment event payload upstreamIndex blockKind (some syntheticBlock)
              syntheticBlock state
          else (some [event], state)
  | _, _ => (some [event], state)

/-- The `content_block_stop` branch. -/
def transformStop (event : SseEvent) (payload : List (String × Json))
    (state : NativeSseBlockPolicyState) (thinkingEnabled : Bool) : PolicyResult :=
  match (getKey payload "index").asInt? with
  | none => (some [event], state)
  | some upstreamIndex =>
    if upstreamIndex ∈ state.droppedIndexes then (none, state)
    else if upstreamIndex ∈ state.pendingSuppressedStops then
      (none, { state with
        pendingSuppressedStops := state.pendingSuppressedStops.erase upstreamIndex })
    else
      match state.byUpstream.get? upstreamIndex with
      | some seg =>
        if seg.isOpen then
          (some [formatSseEvent event.event (setKey payload "index" (.int seg.downIndex))],
            { state with
              byUpstream := state.byUpstream.set upstreamIndex { seg with isOpen := false } })
        else (none, state)
      | none => if !thinkingEnabled then (none, state) else (some [event], state)

/-- `transform_native_sse_block_event`. -/
def transformNativeSseBlockEvent (event : SseEvent) (state : NativeSseBlockPolicyState)
    (thinkingEnabled : Bool) : Except PyError PolicyResult :=
  match event.data with
  | none => .ok (some [event], state)
  | some payload =>
    if event.event = "" then .ok (some [event], state)
    else if event.event = "content_block_start" then
      match payload with
      | .obj payload => .ok (transformStart event payload state thinkingEnabled)
      | _ => .error (.attributeError "object has no attribute 'get'")
    else if event.event = "content_block_delta" then
      match payload with
      | .obj payload => .ok (transformDelta event payload state thinkingEnabled)
      | _ => .error (.attributeError "object has no attribute 'get'")
    else if event.event = "content_block_stop" then
      match payload with
      | .obj payload => .ok (transformStop event payload state thinkingEnabled)
      | _ => .error (.attributeError "object has no attribute 'get'")
    else .ok (some [event], state)

section Branches

variable {event : SseEvent} {payload : List (String × Json)} {state : NativeSseBlockPolicyState}
  {thinkingEnabled : Bool}

theorem transform_start (name : event.event = "content_block_start")
    (data : event.data = some (.obj payload)) :
    transformNativeSseBlockEvent event state thinkingEnabled =
      .ok (transformStart event payload state thinkingEnabled) := by
  unfold transformNativeSseBlockEvent
  rw [data, name]
  rfl

theorem transform_delta (name : event.event = "content_block_delta")
    (data : event.data = some (.obj payload)) :
    transformNativeSseBlockEvent event state thinkingEnabled =
      .ok (transformDelta event payload state thinkingEnabled) := by
  unfold transformNativeSseBlockEvent
  rw [data, name]
  rfl

theorem transform_stop (name : event.event = "content_block_stop")
    (data : event.data = some (.obj payload)) :
    transformNativeSseBlockEvent event state thinkingEnabled =
      .ok (transformStop event payload state thinkingEnabled) := by
  unfold transformNativeSseBlockEvent
  rw [data, name]
  rfl

/-- An event that is no content-block event passes through. -/
theorem transform_other (other : event.isBlockEvent = false) :
    transformNativeSseBlockEvent event state thinkingEnabled = .ok (some [event], state) := by
  simp only [SseEvent.isBlockEvent, Bool.or_eq_false_iff, decide_eq_false_iff_not] at other
  unfold transformNativeSseBlockEvent
  rcases event.data with _ | payload
  · rfl
  · simp only [other.1.1, other.1.2, other.2, if_false, ite_self]

end Branches

/-- The events a whole upstream stream is turned into, and the state it leaves. -/
def transformNativeSseStream (thinkingEnabled : Bool) :
    NativeSseBlockPolicyState → List SseEvent →
      Except PyError (List SseEvent × NativeSseBlockPolicyState)
  | state, [] => .ok ([], state)
  | state, event :: rest =>
    match transformNativeSseBlockEvent event state thinkingEnabled with
    | .error error => .error error
    | .ok (events, state) =>
      match transformNativeSseStream thinkingEnabled state rest with
      | .error error => .error error
      | .ok (later, state) => .ok (events.getD [] ++ later, state)

end ClaudeProxy
