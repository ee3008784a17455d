/-
**Tool-call deltas, one by one.**

* `callAt` — the state of a call, fresh where there is none; what a delta registers of it.
* `ChatMoves` — the events that were pushed between two states; the parsers and the finish reason stay.
* `Delivers` — argument text for a started call: `emitToolArgDelta_ok`.
* **`processToolCall_ok`** — what a delta can do: its arguments go to the started call, or they start
  it, or they wait for its name.
-/

import ClaudeProxy.Provider.OpenaiInvariant
import ClaudeProxy.Sse.ToolIntegrity

namespace ClaudeProxy

open Json (getKey)
open RecoveryHoldbackBuffer (Outgoing)

/-! ### The state of a call -/

/-- The state that `ensure_tool_state` makes. -/
def ToolCallState.fresh : ToolCallState := { blockIndex := -1, toolId := "", name := "" }

/-- The name behind another fragment. -/
def registeredName (name fragment : String) : String :=
  if name = "" || Py.startsWith fragment name then fragment
  else if !Py.startsWith name fragment then name ++ fragment
  else name

namespace ContentBlockManager

variable (blocks : ContentBlockManager) (index other : Int)

/-- The state of a call, fresh where there is none. -/
def callAt : ToolCallState := (blocks.toolStates.get? index).getD ToolCallState.fresh

variable {blocks index}

theorem callAt_of_found {tool : ToolCallState} (found : blocks.toolStates.get? index = some tool) :
    blocks.callAt index = tool := by
  rw [callAt, found, Option.getD_some]

/-- A started call has a state. -/
theorem found_of_started (started : (blocks.callAt index).started = true) :
    blocks.toolStates.get? index = some (blocks.callAt index) := by
  unfold callAt at started ⊢
  cases found : blocks.toolStates.get? index with
  | some tool => rfl
  | none =>
    rw [found] at started
    cases started

theorem callAt_setToolState (tool : ToolCallState) :
    (blocks.setToolState index tool).callAt other =
      if other = index then tool else blocks.callAt other := by
  show ((blocks.toolStates.set index tool).get? other).getD _ = _
  rw [Dict.get?_set]
  split_ifs <;> rfl

theorem callAt_ensureToolState : (blocks.ensureToolState index).1 = blocks.callAt index ∧
    (blocks.ensureToolState index).2.callAt other = blocks.callAt other ∧
    (blocks.ensureToolState index).2.nextIndex = blocks.nextIndex := by
  unfold ensureToolState
  cases found : blocks.toolStates.get? index with
  | some tool => exact ⟨(callAt_of_found found).symm, rfl, rfl⟩
  | none =>
    have fresh : blocks.callAt index = ToolCallState.fresh := by
      rw [callAt, found, Option.getD_none]
    refine ⟨fresh.symm, ?_, rfl⟩
    show (blocks.setToolState index ToolCallState.fresh).callAt other = _
    rw [callAt_setToolState]
    split_ifs with same
    · rw [same, fresh]
    · rfl

/-- What changes the state of a call changes no other, and opens no block. -/
structure Revises (blocks next : ContentBlockManager) (index : Int) (tool : ToolCallState) :
    Prop where
  here : next.callAt index = tool
  others : ∀ other, other ≠ index → next.callAt other = blocks.callAt other
  nextIndex : next.nextIndex = blocks.nextIndex

theorem Revises.refl : Revises blocks blocks index (blocks.callAt index) :=
  ⟨rfl, fun _ _ => rfl, rfl⟩

theorem Revises.trans {middle next : ContentBlockManager} {tool later : ToolCallState}
    (first : Revises blocks middle index tool) (second : Revises middle next index later) :
    Revises blocks next index later :=
  ⟨second.here, fun other away => (second.others other away).trans (first.others other away),
    second.nextIndex.trans first.nextIndex⟩

theorem revises_setToolState (tool : ToolCallState) :
    Revises blocks (blocks.setToolState index tool) index tool := by
  refine ⟨?_, fun other away => ?_, rfl⟩
  · rw [callAt_setToolState, if_pos rfl]
  · rw [callAt_setToolState, if_neg away]

theorem revises_ensured (change : ToolCallState → ToolCallState) :
    Revises blocks ((blocks.ensureToolState index).2.setToolState index
      (change (blocks.ensureToolState index).1)) index (change (blocks.callAt index)) := by
  have revised := @revises_setToolState (blocks.ensureToolState index).2 index
    (change (blocks.ensureToolState index).1)
  refine ⟨?_, fun other away => ?_, ?_⟩
  · rw [revised.here, (callAt_ensureToolState index).1]
  · rw [revised.others other away, (callAt_ensureToolState other).2.1]
  · exact revised.nextIndex.trans (callAt_ensureToolState index).2.2

theorem revises_setStreamToolId (toolId : String) :
    Revises blocks (blocks.setStreamToolId index toolId) index
      (if toolId = "" then blocks.callAt index else { blocks.callAt index with toolId }) := by
  unfold setStreamToolId
  split_ifs
  · exact Revises.refl
  · exact revises_ensured fun tool => { tool with toolId }

theorem revises_setToolExtraContent (extraContent : List (String × Json)) :
    Revises blocks (blocks.setToolExtraContent index extraContent) index
      { blocks.callAt index with extraContent := some extraContent } :=
  revises_ensured fun tool => { tool with extraContent := some extraContent }

theorem revises_registerToolName (name : String) :
    Revises blocks (blocks.registerToolName index name) index
      { blocks.callAt index with name := registeredName (blocks.callAt index).name name } := by
  unfold registerToolName registeredName
  cases found : blocks.toolStates.get? index with
  | none =>
    have fresh : blocks.callAt index = ToolCallState.fresh := by
      rw [callAt, found, Option.getD_none]
    rw [fresh]
    exact revises_setToolState _
  | some tool =>
    rw [callAt_of_found found]
    dsimp only
    split_ifs
    · exact revises_setToolState _
    · exact revises_setToolState _
    · have same := @Revises.refl blocks index
      rwa [callAt_of_found found] at same

end ContentBlockManager

namespace OpenaiCall

open ContentBlockManager (Revises)

variable {call : OpenaiCall}

/-- The id of a delta, registered. -/
def identified (tc : ToolCallDelta) (tool : ToolCallState) : ToolCallState :=
  match tc.id with
  | some toolId => if toolId = "" then tool else { tool with toolId }
  | none => tool

/-- Its extra content. -/
def extended (tc : ToolCallDelta) (tool : ToolCallState) : ToolCallState :=
  match tc.extraContent with
  | some (field :: fields) => { tool with extraContent := some (field :: fields) }
  | _ => tool

/-- Its name fragment. -/
def named (function : FunctionDelta) (tool : ToolCallState) : ToolCallState :=
  match function.name with
  | some name => { tool with name := registeredName tool.name name }
  | none => tool

/-- What a delta tells of the state of its call. -/
def registered (tc : ToolCallDelta) (function : FunctionDelta) (tool : ToolCallState) :
    ToolCallState :=
  named function (extended tc (identified tc tool))

theorem revises_registerToolCall (index : Int) (tc : ToolCallDelta) (function : FunctionDelta)
    (blocks : ContentBlockManager) :
    Revises blocks (registerToolCall index tc function blocks) index
      (registered tc function (blocks.callAt index)) := by
  have first : Revises blocks (registerToolId index tc blocks) index
      (identified tc (blocks.callAt index)) := by
    unfold registerToolId identified
    cases tc.id with
    | none => exact Revises.refl
    | some toolId => exact ContentBlockManager.revises_setStreamToolId toolId
  have second : Revises (registerToolId index tc blocks)
      (registerExtraContent index tc (registerToolId index tc blocks)) index
      (extended tc (identified tc (blocks.callAt index))) := by
    rw [← first.here]
    unfold registerExtraContent extended
    rcases tc.extraContent with _ | _ | ⟨field, fields⟩
    · exact Revises.refl
    · exact Revises.refl
    · exact ContentBlockManager.revises_setToolExtraContent _
  refine (first.trans second).trans ?_
  unfold registered
  rw [← second.here]
  unfold registerToolCall named
  cases function.name with
  | none => exact Revises.refl
  | some name => exact ContentBlockManager.revises_registerToolName name

section Registered

variable (tc : ToolCallDelta) (function : FunctionDelta) (tool : ToolCallState)

/-- A delta tells nothing of the block and of the arguments. -/
theorem registered_rest : (registered tc function tool).started = tool.started ∧
    (registered tc function tool).blockIndex = tool.blockIndex ∧
    (registered tc function tool).preStartArgs = tool.preStartArgs ∧
    (registered tc function tool).taskArgBuffer = tool.taskArgBuffer ∧
    (registered tc function tool).contents = tool.contents := by
  unfold registered named extended identified
  refine ⟨?_, ?_, ?_, ?_, ?_⟩
  all_goals
    split <;> split <;> split <;> try split_ifs
  all_goals rfl

theorem registered_name : (registered tc function tool).name =
    (function.name.map (registeredName tool.name)).getD tool.name := by
  have same : (extended tc (identified tc tool)).name = tool.name := by
    unfold extended identified
    split <;> split <;> try split_ifs
    all_goals rfl
  unfold registered named
  cases function.name with
  | none => exact same
  | some name => exact congrArg (registeredName · name) same

theorem registered_toolId : (registered tc function tool).toolId =
    if tc.id.getD "" = "" then tool.toolId else tc.id.getD "" := by
  have same : (registered tc function tool).toolId = (identified tc tool).toolId := by
    unfold registered named extended
    split <;> split <;> rfl
  rw [same]
  unfold identified
  cases tc.id with
  | none => rfl
  | some toolId =>
    dsimp only [Option.getD_some]
    split_ifs <;> rfl

end Registered

end OpenaiCall

/-! ### Between two states -/

/-- The variables that only the chunk loop changes. -/
structure ChatReading where
  thinkParser : ThinkTagParser
  heuristicParser : HeuristicToolParser
  finishReason : Option String
  usage : Option ChatUsage
  toolArgumentAliases : Dict String (Dict String String)

def ChatState.reading (state : ChatState) : ChatReading :=
  ⟨state.thinkParser, state.heuristicParser, state.finishReason, state.usage,
    state.toolArgumentAliases⟩

/-- The state of a call. -/
def ChatState.callAt (state : ChatState) (index : Int) : ToolCallState :=
  state.sse.blocks.callAt index

/-- The events were pushed, and the variables of the chunk loop are the same. -/
structure ChatMoves (state next : ChatState) (events : List SseEvent) : Prop where
  pushes : ∀ out, Outgoing state.yielded state.holdback out →
    Outgoing next.yielded next.holdback (out ++ events)
  reading : next.reading = state.reading

namespace ChatMoves

variable {state middle next : ChatState} {first second : List SseEvent}

theorem refl : ChatMoves state state [] := by
  refine ⟨fun out outgoing => ?_, rfl⟩
  rwa [List.append_nil]

/-- Variables that are no part of the chunk loop, and of what was pushed. -/
theorem of_same (yielded : next.yielded = state.yielded) (holdback : next.holdback = state.holdback)
    (reading : next.reading = state.reading) : ChatMoves state next [] := by
  refine ⟨fun out outgoing => ?_, reading⟩
  rwa [yielded, holdback, List.append_nil]

theorem trans (before : ChatMoves state middle first) (after : ChatMoves middle next second) :
    ChatMoves state next (first ++ second) := by
  refine ⟨fun out outgoing => ?_, after.reading.trans before.reading⟩
  rw [← List.append_assoc]
  exact after.pushes _ (before.pushes out outgoing)

end ChatMoves

/-- A piece of argument text. -/
def inputDelta (block : Int) (piece : String) : SseEvent :=
  contentBlockDelta block [("type", .str "input_json_delta"), ("partial_json", .str piece)]

/-- The same call, but for what it has received. -/
def ToolCallState.Same (tool later : ToolCallState) : Prop :=
  later = { tool with
    contents := later.contents
    taskArgBuffer := later.taskArgBuffer
    taskArgsEmitted := later.taskArgsEmitted }

theorem ToolCallState.Same.trans {tool middle later : ToolCallState} (first : ToolCallState.Same tool middle)
    (second : ToolCallState.Same middle later) : ToolCallState.Same tool later := by
  unfold ToolCallState.Same at first second ⊢
  rw [second, first]

/-- The call of that index gets those pieces of argument text. -/
structure Delivers (state next : ChatState) (index : Int) (pieces : List String) : Prop where
  moves : ChatMoves state next (pieces.map (inputDelta (state.callAt index).blockIndex))
  same : ToolCallState.Same (state.callAt index) (next.callAt index)
  revises : ContentBlockManager.Revises state.sse.blocks next.sse.blocks index (next.callAt index)
  contents : (next.callAt index).contents = (state.callAt index).contents ++ pieces

namespace Delivers

variable {state middle next : ChatState} {index : Int} {first second : List String}

theorem nothing : Delivers state state index [] :=
  ⟨ChatMoves.refl, rfl, ContentBlockManager.Revises.refl, (List.append_nil _).symm⟩

theorem block_same (delivers : Delivers state next index first) :
    (next.callAt index).blockIndex = (state.callAt index).blockIndex := by
  rw [delivers.same]

theorem started_same (delivers : Delivers state next index first) :
    (next.callAt index).started = (state.callAt index).started := by
  rw [delivers.same]

theorem name_same (delivers : Delivers state next index first) :
    (next.callAt index).name = (state.callAt index).name := by
  rw [delivers.same]

/-- Every call that was started is started. -/
theorem stillStarted (delivers : Delivers state next index first) {other : Int}
    (started : (state.callAt other).started = true) : (next.callAt other).started = true := by
  by_cases same : other = index
  · rw [same] at started ⊢
    rw [delivers.started_same, started]
  · rw [ChatState.callAt, delivers.revises.others other same]
    exact started

theorem trans (before : Delivers state middle index first)
    (after : Delivers middle next index second) : Delivers state next index (first ++ second) := by
  refine ⟨?_, before.same.trans after.same, before.revises.trans after.revises, ?_⟩
  · rw [List.map_append]
    have moves := before.moves.trans after.moves
    rwa [before.block_same] at moves
  · rw [after.contents, before.contents, List.append_assoc]

end Delivers

/-- The pieces are those arguments, and nothing waits that did not wait before. -/
def Verbatim (state next : ChatState) (index : Int) (pieces : List String) (args : String) : Prop :=
  Py.join "" pieces = args ∧
    (next.callAt index).taskArgBuffer = (state.callAt index).taskArgBuffer

namespace OpenaiCall

open ContentBlockManager (Revises)

variable {call : OpenaiCall} {state next : ChatState} {index : Int}

/-! ### Events that are held -/

/-- **Held events are pushed**, and change nothing else. -/
theorem pushAll_moves (events : List SseEvent) (state : ChatState) :
    ChatMoves state (events.foldl call.pushEvent state) events ∧
      (events.foldl call.pushEvent state).sse = state.sse ∧
      (events.foldl call.pushEvent state).aliasBuffers = state.aliasBuffers := by
  induction events generalizing state with
  | nil => exact ⟨ChatMoves.refl, rfl, rfl⟩
  | cons event rest ih =>
    obtain ⟨moves, sse, aliasBuffers⟩ := ih (call.pushEvent state event)
    have one : ChatMoves state (call.pushEvent state event) [event] :=
      ⟨fun out outgoing => outgoing.push event _, rfl⟩
    exact ⟨one.trans moves, sse, aliasBuffers⟩

/-- A method of the builder whose events are held. -/
theorem write_moves {emit : Emit} (ran : call.write emit state = .ok () next) :
    ChatMoves state next (emit state.sse).1 ∧ next.sse = (emit state.sse).2 := by
  rw [write_eq] at ran
  obtain ⟨moves, sse, -⟩ := @pushAll_moves call (emit state.sse).1
    { state with sse := (emit state.sse).2 }
  cases ran
  exact ⟨⟨moves.pushes, moves.reading⟩, sse⟩

/-! ### Argument text -/

/-- A delta for a call with a state. -/
theorem holdToolDelta_ok {piece : String}
    (ran : (do call.holdEvents (← toolDelta index piece) : Chat Unit) state = .ok () next) :
    Delivers state next index [piece] ∧ Verbatim state next index [piece] piece := by
  obtain ⟨events, middle, told, held⟩ := bind_eq_ok.mp ran
  cases found : state.sse.blocks.toolStates.get? index with
  | none =>
    unfold toolDelta at told
    rw [get_bind_eq_ok] at told
    simp only [found] at told
    cases told
  | some tool =>
    rw [toolDelta_eq found] at told
    cases told
    obtain ⟨moves, sse, -⟩ := @pushAll_moves call
      (SseBuilder.emitToolDelta index tool piece state.sse).1
      { state with sse := (SseBuilder.emitToolDelta index tool piece state.sse).2 }
    cases held
    have here := ContentBlockManager.callAt_of_found found
    have blocks : ∀ last : ChatState,
        last.sse = (SseBuilder.emitToolDelta index tool piece state.sse).2 →
        Revises state.sse.blocks last.sse.blocks index
          { tool with contents := tool.contents ++ [piece] } := by
      intro last same
      rw [same]
      exact ContentBlockManager.revises_setToolState _
    refine ⟨⟨⟨?_, moves.reading⟩, ?_, ?_, ?_⟩, Py.join_singleton _ _, ?_⟩
    · rw [ChatState.callAt, here]
      exact moves.pushes
    · rw [ChatState.callAt, ChatState.callAt, here, (blocks _ sse).here]
      rfl
    · rw [ChatState.callAt, (blocks _ sse).here]
      exact blocks _ sse
    · rw [ChatState.callAt, ChatState.callAt, here, (blocks _ sse).here]
    · rw [ChatState.callAt, ChatState.callAt, here, (blocks _ sse).here]

/-- Task arguments that wait change only what their call has received. -/
theorem bufferTaskArgs_revises (runtime : Runtime) (blocks : ContentBlockManager) (args : String) :
    ∃ tool, (blocks.callAt index).Same tool ∧ tool.contents = (blocks.callAt index).contents ∧
      Revises blocks (blocks.bufferTaskArgs runtime index args).2 index tool := by
  unfold ContentBlockManager.bufferTaskArgs
  cases found : blocks.toolStates.get? index with
  | none => exact ⟨blocks.callAt index, rfl, rfl, Revises.refl⟩
  | some tool =>
    rw [ContentBlockManager.callAt_of_found found]
    have replaced : ∀ later, tool.Same later → later.contents = tool.contents →
        ∃ later', tool.Same later' ∧ later'.contents = tool.contents ∧
          Revises blocks (blocks.setToolState index later) index later' :=
      fun later same contents => ⟨later, same, contents, ContentBlockManager.revises_setToolState _⟩
    dsimp only
    split_ifs
    · refine ⟨tool, rfl, rfl, ?_⟩
      have same := @Revises.refl blocks index
      rwa [ContentBlockManager.callAt_of_found found] at same
    · split
      · exact replaced _ rfl rfl
      · split
        · exact replaced _ rfl rfl
        · exact replaced _ rfl rfl

/-- The blocks change, and nothing is pushed. -/
theorem delivers_withBlocks {blocks : ContentBlockManager} {tool : ToolCallState}
    (same : (state.callAt index).Same tool) (contents : tool.contents = (state.callAt index).contents)
    (revises : Revises state.sse.blocks blocks index tool) :
    Delivers state (state.withBlocks blocks) index [] := by
  have here : (state.withBlocks blocks).callAt index = tool := revises.here
  refine ⟨ChatMoves.of_same rfl rfl rfl, ?_, ?_, ?_⟩
  · rw [here]
    exact same
  · rw [here]
    exact revises
  · rw [here, contents, List.append_nil]

/-- The alias buffers change, and nothing is pushed. -/
theorem delivers_aliasBuffers (aliasBuffers : Dict Int String) :
    Delivers state { state with aliasBuffers } index [] :=
  ⟨ChatMoves.of_same rfl rfl rfl, rfl, Revises.refl, (List.append_nil _).symm⟩

theorem emitTaskArgs_ok {args : String} (ran : call.emitTaskArgs index args state = .ok () next) :
    ∃ pieces, Delivers state next index pieces := by
  unfold emitTaskArgs at ran
  rw [get_bind_eq_ok] at ran
  obtain ⟨tool, same, contents, revises⟩ :=
    @bufferTaskArgs_revises index call.runtime state.sse.blocks args
  revert ran revises
  rcases state.sse.blocks.bufferTaskArgs call.runtime index args with ⟨parsed, blocks⟩
  intro ran revises
  have buffered := delivers_withBlocks same contents revises
  dsimp only at ran
  rw [set_bind_eq_ok] at ran
  rcases parsed with error | _ | parsed
  · cases ran
  · cases ran
    exact ⟨[], buffered⟩
  · exact ⟨_, buffered.trans (holdToolDelta_ok ran).1⟩

theorem emitAliasedArgs_ok {args : String} {aliases : Dict String String}
    (ran : call.emitAliasedArgs index args aliases state = .ok () next) :
    ∃ pieces, Delivers state next index pieces := by
  unfold emitAliasedArgs at ran
  rw [get_bind_eq_ok] at ran
  rcases restored : call.restoreAliasedToolArguments
    ((state.aliasBuffers.get? index).getD "" ++ args) aliases with error | _ | restored
  all_goals simp only [restored] at ran
  · cases ran
  · cases ran
    exact ⟨[], delivers_aliasBuffers _⟩
  · rw [set_bind_eq_ok] at ran
    exact ⟨_, (delivers_aliasBuffers _).trans (holdToolDelta_ok ran).1⟩

/-- The tool gets its arguments as they are: it is neither `Task`, nor has it aliases. -/
def Plain (state : ChatState) (name : String) : Prop :=
  name ≠ "Task" ∧ ((state.toolArgumentAliases.get? name).getD ∅).entries = []

/-- **Arguments for a call that has a state**: a plain tool gets them as they are. -/
theorem emitToolArgDelta_ok {args : String} {tool : ToolCallState}
    (found : state.sse.blocks.toolStates.get? index = some tool)
    (ran : call.emitToolArgDelta index args state = .ok () next) :
    ∃ pieces, Delivers state next index pieces ∧
      (Plain state tool.name → Verbatim state next index pieces args) := by
  unfold emitToolArgDelta at ran
  rw [get_bind_eq_ok, found] at ran
  dsimp only at ran
  split_ifs at ran with empty task none
  · cases ran
    exact ⟨[], Delivers.nothing, fun _ => ⟨by rw [empty]; rfl, rfl⟩⟩
  · obtain ⟨pieces, delivers⟩ := emitTaskArgs_ok ran
    exact ⟨pieces, delivers, fun plain => absurd task plain.1⟩
  · obtain ⟨delivers, verbatim⟩ := holdToolDelta_ok ran
    exact ⟨_, delivers, fun _ => verbatim⟩
  · obtain ⟨pieces, delivers⟩ := emitAliasedArgs_ok ran
    exact ⟨pieces, delivers, fun plain => absurd plain.2 none⟩

/-! ### A delta -/

/-- What is pushed when a call is started. -/
def toolStart (block : Int) (toolId : String) (tool : ToolCallState) : SseEvent :=
  contentBlockStart block
    (SseBuilder.toolUseBlock toolId (Py.strip tool.name) tool.extraContent)

/-- The id of a call that is started: the provider's, or a new one. -/
def startId (call : OpenaiCall) (pushes : Nat) (tool : ToolCallState) : String :=
  if tool.toolId = "" then "tool_" ++ call.toolUuid pushes else tool.toolId

/-- A call that is started. -/
def startedAs (block : Int) (toolId : String) (tool : ToolCallState) : ToolCallState :=
  { tool with blockIndex := block, toolId, started := true, preStartArgs := "" }

/-- The call of that index is started under that id, and gets those pieces of argument text. -/
structure Begins (state next : ChatState) (index : Int) (toolId : String) (pieces : List String) :
    Prop where
  moves : ChatMoves state next (toolStart state.sse.blocks.nextIndex toolId (state.callAt index) ::
    pieces.map (inputDelta state.sse.blocks.nextIndex))
  same : (startedAs state.sse.blocks.nextIndex toolId (state.callAt index)).Same (next.callAt index)
  others : ∀ other, other ≠ index → next.callAt other = state.callAt other
  nextIndex : next.sse.blocks.nextIndex = state.sse.blocks.nextIndex + 1
  contents : (next.callAt index).contents = (state.callAt index).contents ++ pieces

theorem Begins.deliver {middle : ChatState} {toolId : String} {first second : List String}
    (begins : Begins state middle index toolId first) (delivers : Delivers middle next index second) :
    Begins state next index toolId (first ++ second) := by
  have block : (middle.callAt index).blockIndex = state.sse.blocks.nextIndex := by
    rw [begins.same]
    rfl
  refine ⟨?_, begins.same.trans delivers.same, fun other away => ?_, ?_, ?_⟩
  · have moves := begins.moves.trans delivers.moves
    rwa [block, List.cons_append, ← List.map_append] at moves
  · exact (delivers.revises.others other away).trans (begins.others other away)
  · exact delivers.revises.nextIndex.trans begins.nextIndex
  · rw [delivers.contents, begins.contents, List.append_assoc]

/-- A call with its block, which still keeps the arguments that came before its name. -/
def placedAs (block : Int) (toolId : String) (tool : ToolCallState) : ToolCallState :=
  { tool with blockIndex := block, toolId, started := true }

/-- `start_tool_block` for a call that has a state. -/
theorem startToolBlock_eq {tool : ToolCallState} {sse : SseBuilder}
    (found : sse.blocks.toolStates.get? index = some tool) (toolId : String) :
    SseBuilder.startToolBlock index toolId (Py.strip tool.name) tool.extraContent sse =
      ([toolStart sse.blocks.nextIndex toolId tool],
        { sse with
          blocks := ContentBlockManager.setToolState
            { sse.blocks with nextIndex := sse.blocks.nextIndex + 1 } index
            (placedAs sse.blocks.nextIndex toolId tool) }) := by
  unfold SseBuilder.startToolBlock
  rw [found]
  rcases kept : tool.extraContent with _ | _ | ⟨field, fields⟩ <;>
    simp only [toolStart, placedAs, kept]

/-- **A named call is started**, and gets the arguments that came before its name. -/
theorem startToolCall_ok {tc : ToolCallDelta} {tool : ToolCallState}
    (found : state.sse.blocks.toolStates.get? index = some tool)
    (identified : tool.toolId = "" → tc.id.getD "" = "")
    (ran : call.startToolCall index tc state = .ok () next) :
    ∃ pieces, Begins state next index (call.startId state.pushes tool) pieces ∧
      (Plain state tool.name → Verbatim state next index pieces tool.preStartArgs) := by
  have here := ContentBlockManager.callAt_of_found found
  have toolId : ((((some tool).map ToolCallState.toolId).filter (· ≠ "")).or tc.id |>.filter
      (· ≠ "")).getD ("tool_" ++ call.toolUuid state.pushes) = call.startId state.pushes tool := by
    unfold startId
    by_cases empty : tool.toolId = ""
    · have nothing := identified empty
      cases given : tc.id with
      | none => simp [empty, Option.filter]
      | some id =>
        rw [given] at nothing
        simp [empty, show id = "" from nothing, Option.filter]
    · simp [empty, Option.filter]
  unfold startToolCall at ran
  rw [get_bind_eq_ok, found] at ran
  obtain ⟨⟨⟩, middle, wrote, ran⟩ := bind_eq_ok.mp ran
  obtain ⟨moves, sse⟩ := write_moves wrote
  rw [toolId] at moves sse
  simp only [Option.map_some, Option.getD_some] at moves sse
  rw [startToolBlock_eq found] at moves sse
  rw [get_bind_eq_ok] at ran
  have there : middle.sse.blocks.toolStates.get? index =
      some (placedAs state.sse.blocks.nextIndex (call.startId state.pushes tool) tool) := by
    rw [sse]
    exact Dict.get?_set_self _ _ _
  rw [there] at ran
  dsimp only at ran
  rw [set_bind_eq_ok] at ran
  set block := state.sse.blocks.nextIndex
  set id := call.startId state.pushes tool
  set cleared := middle.withBlocks (middle.sse.blocks.setToolState index
    { placedAs block id tool with preStartArgs := "" }) with isCleared
  have called : cleared.callAt index = startedAs block id tool := by
    rw [isCleared, ChatState.callAt]
    exact (ContentBlockManager.revises_setToolState _).here
  have away : ∀ other, other ≠ index → cleared.callAt other = state.callAt other := by
    intro other different
    rw [isCleared, ChatState.callAt, ChatState.withBlocks]
    rw [(ContentBlockManager.revises_setToolState _).others other different, sse]
    exact (ContentBlockManager.revises_setToolState _).others other different
  have begins : Begins state cleared index id [] := by
    refine ⟨?_, ?_, away, ?_, ?_⟩
    · have quiet : ChatMoves middle cleared [] := ChatMoves.of_same rfl rfl rfl
      have both := moves.trans quiet
      rw [ChatState.callAt, here]
      exact both
    · rw [called, ChatState.callAt, here]
      rfl
    · show middle.sse.blocks.nextIndex = _
      rw [sse]
      rfl
    · rw [called, ChatState.callAt, here, List.append_nil]
      rfl
  have clearedFound : cleared.sse.blocks.toolStates.get? index = some (startedAs block id tool) :=
    Dict.get?_set_self _ _ _
  obtain ⟨pieces, delivers, all⟩ := emitToolArgDelta_ok clearedFound ran
  refine ⟨pieces, begins.deliver delivers, fun plain => ?_⟩
  have aliases : cleared.toolArgumentAliases = state.toolArgumentAliases :=
    congrArg ChatReading.toolArgumentAliases begins.moves.reading
  have stillPlain : Plain cleared tool.name := by
    unfold Plain
    rw [aliases]
    exact plain
  obtain ⟨joined, waits⟩ := all stillPlain
  refine ⟨joined, waits.trans ?_⟩
  rw [called, ChatState.callAt, here]
  rfl

/-- **The arguments of a delta**: they go to a started call, and wait for the name of another. -/
theorem processArguments_ok {wasUnnamed : Bool} {arguments : String}
    (ran : call.processArguments index wasUnnamed arguments state = .ok () next) :
    ((state.callAt index).started = true ∧ ∃ pieces, Delivers state next index pieces ∧
      (Plain state (state.callAt index).name → Verbatim state next index pieces arguments)) ∨
    ((state.callAt index).started = false ∧ wasUnnamed = true ∧ ChatMoves state next [] ∧
      Revises state.sse.blocks next.sse.blocks index
        { state.callAt index with
          preStartArgs := (state.callAt index).preStartArgs ++ arguments }) ∨
    ((state.callAt index).started = false ∧ wasUnnamed = false) := by
  cases started : (state.callAt index).started with
  | true =>
    left
    refine ⟨rfl, ?_⟩
    have found := ContentBlockManager.found_of_started started
    unfold processArguments at ran
    rw [get_bind_eq_ok] at ran
    have ensured : state.sse.blocks.ensureToolState index =
        (state.callAt index, state.sse.blocks) := by
      rw [ContentBlockManager.ensureToolState, found]
      rfl
    rw [ensured] at ran
    dsimp only at ran
    split_ifs at ran with empty
    · cases ran
      exact ⟨[], Delivers.nothing, fun _ => ⟨by rw [empty]; rfl, rfl⟩⟩
    · exact emitToolArgDelta_ok found ran
  | false =>
    right
    cases unnamed : wasUnnamed with
    | false => exact Or.inr ⟨rfl, rfl⟩
    | true =>
      left
      refine ⟨rfl, rfl, ?_⟩
      unfold processArguments at ran
      rw [get_bind_eq_ok] at ran
      have tool := (@ContentBlockManager.callAt_ensureToolState state.sse.blocks index index).1
      have revised := @ContentBlockManager.revises_ensured state.sse.blocks index fun tool =>
        { tool with preStartArgs := tool.preStartArgs ++ arguments }
      revert ran tool revised
      rcases state.sse.blocks.ensureToolState index with ⟨ensured, blocks⟩
      intro ran tool revised
      dsimp only at ran tool revised
      have unstarted : ensured.started = false := by
        rw [tool]
        exact started
      split_ifs at ran with empty isStarted
      · cases ran
        refine ⟨ChatMoves.refl, ?_⟩
        rw [empty, String.append_empty]
        exact Revises.refl
      · exact Bool.noConfusion (unstarted.symm.trans isStarted)
      · cases ran
        exact ⟨ChatMoves.of_same rfl rfl rfl, revised⟩

/-- The state in which a delta is registered. -/
def registeredState (tc : ToolCallDelta) (function : FunctionDelta) (state : ChatState) :
    ChatState :=
  state.withBlocks (registerToolCall (toolCallIndex tc state.sse.blocks) tc function
    state.sse.blocks)

/-- What a delta can do, behind its registration. -/
inductive ToolStep (call : OpenaiCall) (index : Int) (arguments : String)
    (state next : ChatState) : Prop
  | passes (pieces : List String) (started : (state.callAt index).started = true)
      (delivers : Delivers state next index pieces)
      (all : Plain state (state.callAt index).name →
        Verbatim state next index pieces arguments)
  | begins (pieces : List String) (unstarted : (state.callAt index).started = false)
      (named : Py.strip (state.callAt index).name ≠ "")
      (begins : Begins state next index (call.startId state.pushes (state.callAt index)) pieces)
      (all : Plain state (state.callAt index).name →
        Verbatim state next index pieces ((state.callAt index).preStartArgs ++ arguments))
  | waits (unstarted : (state.callAt index).started = false)
      (unnamed : Py.strip (state.callAt index).name = "")
      (moves : ChatMoves state next [])
      (revises : Revises state.sse.blocks next.sse.blocks index
        { state.callAt index with
          preStartArgs := (state.callAt index).preStartArgs ++ arguments })

theorem any_started (blocks : ContentBlockManager) (index : Int) :
    (blocks.toolStates.get? index).any ToolCallState.started =
      (blocks.callAt index).started := by
  unfold ContentBlockManager.callAt
  cases blocks.toolStates.get? index <;> rfl

theorem unnamed_eq (blocks : ContentBlockManager) (index : Int) :
    unnamed (blocks.toolStates.get? index) =
      decide (Py.strip (blocks.callAt index).name = "") := by
  unfold ContentBlockManager.callAt unnamed
  cases blocks.toolStates.get? index <;> rfl

/-- A call with a name has a state. -/
theorem found_of_named {blocks : ContentBlockManager}
    (named : Py.strip (blocks.callAt index).name ≠ "") :
    blocks.toolStates.get? index = some (blocks.callAt index) := by
  unfold ContentBlockManager.callAt at named ⊢
  cases found : blocks.toolStates.get? index with
  | some tool => rfl
  | none =>
    rw [found] at named
    exact absurd (by decide) named

theorem callAt_registeredState (tc : ToolCallDelta) (function : FunctionDelta)
    (state : ChatState) :
    (registeredState tc function state).callAt (toolCallIndex tc state.sse.blocks) =
      registered tc function (state.callAt (toolCallIndex tc state.sse.blocks)) :=
  (revises_registerToolCall _ tc function _).here

/-- What is done behind the registration. -/
theorem toolStep_of_ran {tc : ToolCallDelta} {arguments : String}
    (identified : (state.callAt index).toolId = "" → tc.id.getD "" = "")
    (ran : (if ((state.callAt index).started ||
          decide (Py.strip (state.callAt index).name = "")) = false then do
        call.startToolCall index tc
        call.processArguments index (decide (Py.strip (state.callAt index).name = "")) arguments
      else call.processArguments index (decide (Py.strip (state.callAt index).name = ""))
        arguments) state = .ok () next) :
    ToolStep call index arguments state next := by
  split_ifs at ran with begins
  · obtain ⟨unstarted, isNamed⟩ := Bool.or_eq_false_iff.mp begins
    have named := of_decide_eq_false isNamed
    obtain ⟨⟨⟩, middle, started, ran⟩ := bind_eq_ok.mp ran
    obtain ⟨early, begun, earlyAll⟩ := startToolCall_ok (found_of_named named) identified started
    have running : (middle.callAt index).started = true := by
      rw [begun.same]
      rfl
    rcases processArguments_ok ran with ⟨-, late, delivers, lateAll⟩ | ⟨stopped, -⟩ | ⟨stopped, -⟩
    · refine .begins (early ++ late) unstarted named (begun.deliver delivers) fun plain => ?_
      have name : (middle.callAt index).name = (state.callAt index).name := by
        rw [begun.same]
        rfl
      have aliases : middle.toolArgumentAliases = state.toolArgumentAliases :=
        congrArg ChatReading.toolArgumentAliases begun.moves.reading
      have later : Plain middle (middle.callAt index).name := by
        unfold Plain
        rw [name, aliases]
        exact plain
      obtain ⟨earlyJoined, earlyWaits⟩ := earlyAll plain
      obtain ⟨lateJoined, lateWaits⟩ := lateAll later
      refine ⟨?_, lateWaits.trans earlyWaits⟩
      rw [Py.join_append, earlyJoined, lateJoined]
      rfl
    · exact Bool.noConfusion (running.symm.trans stopped)
    · exact Bool.noConfusion (running.symm.trans stopped)
  · rcases processArguments_ok ran with
      ⟨running, pieces, delivers, all⟩ | ⟨unstarted, unnamed, moves, revises⟩ | ⟨unstarted, named⟩
    · exact .passes pieces running delivers all
    · exact .waits unstarted (of_decide_eq_true unnamed) moves revises
    · rw [unstarted, named] at begins
      exact absurd rfl begins

/-- **What a delta can do.** -/
theorem processToolCall_ok {tc : ToolCallDelta}
    (ran : call.processToolCall tc state = .ok () next) :
    ∃ function, tc.function = some function ∧
      ToolStep call (toolCallIndex tc state.sse.blocks) (function.arguments.getD "")
        (registeredState tc function state) next := by
  unfold processToolCall at ran
  cases given : tc.function with
  | none =>
    rw [given] at ran
    cases ran
  | some function =>
    refine ⟨function, rfl, @toolStep_of_ran _ _ _ _ tc _ ?_ ?_⟩
    · rw [callAt_registeredState, registered_toolId]
      split_ifs with empty
      · exact fun _ => empty
      · exact fun nothing => absurd nothing empty
    · rw [given] at ran
      dsimp only at ran
      rw [get_bind_eq_ok, set_bind_eq_ok, any_started, unnamed_eq] at ran
      exact ran

end OpenaiCall

end ClaudeProxy
