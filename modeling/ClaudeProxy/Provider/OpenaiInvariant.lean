/-
**What the statements of an OpenAI call keep.**

`Kept` holds of the variables at every statement: a client that was sent what was yielded, and is then
sent what is held, is in step with the builder; the Task arguments that wait are those of started
calls; and so are the alias buffers, whose texts are not JSON yet.

* `keeps_write`, `keeps_holdToolDelta` — the two ways in which events are held;
* `keeps_processToolCall`, `keeps_handleChunk` — the chunk loop;
* **`keeps_connect`** — one attempt.
-/

import ClaudeProxy.Library.Effects
import ClaudeProxy.Provider.OpenaiTransport
import ClaudeProxy.Sse.Written

namespace ClaudeProxy

open RecoveryHoldbackBuffer (Outgoing)

/-! ### Tool calls -/

/-- That call is started: it has a block open. -/
def SseBuilder.Started (sse : SseBuilder) (index : Int) : Prop :=
  ∃ tool, sse.blocks.toolStates.get? index = some tool ∧ tool.started = true

theorem SseBuilder.started_iff {sse : SseBuilder} {index : Int} :
    sse.Started index ↔ (sse.writer.block (.tool index)).isSome = true := by
  rw [SseBuilder.block_tool, Started]
  cases sse.blocks.toolStates.get? index with
  | none => simp
  | some tool =>
    rw [Option.bind_some, ToolCallState.openBlock]
    cases started : tool.started <;> simp [started]

/-- The open blocks tell the started calls. -/
theorem SseBuilder.Started.of_writer {sse next : SseBuilder} {index : Int}
    (started : sse.Started index) (same : next.writer = sse.writer) : next.Started index := by
  rw [started_iff, same]
  exact started_iff.mp started

theorem SseBuilder.started_of_found {sse : SseBuilder} {index : Int} {tool : ToolCallState}
    (found : sse.blocks.toolStates.get? index = some tool) :
    sse.Started index ↔ tool.started = true := by
  constructor
  · rintro ⟨other, there, started⟩
    cases found.symm.trans there
    exact started
  · exact fun started => ⟨tool, found, started⟩

/-- Only started calls have Task arguments waiting. -/
def ContentBlockManager.Unbuffered (blocks : ContentBlockManager) : Prop :=
  ∀ index tool, blocks.toolStates.get? index = some tool → tool.started = false →
    tool.taskArgBuffer = ""

/-- A changed call whose arguments do not wait, or that is started. -/
theorem ContentBlockManager.Unbuffered.set {blocks : ContentBlockManager}
    (unbuffered : blocks.Unbuffered) {index : Int} {tool : ToolCallState}
    (fine : tool.started = false → tool.taskArgBuffer = "") :
    (blocks.setToolState index tool).Unbuffered := by
  intro other found known
  change (blocks.toolStates.set index tool).get? other = some found at known
  rw [Dict.get?_set] at known
  split_ifs at known with same
  · cases known
    exact fine
  · exact unbuffered other found known

namespace ContentBlockManager

variable {blocks : ContentBlockManager} {index : Int}

/-- Nothing is opened or closed, and no arguments wait for a call that is not started. -/
structure Relabels (blocks next : ContentBlockManager) : Prop where
  writer : next.writer = blocks.writer
  unbuffered : blocks.Unbuffered → next.Unbuffered

theorem Relabels.refl (blocks : ContentBlockManager) : Relabels blocks blocks := ⟨rfl, id⟩

theorem Relabels.trans {first second third : ContentBlockManager} (before : Relabels first second)
    (after : Relabels second third) : Relabels first third :=
  ⟨after.writer.trans before.writer, after.unbuffered ∘ before.unbuffered⟩

/-- A call's state is replaced by one with the same block. -/
theorem relabels_some {tool next : ToolCallState}
    (found : blocks.toolStates.get? index = some tool)
    (same : next.openBlock = tool.openBlock)
    (fine : next.started = false → tool.taskArgBuffer = "" → next.taskArgBuffer = "")
    (started : next.started = tool.started) : Relabels blocks (blocks.setToolState index next) := by
  refine ⟨writer_setToolState_of_same ((blockOf_tool found).trans same.symm), fun unbuffered => ?_⟩
  refine unbuffered.set fun waits => fine waits (unbuffered index tool found ?_)
  rw [← started]
  exact waits

/-- A call gets a state, without a block. -/
theorem relabels_none {next : ToolCallState} (missing : blocks.toolStates.get? index = none)
    (unstarted : next.started = false) (empty : next.taskArgBuffer = "") :
    Relabels blocks (blocks.setToolState index next) := by
  refine ⟨writer_setToolState_of_same ((blockOf_noTool missing).trans ?_), fun unbuffered =>
    unbuffered.set fun _ => empty⟩
  rw [ToolCallState.openBlock, unstarted]
  rfl

theorem ensureToolState_relabels (blocks : ContentBlockManager) (index : Int) :
    Relabels blocks (blocks.ensureToolState index).2 ∧
      (blocks.ensureToolState index).2.toolStates.get? index =
        some (blocks.ensureToolState index).1 := by
  unfold ensureToolState
  cases found : blocks.toolStates.get? index with
  | none => exact ⟨relabels_none found rfl rfl, Dict.get?_set_self _ _ _⟩
  | some tool => exact ⟨Relabels.refl blocks, found⟩

/-- The state of a call, made where there is none, is changed but for its block and its Task
arguments. -/
theorem ensured_relabels (change : ToolCallState → ToolCallState)
    (block : ∀ tool, (change tool).openBlock = tool.openBlock)
    (started : ∀ tool, (change tool).started = tool.started)
    (buffer : ∀ tool, (change tool).taskArgBuffer = tool.taskArgBuffer) :
    Relabels blocks ((blocks.ensureToolState index).2.setToolState index
      (change (blocks.ensureToolState index).1)) := by
  obtain ⟨relabels, found⟩ := blocks.ensureToolState_relabels index
  exact relabels.trans (relabels_some found (block _) (fun _ empty => (buffer _).trans empty)
    (started _))

theorem setStreamToolId_relabels (blocks : ContentBlockManager) (index : Int) (toolId : String) :
    Relabels blocks (blocks.setStreamToolId index toolId) := by
  unfold setStreamToolId
  split_ifs
  · exact Relabels.refl blocks
  · exact ensured_relabels (fun tool => { tool with toolId }) (fun _ => rfl) (fun _ => rfl)
      (fun _ => rfl)

theorem setToolExtraContent_relabels (blocks : ContentBlockManager) (index : Int)
    (extraContent : List (String × Json)) :
    Relabels blocks (blocks.setToolExtraContent index extraContent) :=
  ensured_relabels (fun tool => { tool with extraContent := some extraContent }) (fun _ => rfl)
    (fun _ => rfl) (fun _ => rfl)

theorem registerToolName_relabels (blocks : ContentBlockManager) (index : Int) (name : String) :
    Relabels blocks (blocks.registerToolName index name) := by
  unfold registerToolName
  cases found : blocks.toolStates.get? index with
  | none => exact relabels_none found rfl rfl
  | some tool =>
    dsimp only
    split_ifs
    · exact relabels_some found rfl (fun _ empty => empty) rfl
    · exact relabels_some found rfl (fun _ empty => empty) rfl
    · exact Relabels.refl blocks

/-- Task arguments wait for a started call. -/
theorem bufferTaskArgs_relabels (runtime : Runtime) {tool : ToolCallState}
    (found : blocks.toolStates.get? index = some tool) (started : tool.started = true)
    (args : String) : Relabels blocks (blocks.bufferTaskArgs runtime index args).2 := by
  have change : ∀ next : ToolCallState, next.openBlock = tool.openBlock →
      next.started = tool.started → Relabels blocks (blocks.setToolState index next) := by
    intro next block same
    refine relabels_some found block (fun unstarted => ?_) same
    rw [same, started] at unstarted
    cases unstarted
  unfold bufferTaskArgs
  rw [found]
  dsimp only
  split_ifs
  · exact Relabels.refl blocks
  · split
    · exact change _ rfl rfl
    · split
      · exact change _ rfl rfl
      · exact change _ rfl rfl

end ContentBlockManager

namespace OpenaiCall

variable {call : OpenaiCall}

theorem registerToolId_relabels (index : Int) (tc : ToolCallDelta)
    (blocks : ContentBlockManager) :
    ContentBlockManager.Relabels blocks (registerToolId index tc blocks) := by
  unfold registerToolId
  split
  · exact blocks.setStreamToolId_relabels index _
  · exact ContentBlockManager.Relabels.refl blocks

theorem registerExtraContent_relabels (index : Int) (tc : ToolCallDelta)
    (blocks : ContentBlockManager) :
    ContentBlockManager.Relabels blocks (registerExtraContent index tc blocks) := by
  unfold registerExtraContent
  split
  · exact blocks.setToolExtraContent_relabels index _
  · exact ContentBlockManager.Relabels.refl blocks

theorem registerToolCall_relabels (index : Int) (tc : ToolCallDelta) (function : FunctionDelta)
    (blocks : ContentBlockManager) :
    ContentBlockManager.Relabels blocks (registerToolCall index tc function blocks) := by
  have known := (registerToolId_relabels index tc blocks).trans
    (registerExtraContent_relabels index tc _)
  unfold registerToolCall
  split
  · exact known.trans (ContentBlockManager.registerToolName_relabels _ index _)
  · exact known

/-! ### The invariant -/

/-- What holds of the variables at every statement. -/
structure Kept (call : OpenaiCall) (state : ChatState) : Prop where
  written : ∃ out nest, Outgoing state.yielded state.holdback out ∧
    Continues Nest.empty call.newSseBuilder out nest state.sse
  unbuffered : state.sse.blocks.Unbuffered
  waiting : ∀ index text, state.aliasBuffers.get? index = some text →
    state.sse.Started index ∧ ∃ message, call.runtime.loads text = .error (.jsonDecodeError message)

theorem newSseBuilder_inStep (call : OpenaiCall) :
    InStep Nest.empty call.newSseBuilder.writer := by
  have nobody : ∀ owner, call.newSseBuilder.writer.block owner = none := by
    intro owner
    cases owner <;> rfl
  refine ⟨fun index => iff_of_false (Finset.notMem_empty index) ?_,
    fun index seen => (Finset.notMem_empty index seen).elim, fun first second index here => ?_⟩
  · rintro ⟨owner, here⟩
    cases (nobody owner).symm.trans here
  · cases (nobody first).symm.trans here

/-- Without events, and without calls. -/
theorem Kept.fresh {state : ChatState} (sse : state.sse = call.newSseBuilder)
    (outgoing : Outgoing state.yielded state.holdback []) (empty : state.aliasBuffers = ∅) :
    Kept call state := by
  refine ⟨⟨[], Nest.empty, outgoing, ?_⟩, ?_, ?_⟩
  · rw [sse]
    exact Continues.nothing call.newSseBuilder_inStep rfl
  · intro index tool found
    rw [sse] at found
    cases found
  · intro index text found
    rw [empty] at found
    cases found

/-- The buffer and what was yielded, behind some pushes; nothing else has changed. -/
theorem pushAll_eq {state : ChatState} {out : List SseEvent}
    (outgoing : Outgoing state.yielded state.holdback out) (events : List SseEvent) :
    ∃ holdback pushes yielded,
      events.foldl call.pushEvent state = { state with holdback, pushes, yielded } ∧
        Outgoing yielded holdback (out ++ events) := by
  induction events generalizing state out with
  | nil =>
    refine ⟨state.holdback, state.pushes, state.yielded, rfl, ?_⟩
    rwa [List.append_nil]
  | cons event rest ih =>
    have pushed := outgoing.push event (call.measured state.pushes event)
    obtain ⟨holdback, pushes, yielded, run, all⟩ := @ih (call.pushEvent state event) _ pushed
    refine ⟨holdback, pushes, yielded, run, ?_⟩
    rwa [List.append_assoc, List.singleton_append] at all

/-- **Events that continue what was written are held**; the calls that are started stay started. -/
theorem Kept.hold {state : ChatState} (kept : Kept call state) {next : SseBuilder}
    {events : List SseEvent}
    (continues : ∀ nest, InStep nest state.sse.writer →
      ∃ after, Continues nest state.sse events after next)
    (unbuffered : next.blocks.Unbuffered)
    (started : ∀ index, state.sse.Started index → next.Started index) :
    Kept call (events.foldl call.pushEvent { state with sse := next }) ∧
      (events.foldl call.pushEvent { state with sse := next }).sse = next := by
  obtain ⟨out, nest, outgoing, before⟩ := kept.written
  obtain ⟨after, later⟩ := continues nest before.inStep
  obtain ⟨holdback, pushes, yielded, run, all⟩ :=
    @pushAll_eq call { state with sse := next } out outgoing events
  rw [run]
  refine ⟨⟨⟨out ++ events, after, all, before.append later⟩, unbuffered, ?_⟩, rfl⟩
  intro index text found
  obtain ⟨here, broken⟩ := kept.waiting index text found
  exact ⟨started index here, broken⟩

/-- A method that leaves the calls alone. -/
def SparesTools (emit : Emit) : Prop :=
  ∀ sse, (emit sse).2.blocks.toolStates = sse.blocks.toolStates

theorem SparesTools.started {emit : Emit} (spares : SparesTools emit) {sse : SseBuilder}
    {index : Int} (started : sse.Started index) : (emit sse).2.Started index := by
  unfold SseBuilder.Started at started ⊢
  rw [spares]
  exact started

theorem SparesTools.unbuffered {emit : Emit} (spares : SparesTools emit) {sse : SseBuilder}
    (unbuffered : sse.blocks.Unbuffered) : (emit sse).2.blocks.Unbuffered := by
  unfold ContentBlockManager.Unbuffered
  rw [spares]
  exact unbuffered

theorem SparesTools.followedBy {first second : Emit} (before : SparesTools first)
    (after : SparesTools second) : SparesTools (first.followedBy second) :=
  fun sse => (after _).trans (before sse)

/-- The variables behind a method of the builder whose events are held. -/
theorem write_eq (emit : Emit) (state : ChatState) : call.write emit state =
    .ok () ((emit state.sse).1.foldl call.pushEvent { state with sse := (emit state.sse).2 }) :=
  rfl

/-- **A method that leaves the calls alone.** -/
theorem returns_write {emit : Emit} (continuing : emit.Continuing) (spares : SparesTools emit) :
    Returns (Kept call) (call.write emit) := by
  intro state kept
  rw [write_eq]
  exact (kept.hold (fun nest inStep => continuing nest state.sse inStep)
    (spares.unbuffered kept.unbuffered) fun index => spares.started).1

theorem keeps_write {emit : Emit} (continuing : emit.Continuing) (spares : SparesTools emit) :
    Keeps (Kept call) (call.write emit) :=
  (returns_write continuing spares).keeps

/-! ### Tool calls -/

/-- The calls' states change without a block being opened or closed. -/
theorem Kept.relabel {state : ChatState} (kept : Kept call state) {blocks : ContentBlockManager}
    (relabels : ContentBlockManager.Relabels state.sse.blocks blocks) :
    Kept call (state.withBlocks blocks) := by
  have hold := @Kept.hold _ _ kept (state.withBlocks blocks).sse []
    (fun nest inStep => ⟨nest, Continues.nothing inStep relabels.writer⟩)
    (relabels.unbuffered kept.unbuffered) fun index started => started.of_writer relabels.writer
  exact hold.1

/-- `emit_tool_delta` for a started call. -/
theorem toolDelta_eq {state : ChatState} {index : Int} {tool : ToolCallState}
    (found : state.sse.blocks.toolStates.get? index = some tool) (partialJson : String) :
    toolDelta index partialJson state =
      .ok (SseBuilder.emitToolDelta index tool partialJson state.sse).1
        { state with sse := (SseBuilder.emitToolDelta index tool partialJson state.sse).2 } := by
  unfold toolDelta
  show EStateM.bind EStateM.get _ state = _
  have read : (EStateM.get state : EStateM.Result UpstreamError ChatState ChatState) =
      .ok state state := rfl
  rw [EStateM.bind, read]
  dsimp only
  rw [found]
  rfl

/-- A delta changes what was sent of its call. -/
theorem emitToolDelta_relabels {sse : SseBuilder} {index : Int} {tool : ToolCallState}
    (found : sse.blocks.toolStates.get? index = some tool) (partialJson : String) :
    ContentBlockManager.Relabels sse.blocks
      (SseBuilder.emitToolDelta index tool partialJson sse).2.blocks :=
  ContentBlockManager.relabels_some found rfl (fun _ empty => empty) rfl

/-- **A delta for a started call** is held, and does not raise. -/
theorem Kept.holdToolDelta {state : ChatState} (kept : Kept call state) {index : Int}
    {tool : ToolCallState} (found : state.sse.blocks.toolStates.get? index = some tool)
    (started : tool.started = true) (partialJson : String) :
    ∃ next, (do call.holdEvents (← toolDelta index partialJson) : Chat Unit) state = .ok () next ∧
      Kept call next ∧ next.sse = (SseBuilder.emitToolDelta index tool partialJson state.sse).2 := by
  have relabels := emitToolDelta_relabels found partialJson
  obtain ⟨keeps, sse⟩ := kept.hold
    (fun nest inStep => ⟨nest, SseBuilder.emitToolDelta_continues inStep found started partialJson⟩)
    (relabels.unbuffered kept.unbuffered) fun other here => here.of_writer relabels.writer
  refine ⟨_, ?_, keeps, sse⟩
  show EStateM.bind (toolDelta index partialJson) call.holdEvents state = _
  unfold EStateM.bind
  rw [toolDelta_eq found]
  rfl

/-- What is kept while a started call gets arguments. -/
def KeptAt (call : OpenaiCall) (index : Int) (state : ChatState) : Prop :=
  Kept call state ∧ state.sse.Started index

theorem keeps_holdToolDelta (index : Int) (partialJson : String) :
    Keeps (KeptAt call index) (do call.holdEvents (← toolDelta index partialJson)) := by
  rintro state ⟨kept, tool, found, started⟩
  obtain ⟨next, run, keeps, sse⟩ := kept.holdToolDelta found started partialJson
  rw [run]
  refine ⟨keeps, ?_⟩
  have here : state.sse.Started index := ⟨tool, found, started⟩
  rw [sse]
  exact here.of_writer (emitToolDelta_relabels found partialJson).writer

theorem keeps_emitTaskArgs (index : Int) (args : String) :
    Keeps (KeptAt call index) (call.emitTaskArgs index args) := by
  unfold emitTaskArgs
  refine Keeps.get fun state here => ?_
  obtain ⟨kept, tool, found, started⟩ := here
  have relabels := ContentBlockManager.bufferTaskArgs_relabels call.runtime found started args
  revert relabels
  rcases state.sse.blocks.bufferTaskArgs call.runtime index args with ⟨parsed, blocks⟩
  intro relabels
  have buffered : KeptAt call index (state.withBlocks blocks) :=
    ⟨kept.relabel relabels, SseBuilder.Started.of_writer ⟨tool, found, started⟩ relabels.writer⟩
  refine Ensures.set ?_
  rcases parsed with error | _ | parsed
  · exact Keeps.at_ (Keeps.throw _) buffered
  · exact Keeps.at_ (Keeps.pure _) buffered
  · exact Keeps.at_ (keeps_holdToolDelta index _) buffered

/-- Aliases are restored unless the text is not JSON yet. -/
theorem restoreAliased_none {text : String} {aliases : Dict String String}
    (waits : call.restoreAliasedToolArguments text aliases = .ok none) :
    ∃ message, call.runtime.loads text = .error (.jsonDecodeError message) := by
  unfold restoreAliasedToolArguments Runtime.loadsOrNone at waits
  cases loaded : call.runtime.loads text with
  | ok value =>
    rw [loaded] at waits
    cases value <;> cases waits
  | error error =>
    rw [loaded] at waits
    cases error with
    | jsonDecodeError message => exact ⟨message, rfl⟩
    | _ => cases waits

theorem keeps_emitAliasedArgs (index : Int) (args : String) (aliases : Dict String String) :
    Keeps (KeptAt call index) (call.emitAliasedArgs index args aliases) := by
  unfold emitAliasedArgs
  refine Keeps.get fun state here => ?_
  obtain ⟨kept, started⟩ := here
  dsimp only
  split
  · exact Keeps.at_ (Keeps.throw _) ⟨kept, started⟩
  · rename_i waits
    intro _ _
    refine ⟨⟨kept.written, kept.unbuffered, fun other text found => ?_⟩, started⟩
    change (state.aliasBuffers.set index _).get? other = some text at found
    rw [Dict.get?_set] at found
    split_ifs at found with same
    · cases found
      exact ⟨same ▸ started, restoreAliased_none waits⟩
    · exact kept.waiting other text found
  · refine Ensures.set (Keeps.at_ (keeps_holdToolDelta index _) ?_)
    refine ⟨⟨kept.written, kept.unbuffered, fun other text found => ?_⟩, started⟩
    change (state.aliasBuffers.erase index).get? other = some text at found
    rw [Dict.get?_erase] at found
    split_ifs at found
    exact kept.waiting other text found

theorem keeps_emitToolArgDelta (index : Int) (args : String) :
    Keeps (KeptAt call index) (call.emitToolArgDelta index args) := by
  unfold emitToolArgDelta
  refine Keeps.get fun state here => ?_
  dsimp only
  split
  · exact Keeps.at_ (Keeps.pure _) here
  · split_ifs
    · exact Keeps.at_ (Keeps.pure _) here
    · exact Keeps.at_ (keeps_emitTaskArgs index args) here
    · exact Keeps.at_ (keeps_holdToolDelta index args) here
    · exact Keeps.at_ (keeps_emitAliasedArgs index args _) here

/-- The builder behind the start of a call. -/
theorem startToolBlock_blocks (index : Int) (toolId name : String)
    (extraContent : Option (List (String × Json))) (sse : SseBuilder) :
    ∃ tool, tool.started = true ∧
      (SseBuilder.startToolBlock index toolId name extraContent sse).2.blocks =
        { sse.blocks with nextIndex := sse.blocks.nextIndex + 1 }.setToolState index tool := by
  refine ⟨_, ?_, rfl⟩
  cases sse.blocks.toolStates.get? index <;> rfl

/-- **A call is started.** -/
theorem Kept.startTool {state : ChatState} (kept : Kept call state) {index : Int}
    (unstarted : ¬ state.sse.Started index) (toolId name : String)
    (extraContent : Option (List (String × Json))) :
    ∃ next, call.write (SseBuilder.startToolBlock index toolId name extraContent) state =
      .ok () next ∧ KeptAt call index next := by
  have closed : state.sse.writer.block (.tool index) = none := by
    rw [SseBuilder.started_iff] at unstarted
    exact Option.not_isSome_iff_eq_none.mp unstarted
  obtain ⟨tool, started, blocks⟩ := startToolBlock_blocks index toolId name extraContent state.sse
  have here : (SseBuilder.startToolBlock index toolId name extraContent state.sse).2.Started
      index := by
    refine ⟨tool, ?_, started⟩
    rw [blocks]
    exact Dict.get?_set_self _ _ _
  obtain ⟨keeps, sse⟩ := kept.hold
    (fun nest inStep => SseBuilder.startToolBlock_continues inStep closed toolId name extraContent)
    (by
      rw [blocks]
      refine ContentBlockManager.Unbuffered.set kept.unbuffered fun waits => ?_
      cases started.symm.trans waits)
    fun other known => by
      by_cases same : other = index
      · exact same ▸ here
      · obtain ⟨known, found, isStarted⟩ := known
        refine ⟨known, ?_, isStarted⟩
        rw [blocks]
        exact (Dict.get?_set_ne _ same _).trans found
  exact ⟨_, write_eq _ _, keeps, sse ▸ here⟩

/-- **A named call is started**, and gets the arguments that came before its name. -/
theorem ensures_startToolCall (index : Int) (tc : ToolCallDelta) :
    Ensures (fun state => Kept call state ∧ ¬ state.sse.Started index)
      (call.startToolCall index tc) (fun _ => KeptAt call index) (fun _ => KeptAt call index) := by
  unfold startToolCall
  refine Ensures.get fun state here => ?_
  dsimp only
  refine @Ensures.bind _ _ _ _ _ _ (fun _ => KeptAt call index) _ _ _ ?_ fun _ =>
    Ensures.get fun next started => ?_
  · rintro state rfl
    obtain ⟨next, run, started⟩ := here.1.startTool here.2 _ _ _
    rw [run]
    exact started
  · obtain ⟨kept, tool, found, isStarted⟩ := started
    rw [found]
    have relabels := @ContentBlockManager.relabels_some next.sse.blocks index tool
      { tool with preStartArgs := "" } found rfl (fun _ empty => empty) rfl
    exact Ensures.set (Keeps.at_ (keeps_emitToolArgDelta index _)
      ⟨kept.relabel relabels, SseBuilder.Started.of_writer ⟨tool, found, isStarted⟩ relabels.writer⟩)

/-- The arguments of a call that is started, or has no name yet. -/
theorem ensures_processArguments (index : Int) (wasUnnamed : Bool) (arguments : String) :
    Ensures (fun state => Kept call state ∧ (state.sse.Started index ∨ wasUnnamed = true))
      (call.processArguments index wasUnnamed arguments) (fun _ => Kept call)
      (fun _ => Kept call) := by
  unfold processArguments
  refine Ensures.get fun state here => ?_
  obtain ⟨kept, ready⟩ := here
  obtain ⟨relabels, found⟩ := state.sse.blocks.ensureToolState_relabels index
  revert relabels found
  rcases state.sse.blocks.ensureToolState index with ⟨tool, blocks⟩
  intro relabels found
  dsimp only at relabels found ⊢
  have agree : state.sse.Started index → tool.started = true := fun started =>
    (@SseBuilder.started_of_found (state.withBlocks blocks).sse index tool found).mp
      (started.of_writer relabels.writer)
  split_ifs with empty started unnamed
  · exact Ensures.pure fun now same => same ▸ kept
  · have here : KeptAt call index state :=
      ⟨kept, @SseBuilder.Started.of_writer (state.withBlocks blocks).sse _ _
        ⟨tool, found, started⟩ relabels.writer.symm⟩
    exact (Keeps.at_ (keeps_emitToolArgDelta index arguments) here).weaken
      (fun _ _ after => after.1) (fun _ _ after => after.1)
  · intro _ _
    exact kept.relabel (relabels.trans (ContentBlockManager.relabels_some found rfl
      (fun _ empty => empty) rfl))
  · rcases ready with here | unnamed'
    · exact absurd (agree here) started
    · exact absurd unnamed' unnamed

/-- **A tool-call delta.** -/
theorem keeps_processToolCall (tc : ToolCallDelta) :
    Keeps (Kept call) (call.processToolCall tc) := by
  unfold processToolCall
  cases tc.function with
  | none => exact Keeps.throw _
  | some function =>
    refine Keeps.get fun state kept => ?_
    dsimp only
    set index := toolCallIndex tc state.sse.blocks with hIndex
    have registered := kept.relabel (registerToolCall_relabels index tc function state.sse.blocks)
    set blocks := registerToolCall index tc function state.sse.blocks with hBlocks
    refine Ensures.set ?_
    have known : ∀ started, (blocks.toolStates.get? index).any ToolCallState.started = started →
        ((state.withBlocks blocks).sse.Started index ↔ started = true) := by
      rintro _ rfl
      rw [SseBuilder.Started, Option.any_eq_true]
      rfl
    split_ifs with named
    · rw [Bool.or_eq_false_iff] at named
      refine @Ensures.bind _ _ _ _ _ _ (fun _ => KeptAt call index) (fun _ => Kept call) _ _ ?_ fun _ => ?_
      · rintro now rfl
        have unstarted : ¬ (state.withBlocks blocks).sse.Started index := fun started =>
          Bool.noConfusion ((known false named.1).mp started)
        exact (ensures_startToolCall index tc).weaken (fun _ _ after => after)
          (fun _ _ after => after.1) _ ⟨registered, unstarted⟩
      · rintro now ⟨kept, started⟩
        exact ensures_processArguments index _ _ now ⟨kept, Or.inl started⟩
    · rintro now rfl
      refine ensures_processArguments index _ _ _ ⟨registered, ?_⟩
      rw [Bool.not_eq_false, Bool.or_eq_true] at named
      exact named.imp_left fun started => (known true started).mpr rfl

/-! ### Chunks -/

/-- A method that takes one of two ways, neither of which touches the calls. -/
theorem SparesTools.ite {first second : Emit} {condition : SseBuilder → Bool}
    (before : SparesTools first) (after : SparesTools second) :
    SparesTools fun sse => if condition sse then first sse else second sse := by
  intro sse
  dsimp only
  split_ifs
  · exact before sse
  · exact after sse

theorem closeContentBlocks_spares : SparesTools SseBuilder.closeContentBlocks :=
  (SparesTools.ite (fun _ => rfl) (fun _ => rfl)).followedBy
    (SparesTools.ite (fun _ => rfl) (fun _ => rfl))

theorem thinking_spares (content : String) : SparesTools
    (SseBuilder.ensureThinkingBlock.followedBy (SseBuilder.emitThinkingDelta content)) :=
  ((SparesTools.ite (fun _ => rfl) (fun _ => rfl)).followedBy
    (SparesTools.ite (fun _ => rfl) (fun _ => rfl))).followedBy fun _ => rfl

theorem text_spares (content : String) : SparesTools
    (SseBuilder.ensureTextBlock.followedBy (SseBuilder.emitTextDelta content)) :=
  ((SparesTools.ite (fun _ => rfl) (fun _ => rfl)).followedBy
    (SparesTools.ite (fun _ => rfl) (fun _ => rfl))).followedBy fun _ => rfl

theorem iterHeuristicToolUseSse_spares (toolUse : HeuristicTool) :
    SparesTools (call.iterHeuristicToolUseSse toolUse) :=
  closeContentBlocks_spares.followedBy fun _ => rfl

/-- **A detected tool call** is a block of its own. -/
theorem iterHeuristicToolUseSse_continuing (toolUse : HeuristicTool) :
    (call.iterHeuristicToolUseSse toolUse).Continuing :=
  SseBuilder.closeContentBlocks_continuing.followedBy fun _ _ inStep =>
    ⟨_, Continues.whole inStep _ _ rfl⟩

theorem returns_writeThinking (content : String) :
    Returns (Kept call) (call.writeThinking content) :=
  returns_write (SseBuilder.thinking_continuing content) (thinking_spares content)

theorem returns_writeText (content : String) : Returns (Kept call) (call.writeText content) :=
  returns_write (SseBuilder.text_continuing content) (text_spares content)

theorem returns_toolUses (toolUses : List HeuristicTool) : Returns (Kept call)
    (toolUses.forM fun toolUse => call.write (call.iterHeuristicToolUseSse toolUse)) :=
  Ensures.forM fun toolUse _ => returns_write (iterHeuristicToolUseSse_continuing toolUse)
    (iterHeuristicToolUseSse_spares toolUse)

theorem keeps_handleReasoning (reasoning : String) :
    Keeps (Kept call) (call.handleReasoning reasoning) := by
  unfold handleReasoning
  split_ifs
  · exact (returns_writeThinking reasoning).keeps
  · exact Keeps.pure _

theorem keeps_handleTextPart (content : String) :
    Keeps (Kept call) (call.handleTextPart content) := by
  unfold handleTextPart
  refine Keeps.get fun state kept => ?_
  split
  · exact Keeps.at_ (Keeps.throw _) kept
  · rename_i filteredText detectedTools heuristicParser _
    have parsed : Kept call { state with heuristicParser } :=
      ⟨kept.written, kept.unbuffered, kept.waiting⟩
    refine Ensures.set (Keeps.at_ ?_ parsed)
    dsimp only
    split_ifs
    · exact Keeps.bind (returns_writeText filteredText).keeps fun _ =>
        (returns_toolUses detectedTools).keeps
    · exact (returns_toolUses detectedTools).keeps

theorem keeps_handlePart (part : ContentChunk) : Keeps (Kept call) (call.handlePart part) := by
  unfold handlePart
  cases part.type with
  | thinking =>
    dsimp only
    split_ifs
    · exact (returns_writeThinking part.content).keeps
    · exact Keeps.pure _
  | text => exact keeps_handleTextPart part.content

theorem keeps_handleContent (content : String) :
    Keeps (Kept call) (call.handleContent content) := by
  unfold handleContent
  split_ifs
  · refine Keeps.get fun state kept => ?_
    dsimp only
    refine Ensures.set (Keeps.at_ (Keeps.forM fun part _ => keeps_handlePart part) ?_)
    exact ⟨kept.written, kept.unbuffered, kept.waiting⟩
  · exact Keeps.pure _

theorem keeps_handleToolCalls (toolCalls : List ToolCallDelta) :
    Keeps (Kept call) (call.handleToolCalls toolCalls) := by
  unfold handleToolCalls
  split_ifs
  · refine Keeps.bind ?_ fun _ => Keeps.forM fun tc _ => keeps_processToolCall tc
    exact keeps_write SseBuilder.closeContentBlocks_continuing closeContentBlocks_spares
  · exact Keeps.pure _

/-- Variables that the invariant does not mention. -/
theorem keeps_modify {change : ChatState → ChatState} (sse : ∀ state, (change state).sse = state.sse)
    (holdback : ∀ state, (change state).holdback = state.holdback)
    (yielded : ∀ state, (change state).yielded = state.yielded)
    (aliasBuffers : ∀ state, (change state).aliasBuffers = state.aliasBuffers) :
    Keeps (Kept call) (modify change : Chat Unit) := by
  refine Keeps.modify fun state kept => ⟨?_, ?_, ?_⟩
  · rw [sse, holdback, yielded]
    exact kept.written
  · rw [sse]
    exact kept.unbuffered
  · rw [sse, aliasBuffers]
    exact kept.waiting

/-- **One chunk.** -/
theorem keeps_handleChunk (chunk : ChatChunk) : Keeps (Kept call) (call.handleChunk chunk) := by
  unfold handleChunk
  refine Keeps.bind (keeps_modify (fun _ => rfl) (fun _ => rfl) (fun _ => rfl) fun _ => rfl)
    fun _ => ?_
  split
  · exact Keeps.pure _
  · split
    · exact Keeps.pure _
    · refine Keeps.bind (keeps_modify (fun _ => rfl) (fun _ => rfl) (fun _ => rfl) fun _ => rfl)
        fun _ => ?_
      refine Keeps.bind (keeps_handleReasoning _) fun _ => ?_
      exact Keeps.bind (keeps_handleContent _) fun _ => keeps_handleToolCalls _

theorem keeps_readStream (stream : ChatStream) : Keeps (Kept call) (call.readStream stream) := by
  unfold readStream
  refine Keeps.bind (Keeps.forM fun chunk _ => keeps_handleChunk chunk) fun _ => ?_
  split
  · exact Keeps.throw _
  · refine Keeps.get fun state kept => ?_
    split_ifs
    · exact Keeps.at_ (Keeps.throw _) kept
    · exact Keeps.at_ (Keeps.pure _) kept

/-- A request only counts. -/
theorem keeps_requesting {α : Type} (ask : Nat → Except UpstreamError α × Nat) :
    Keeps (Kept call) (requesting ask) := by
  intro state kept
  unfold requesting
  rcases ask state.requests with ⟨_ | _, requests⟩
  · exact ⟨kept.written, kept.unbuffered, kept.waiting⟩
  · exact ⟨kept.written, kept.unbuffered, kept.waiting⟩

/-- **One attempt.** -/
theorem keeps_connect : Keeps (Kept call) call.connect := by
  unfold connect
  refine Keeps.bind (keeps_modify (fun _ => rfl) (fun _ => rfl) (fun _ => rfl) fun _ => rfl)
    fun _ => Keeps.get fun state kept => Keeps.at_ ?_ kept
  refine Keeps.bind (keeps_requesting _) fun opened => ?_
  dsimp only
  refine Keeps.bind (keeps_modify (fun _ => rfl) (fun _ => rfl) (fun _ => rfl) fun _ => rfl)
    fun _ => ?_
  split
  · exact Keeps.throw _
  · exact Keeps.bind (keeps_modify (fun _ => rfl) (fun _ => rfl) (fun _ => rfl) fun _ => rfl)
      fun _ => keeps_readStream _

end OpenaiCall

end ClaudeProxy
