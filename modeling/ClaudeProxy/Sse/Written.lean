/-
**A client that reads what the builder writes.**

* `SseBuilder.writer` — the open blocks of the builder: the thinking block, the text block, and one
  block for each started tool call.
* `Continues` — a client in step with the builder accepts its events and is in step again, the new
  blocks are numbered upwards, and no event belongs to the message itself.
* `Emit.Continuing` — the yielding methods that always do so, one lemma for each.
* **`closeAllBlocks_reads`** — `close_all_blocks` stops every open block once.
-/

import ClaudeProxy.Library.Ownership
import ClaudeProxy.Sse.Builder
import ClaudeProxy.Sse.Message

namespace ClaudeProxy

/-- What a block can belong to. -/
inductive BlockOwner where
  | thinking
  | text
  | tool (toolIndex : Int)
  deriving DecidableEq

/-- The block that a tool call has open. -/
def ToolCallState.openBlock (tool : ToolCallState) : Option Int :=
  if tool.started then some tool.blockIndex else none

namespace ContentBlockManager

/-- The open block of an owner. -/
def blockOf (blocks : ContentBlockManager) : BlockOwner → Option Int
  | .thinking => if blocks.thinkingStarted then some blocks.thinkingIndex else none
  | .text => if blocks.textStarted then some blocks.textIndex else none
  | .tool toolIndex => (blocks.toolStates.get? toolIndex).bind ToolCallState.openBlock

def writer (blocks : ContentBlockManager) : BlockWriter BlockOwner :=
  ⟨blocks.blockOf, blocks.nextIndex⟩

end ContentBlockManager

/-- The builder as the owner of its open blocks. -/
def SseBuilder.writer (sse : SseBuilder) : BlockWriter BlockOwner := sse.blocks.writer

/-- **The client and the builder go on together.** -/
structure Continues (nest : Nest Int) (sse : SseBuilder) (events : List SseEvent)
    (after : Nest Int) (next : SseBuilder) : Prop where
  reads : Reads nest events after
  inStep : InStep after next.writer
  ascends : Ascends sse.blocks.nextIndex next.blocks.nextIndex (starts (marks events))
  content : ∀ event ∈ events, event.isMessageEvent = false

namespace Continues

variable {nest middle after : Nest Int} {sse between next : SseBuilder}

/-- Nothing is written, and no block is touched. -/
theorem nothing (inStep : InStep nest sse.writer) (same : next.writer = sse.writer) :
    Continues nest sse [] nest next := by
  have index : next.blocks.nextIndex = sse.blocks.nextIndex := congrArg BlockWriter.next same
  refine ⟨Reads.nil nest, same ▸ inStep, ?_, fun _ member => (List.not_mem_nil member).elim⟩
  rw [index]
  exact Ascends.nil le_rfl

theorem append {first second : List SseEvent} (before : Continues nest sse first middle between)
    (later : Continues middle between second after next) :
    Continues nest sse (first ++ second) after next := by
  refine ⟨before.reads.append later.reads, later.inStep, ?_, ?_⟩
  · rw [marks_append, starts_append]
    exact before.ascends.append later.ascends
  · intro event member
    rcases List.mem_append.mp member with isFirst | isSecond
    · exact before.content event isFirst
    · exact later.content event isSecond

/-- Only the builder's next index matters to where the events begin. -/
theorem moved {events : List SseEvent} (written : Continues nest sse events after next)
    (same : between.blocks.nextIndex = sse.blocks.nextIndex) :
    Continues nest between events after next :=
  ⟨written.reads, written.inStep, same.symm ▸ written.ascends, written.content⟩

/-- A block is started for an owner without one. -/
theorem start {owner : BlockOwner} (inStep : InStep nest sse.writer)
    (closed : sse.writer.block owner = none) (block : List (String × Json))
    (written : next.writer = sse.writer.start owner) :
    Continues nest sse [contentBlockStart sse.blocks.nextIndex block]
      (nest.start sse.blocks.nextIndex) next := by
  have index : next.blocks.nextIndex = sse.blocks.nextIndex + 1 := congrArg BlockWriter.next written
  refine ⟨Reads.start inStep.fresh block, written ▸ inStep.start closed, ?_, ?_⟩
  · rw [index]
    exact Ascends.singleton _
  · intro event member
    rw [List.mem_singleton.mp member]
    rfl

/-- An owner's block is stopped. -/
theorem stop {owner : BlockOwner} {index : Int} (inStep : InStep nest sse.writer)
    (here : sse.writer.block owner = some index) (written : next.writer = sse.writer.stop owner) :
    Continues nest sse [contentBlockStop index] (nest.stop index) next := by
  have same : next.blocks.nextIndex = sse.blocks.nextIndex := congrArg BlockWriter.next written
  refine ⟨Reads.stop (inStep.isOpen here), written ▸ inStep.stop here, ?_, ?_⟩
  · rw [same]
    exact Ascends.nil le_rfl
  · intro event member
    rw [List.mem_singleton.mp member]
    rfl

/-- An owner's block is extended. -/
theorem delta {owner : BlockOwner} {index : Int} (inStep : InStep nest sse.writer)
    (here : sse.writer.block owner = some index) (payload : List (String × Json))
    (same : next.writer = sse.writer) :
    Continues nest sse [contentBlockDelta index payload] nest next := by
  have unmoved : next.blocks.nextIndex = sse.blocks.nextIndex := congrArg BlockWriter.next same
  refine ⟨Reads.delta (inStep.isOpen here) payload, same ▸ inStep, ?_, ?_⟩
  · rw [unmoved]
    exact Ascends.nil le_rfl
  · intro event member
    rw [List.mem_singleton.mp member]
    rfl

/-- A whole block with one delta. -/
theorem whole (inStep : InStep nest sse.writer) (block payload : List (String × Json))
    (written : next.writer = sse.writer.skip) :
    Continues nest sse
      [contentBlockStart sse.blocks.nextIndex block, contentBlockDelta sse.blocks.nextIndex payload,
        contentBlockStop sse.blocks.nextIndex]
      ((nest.start sse.blocks.nextIndex).stop sse.blocks.nextIndex) next := by
  have index : next.blocks.nextIndex = sse.blocks.nextIndex + 1 := congrArg BlockWriter.next written
  have isOpen : sse.blocks.nextIndex ∈ (nest.start sse.blocks.nextIndex).opened :=
    Finset.mem_insert_self _ _
  have reads := ((Reads.start inStep.fresh block).append (Reads.delta isOpen payload)).append
    (Reads.stop isOpen)
  refine ⟨reads, written ▸ inStep.skip, ?_, ?_⟩
  · rw [index]
    exact Ascends.singleton _
  · intro event member
    simp only [List.mem_cons, List.not_mem_nil, or_false] at member
    rcases member with rfl | rfl | rfl <;> rfl

end Continues

/-- A client in step stays in step, whatever the builder's state. -/
def Emit.Continuing (emit : Emit) : Prop :=
  ∀ nest sse, InStep nest sse.writer →
    ∃ after, Continues nest sse (emit sse).1 after (emit sse).2

namespace Emit.Continuing

variable {first second : Emit}

/-- What the first method leaves may be what the second one needs. -/
theorem followedBy_of {ready : SseBuilder → Prop} (continuing : first.Continuing)
    (leaves : ∀ sse, ready (first sse).2)
    (further : ∀ nest sse, InStep nest sse.writer → ready sse →
      ∃ after, Continues nest sse (second sse).1 after (second sse).2) :
    (first.followedBy second).Continuing := by
  intro nest sse inStep
  obtain ⟨middle, before⟩ := continuing nest sse inStep
  obtain ⟨after, later⟩ := further middle (first sse).2 before.inStep (leaves sse)
  exact ⟨after, before.append later⟩

theorem followedBy (continuing : first.Continuing) (further : second.Continuing) :
    (first.followedBy second).Continuing :=
  @followedBy_of first second (fun _ => True) continuing (fun _ => trivial)
    fun nest sse inStep _ => further nest sse inStep

end Emit.Continuing

namespace SseBuilder

variable {nest : Nest Int} {sse : SseBuilder}

/-! ### The text and the thinking block -/

theorem writer_startThinkingBlock (sse : SseBuilder) :
    (startThinkingBlock sse).2.writer = sse.writer.start .thinking := by
  refine congrArg (fun block => BlockWriter.mk block (sse.blocks.nextIndex + 1)) ?_
  funext owner
  cases owner <;> rfl

theorem writer_startTextBlock (sse : SseBuilder) :
    (startTextBlock sse).2.writer = sse.writer.start .text := by
  refine congrArg (fun block => BlockWriter.mk block (sse.blocks.nextIndex + 1)) ?_
  funext owner
  cases owner <;> rfl

theorem writer_stopThinkingBlock (sse : SseBuilder) :
    (stopThinkingBlock sse).2.writer = sse.writer.stop .thinking := by
  refine congrArg (fun block => BlockWriter.mk block sse.blocks.nextIndex) ?_
  funext owner
  cases owner <;> rfl

theorem writer_stopTextBlock (sse : SseBuilder) :
    (stopTextBlock sse).2.writer = sse.writer.stop .text := by
  refine congrArg (fun block => BlockWriter.mk block sse.blocks.nextIndex) ?_
  funext owner
  cases owner <;> rfl

theorem block_thinking (sse : SseBuilder) : sse.writer.block .thinking =
    if sse.blocks.thinkingStarted then some sse.blocks.thinkingIndex else none := rfl

theorem block_text (sse : SseBuilder) : sse.writer.block .text =
    if sse.blocks.textStarted then some sse.blocks.textIndex else none := rfl

theorem block_tool (sse : SseBuilder) (toolIndex : Int) : sse.writer.block (.tool toolIndex) =
    (sse.blocks.toolStates.get? toolIndex).bind ToolCallState.openBlock := rfl

theorem stopThinking_continuing : Emit.Continuing fun sse =>
    if sse.blocks.thinkingStarted then stopThinkingBlock sse else ([], sse) := by
  intro nest sse inStep
  dsimp only
  split_ifs with started
  · have here : sse.writer.block .thinking = some sse.blocks.thinkingIndex := by
      rw [block_thinking, if_pos started]
    exact ⟨_, Continues.stop inStep here (writer_stopThinkingBlock sse)⟩
  · exact ⟨_, Continues.nothing inStep rfl⟩

theorem stopText_continuing : Emit.Continuing fun sse =>
    if sse.blocks.textStarted then stopTextBlock sse else ([], sse) := by
  intro nest sse inStep
  dsimp only
  split_ifs with started
  · have here : sse.writer.block .text = some sse.blocks.textIndex := by
      rw [block_text, if_pos started]
    exact ⟨_, Continues.stop inStep here (writer_stopTextBlock sse)⟩
  · exact ⟨_, Continues.nothing inStep rfl⟩

theorem startThinking_continuing : Emit.Continuing fun sse =>
    if sse.blocks.thinkingStarted then ([], sse) else startThinkingBlock sse := by
  intro nest sse inStep
  dsimp only
  split_ifs with started
  · exact ⟨_, Continues.nothing inStep rfl⟩
  · have closed : sse.writer.block .thinking = none := by
      rw [block_thinking, if_neg started]
    exact ⟨_, Continues.start inStep closed _ (writer_startThinkingBlock sse)⟩

theorem startText_continuing : Emit.Continuing fun sse =>
    if sse.blocks.textStarted then ([], sse) else startTextBlock sse := by
  intro nest sse inStep
  dsimp only
  split_ifs with started
  · exact ⟨_, Continues.nothing inStep rfl⟩
  · have closed : sse.writer.block .text = none := by
      rw [block_text, if_neg started]
    exact ⟨_, Continues.start inStep closed _ (writer_startTextBlock sse)⟩

theorem closeContentBlocks_continuing : closeContentBlocks.Continuing :=
  stopThinking_continuing.followedBy stopText_continuing

theorem ensureThinkingBlock_started (sse : SseBuilder) :
    (ensureThinkingBlock sse).2.blocks.thinkingStarted = true := by
  unfold ensureThinkingBlock Emit.followedBy
  dsimp only
  split_ifs <;> first | assumption | rfl

theorem ensureTextBlock_started (sse : SseBuilder) :
    (ensureTextBlock sse).2.blocks.textStarted = true := by
  unfold ensureTextBlock Emit.followedBy
  dsimp only
  split_ifs <;> first | assumption | rfl

theorem ensureThinkingBlock_continuing : ensureThinkingBlock.Continuing :=
  stopText_continuing.followedBy startThinking_continuing

theorem ensureTextBlock_continuing : ensureTextBlock.Continuing :=
  stopThinking_continuing.followedBy startText_continuing

/-- **Thinking**: its block is opened where it is not open, and extended. -/
theorem thinking_continuing (content : String) :
    (ensureThinkingBlock.followedBy (emitThinkingDelta content)).Continuing := by
  refine @Emit.Continuing.followedBy_of _ _ (fun sse => sse.blocks.thinkingStarted = true)
    ensureThinkingBlock_continuing ensureThinkingBlock_started fun nest sse inStep started => ?_
  have here : sse.writer.block .thinking = some sse.blocks.thinkingIndex := by
    rw [block_thinking, if_pos started]
  exact ⟨_, Continues.delta inStep here _ rfl⟩

/-- **Text.** -/
theorem text_continuing (content : String) :
    (ensureTextBlock.followedBy (emitTextDelta content)).Continuing := by
  refine @Emit.Continuing.followedBy_of _ _ (fun sse => sse.blocks.textStarted = true)
    ensureTextBlock_continuing ensureTextBlock_started fun nest sse inStep started => ?_
  have here : sse.writer.block .text = some sse.blocks.textIndex := by
    rw [block_text, if_pos started]
  exact ⟨_, Continues.delta inStep here _ rfl⟩

end SseBuilder

/-! ### Tool calls -/

namespace ContentBlockManager

variable {blocks : ContentBlockManager} {toolIndex : Int}

/-- A tool call's state is replaced. -/
theorem writer_setToolState (blocks : ContentBlockManager) (toolIndex : Int)
    (tool : ToolCallState) : (blocks.setToolState toolIndex tool).writer =
      ⟨Function.update blocks.blockOf (.tool toolIndex) tool.openBlock, blocks.nextIndex⟩ := by
  refine congrArg (fun block => BlockWriter.mk block blocks.nextIndex) ?_
  funext owner
  cases owner with
  | thinking => rfl
  | text => rfl
  | tool other =>
    show ((blocks.toolStates.set toolIndex tool).get? other).bind _ = _
    rw [Dict.get?_set]
    by_cases same : other = toolIndex
    · rw [if_pos same, same, Function.update_self]
      rfl
    · rw [if_neg same, Function.update_of_ne (fun equal => same (BlockOwner.tool.inj equal))]
      rfl

/-- Nothing is opened or closed by a new state with the same open block. -/
theorem writer_setToolState_of_same {tool : ToolCallState}
    (same : blocks.blockOf (.tool toolIndex) = tool.openBlock) :
    (blocks.setToolState toolIndex tool).writer = blocks.writer := by
  rw [writer_setToolState, ← same, Function.update_eq_self]
  rfl

theorem blockOf_tool {tool : ToolCallState} (found : blocks.toolStates.get? toolIndex = some tool) :
    blocks.blockOf (.tool toolIndex) = tool.openBlock := by
  rw [blockOf, found, Option.bind_some]

theorem blockOf_noTool (missing : blocks.toolStates.get? toolIndex = none) :
    blocks.blockOf (.tool toolIndex) = none := by
  rw [blockOf, missing, Option.bind_none]

end ContentBlockManager

namespace SseBuilder

variable {nest : Nest Int} {sse : SseBuilder} {toolIndex : Int}

/-- **A tool call starts.** -/
theorem startToolBlock_continues (inStep : InStep nest sse.writer)
    (closed : sse.writer.block (.tool toolIndex) = none) (toolId name : String)
    (extraContent : Option (List (String × Json))) :
    ∃ after, Continues nest sse (startToolBlock toolIndex toolId name extraContent sse).1 after
      (startToolBlock toolIndex toolId name extraContent sse).2 := by
  refine ⟨_, Continues.start inStep closed (toolUseBlock toolId name extraContent) ?_⟩
  unfold startToolBlock
  dsimp only
  show (ContentBlockManager.setToolState _ toolIndex _).writer = _
  rw [ContentBlockManager.writer_setToolState]
  cases sse.blocks.toolStates.get? toolIndex <;> rfl

/-- **A tool call goes on.** -/
theorem emitToolDelta_continues (inStep : InStep nest sse.writer) {tool : ToolCallState}
    (found : sse.blocks.toolStates.get? toolIndex = some tool) (started : tool.started = true)
    (partialJson : String) :
    Continues nest sse (emitToolDelta toolIndex tool partialJson sse).1 nest
      (emitToolDelta toolIndex tool partialJson sse).2 := by
  have here : sse.writer.block (.tool toolIndex) = some tool.blockIndex :=
    (ContentBlockManager.blockOf_tool found).trans (if_pos started)
  refine Continues.delta inStep here _ ?_
  have same := ContentBlockManager.blockOf_tool found
  exact ContentBlockManager.writer_setToolState_of_same (same.trans rfl)

/-! ### The end of all blocks -/

/-- The owners whose blocks `close_all_blocks` stops, in its order. -/
def owners (sse : SseBuilder) : List BlockOwner :=
  .thinking :: .text :: sse.blocks.toolStates.keys.map .tool

theorem nodup_owners (sse : SseBuilder) : sse.owners.Nodup := by
  have distinct : (sse.blocks.toolStates.keys.map BlockOwner.tool).Nodup :=
    sse.blocks.toolStates.nodupKeys.map fun _ _ same => BlockOwner.tool.inj same
  refine List.nodup_cons.mpr ⟨?_, List.nodup_cons.mpr ⟨?_, distinct⟩⟩
  · simp
  · simp

/-- Every open block is one of an owner in the list. -/
theorem mem_owners {owner : BlockOwner} {index : Int}
    (here : sse.writer.block owner = some index) : owner ∈ sse.owners := by
  cases owner with
  | thinking => exact List.mem_cons_self
  | text => exact List.mem_cons_of_mem _ List.mem_cons_self
  | tool toolIndex =>
    rw [block_tool, Option.bind_eq_some_iff] at here
    obtain ⟨tool, found, -⟩ := here
    have member := (Dict.mem_entries_iff _).mpr found
    exact List.mem_cons_of_mem _ (List.mem_cons_of_mem _
      (List.mem_map_of_mem (List.mem_map_of_mem (f := Prod.fst) member)))

/-- The tool calls' blocks, by state and by owner. -/
theorem startedToolStates_blocks (sse : SseBuilder) :
    sse.startedToolStates.map (fun entry => contentBlockStop entry.2.blockIndex) =
      ((sse.blocks.toolStates.keys.map BlockOwner.tool).filterMap sse.writer.block).map
        contentBlockStop := by
  have each : ∀ entry ∈ sse.blocks.toolStates.entries,
      sse.writer.block (.tool entry.1) = entry.2.openBlock := by
    intro entry member
    exact ContentBlockManager.blockOf_tool ((Dict.mem_entries_iff _).mp member)
  unfold startedToolStates Dict.keys
  revert each
  induction sse.blocks.toolStates.entries with
  | nil => exact fun _ => rfl
  | cons entry rest ih =>
    intro each
    have here := each entry List.mem_cons_self
    have others := ih fun other member => each other (List.mem_cons_of_mem _ member)
    rw [List.map_cons, List.map_cons, List.filterMap_cons, here, ToolCallState.openBlock]
    by_cases started : entry.2.started = true
    · rw [List.filter_cons_of_pos (by simpa using started), if_pos started, List.map_cons, others]
      rfl
    · rw [List.filter_cons_of_neg (by simpa using started), if_neg started, others]

theorem closeContentBlocks_events (sse : SseBuilder) : (closeContentBlocks sse).1 =
    ([BlockOwner.thinking, .text].filterMap sse.writer.block).map contentBlockStop := by
  rw [List.filterMap_cons, List.filterMap_cons, List.filterMap_nil, block_thinking, block_text]
  cases thinking : sse.blocks.thinkingStarted <;> cases text : sse.blocks.textStarted <;>
    simp [closeContentBlocks, Emit.followedBy, stopThinkingBlock, stopTextBlock, thinking, text]

theorem closeAllBlocks_events (sse : SseBuilder) :
    (closeAllBlocks sse).1 = (sse.owners.filterMap sse.writer.block).map contentBlockStop := by
  have tools : (closeContentBlocks sse).2.startedToolStates = sse.startedToolStates := by
    unfold closeContentBlocks Emit.followedBy
    dsimp only
    split_ifs <;> rfl
  have parts : (closeAllBlocks sse).1 = (closeContentBlocks sse).1 ++
      (closeContentBlocks sse).2.startedToolStates.map
        (fun entry => contentBlockStop entry.2.blockIndex) := rfl
  rw [parts, closeContentBlocks_events, tools, startedToolStates_blocks, ← List.map_append,
    ← List.filterMap_append]
  rfl

/-- **Every open block is stopped, once.** -/
theorem closeAllBlocks_reads (inStep : InStep nest sse.writer) :
    ∃ last, Reads nest (closeAllBlocks sse).1 last ∧ last.opened = ∅ ∧ last.seen = nest.seen := by
  rw [closeAllBlocks_events]
  refine ⟨_, Reads.stops (inStep.nodup_blocks sse.nodup_owners) ?_, ?_, rfl⟩
  · intro index member
    obtain ⟨owner, -, here⟩ := List.mem_filterMap.mp member
    exact inStep.isOpen here
  · rw [Nest.opened_close, Finset.sdiff_eq_empty_iff_subset]
    intro index isOpen
    obtain ⟨owner, here⟩ := (inStep.opened index).mp isOpen
    exact List.mem_toFinset.mpr (List.mem_filterMap.mpr ⟨owner, mem_owners here, here⟩)

end SseBuilder

end ClaudeProxy
