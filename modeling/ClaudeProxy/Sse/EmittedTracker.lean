/-
**The emitted-stream tracker** (`core/anthropic/emitted_sse_tracker.py`).

`EmittedNativeSseTracker` rebuilds the block state from the events sent to the client, so that an
interrupted stream can be continued or closed. `observe` reads one event; the `append…` functions
and the tails return the events to send next, and the tracker they leave.

* `observeAll_…` — what the tracker appends is what observing the appended events would record;
* `Tracked` — the link to a client's reading of the same events: the open stack holds exactly the
  open blocks, and every used index is at most `maxIndex`;
* `Tracked.afterEvents` — the link holds after every readable stream.

The tracker pushes to the end of `openStack`, pops from its end, and removes from its front.
-/

import ClaudeProxy.Recovery.StreamRecovery
import ClaudeProxy.Sse.Event

namespace ClaudeProxy

open Json (getKey setKey)

/-- `EmittedBlockState`. -/
structure EmittedBlockState where
  index : Int
  blockType : String
  isOpen : Bool := true
  toolId : String := ""
  name : String := ""
  parts : List String := []
  deriving DecidableEq

/-- `content`. -/
def EmittedBlockState.content (block : EmittedBlockState) : String := Py.join "" block.parts

/-- The block with another part. -/
def EmittedBlockState.append (block : EmittedBlockState) (part : String) : EmittedBlockState :=
  { block with parts := block.parts ++ [part] }

/-- `EmittedNativeSseTracker`, after framing. -/
structure EmittedNativeSseTracker where
  openStack : List Int := []
  maxIndex : Int := -1
  blocks : Dict Int EmittedBlockState := ∅
  messageId : Option String := none
  model : String := ""
  stopReason : Option String := none
  messageStopped : Bool := false
  deriving DecidableEq

/-- A non-empty string value. -/
def nonEmptyStr? (value : Json) : Option String := value.asStr?.filter fun text => text ≠ ""

/-- The block a `content_block_start` announces. A `type` that is no string is spelled by `str` as
none of the types tested for. -/
def startedBlock (index : Int) (block : List (String × Json)) : EmittedBlockState :=
  let blockType := (getKey block "type").asStr?.getD ""
  if blockType = "tool_use" then
    { index, blockType,
      toolId := (getKey block "id").asStr?.getD ""
      name := (getKey block "name").asStr?.getD "" }
  else if blockType = "text" then
    { index, blockType, parts := (nonEmptyStr? (getKey block "text")).toList }
  else if blockType = "thinking" then
    { index, blockType, parts := (nonEmptyStr? (getKey block "thinking")).toList }
  else { index, blockType }

theorem startedBlock_index (index : Int) (block : List (String × Json)) :
    (startedBlock index block).index = index := by
  unfold startedBlock
  dsimp only
  split_ifs <;> rfl

theorem startedBlock_isOpen (index : Int) (block : List (String × Json)) :
    (startedBlock index block).isOpen = true := by
  unfold startedBlock
  dsimp only
  split_ifs <;> rfl

/-- The delta member that holds a block's content. -/
def contentMember (blockType : String) : Option String :=
  if blockType = "text" then some "text"
  else if blockType = "thinking" then some "thinking"
  else if blockType = "tool_use" then some "partial_json"
  else none

/-- What a delta adds to a block. -/
def EmittedBlockState.extend (block : EmittedBlockState) (delta : List (String × Json)) :
    EmittedBlockState :=
  match (contentMember block.blockType).bind fun member => (getKey delta member).asStr? with
  | some part => block.append part
  | none => block

theorem EmittedBlockState.extend_index (block : EmittedBlockState)
    (delta : List (String × Json)) : (block.extend delta).index = block.index := by
  unfold EmittedBlockState.extend
  split <;> rfl

theorem EmittedBlockState.extend_isOpen (block : EmittedBlockState)
    (delta : List (String × Json)) : (block.extend delta).isOpen = block.isOpen := by
  unfold EmittedBlockState.extend
  split <;> rfl

/-- A delta that carries a block's content member adds that part. -/
theorem EmittedBlockState.extend_member {block : EmittedBlockState} {member : String}
    (content : contentMember block.blockType = some member) (deltaType : Json) (part : String) :
    block.extend [("type", deltaType), (member, .str part)] = block.append part := by
  have named : "type" ≠ member := by
    rintro rfl
    unfold contentMember at content
    split_ifs at content <;> simp at content
  have read : getKey [("type", deltaType), (member, .str part)] member = .str part := by
    rw [getKey, Assoc.get?_cons, if_neg named, Assoc.get?_cons, if_pos rfl]
    rfl
  rw [EmittedBlockState.extend, content, Option.bind_some, read]
  rfl

namespace EmittedNativeSseTracker

/-- The `message_start` branch of `_observe`. -/
def observeMessageStart (tracker : EmittedNativeSseTracker) (event : SseEvent) :
    EmittedNativeSseTracker :=
  match getKey event.fields "message" with
  | .obj message =>
    { tracker with
      messageId := (nonEmptyStr? (getKey message "id")).or tracker.messageId
      model := (nonEmptyStr? (getKey message "model")).getD tracker.model }
  | _ => tracker

/-- The `content_block_start` branch. -/
def observeStart (tracker : EmittedNativeSseTracker) (event : SseEvent) :
    EmittedNativeSseTracker :=
  match event.index? with
  | none => tracker
  | some index =>
    { tracker with
      maxIndex := max tracker.maxIndex index
      openStack := tracker.openStack ++ [index]
      blocks := match event.contentBlock with
        | .obj block => tracker.blocks.set index (startedBlock index block)
        | _ => tracker.blocks }

/-- The `content_block_delta` branch. -/
def observeDelta (tracker : EmittedNativeSseTracker) (event : SseEvent) :
    EmittedNativeSseTracker :=
  match event.index? with
  | none => tracker
  | some index =>
    match tracker.blocks.get? index, event.delta with
    | some block, .obj delta =>
      { tracker with blocks := tracker.blocks.set index (block.extend delta) }
    | _, _ => tracker

/-- Take an index off the open stack: from the top, or else its first occurrence. -/
def popOpen (openStack : List Int) (index : Int) : List Int :=
  if openStack.getLast? = some index then openStack.dropLast else openStack.erase index

/-- The `content_block_stop` branch. -/
def observeStop (tracker : EmittedNativeSseTracker) (event : SseEvent) :
    EmittedNativeSseTracker :=
  match event.index? with
  | none => tracker
  | some index =>
    { tracker with
      openStack := popOpen tracker.openStack index
      blocks := match tracker.blocks.get? index with
        | some block => tracker.blocks.set index { block with isOpen := false }
        | none => tracker.blocks }

/-- The `message_delta` branch. -/
def observeMessageDelta (tracker : EmittedNativeSseTracker) (event : SseEvent) :
    EmittedNativeSseTracker :=
  match event.delta with
  | .obj delta =>
    { tracker with stopReason := (getKey delta "stop_reason").asStr?.or tracker.stopReason }
  | _ => tracker

/-- `_observe`. -/
def observe (tracker : EmittedNativeSseTracker) (event : SseEvent) : EmittedNativeSseTracker :=
  if event.event = "message_start" then tracker.observeMessageStart event
  else if event.event = "content_block_start" then tracker.observeStart event
  else if event.event = "content_block_delta" then tracker.observeDelta event
  else if event.event = "content_block_stop" then tracker.observeStop event
  else if event.event = "message_delta" then tracker.observeMessageDelta event
  else if event.event = "message_stop" then { tracker with messageStopped := true }
  else tracker

/-- `feed`, after framing. -/
def observeAll (tracker : EmittedNativeSseTracker) (events : List SseEvent) :
    EmittedNativeSseTracker :=
  events.foldl observe tracker

/-- `next_content_index`. -/
def nextContentIndex (tracker : EmittedNativeSseTracker) : Int := tracker.maxIndex + 1

/-- `iter_close_unclosed_blocks`. -/
def iterCloseUnclosedBlocks (tracker : EmittedNativeSseTracker) :
    List SseEvent × EmittedNativeSseTracker :=
  (tracker.openStack.reverse.map contentBlockStop,
    { tracker with
      openStack := []
      blocks := tracker.blocks.mapValues fun index block =>
        if index ∈ tracker.openStack then { block with isOpen := false } else block })

/-- The blocks of one type, in the order of their first start. -/
def blocksOf (tracker : EmittedNativeSseTracker) (blockType : String) : List EmittedBlockState :=
  tracker.blocks.values.filter fun block => block.blockType = blockType

/-- `emitted_text`. -/
def emittedText (tracker : EmittedNativeSseTracker) : String :=
  Py.join "" ((tracker.blocksOf "text").map EmittedBlockState.content)

/-- `emitted_thinking`. -/
def emittedThinking (tracker : EmittedNativeSseTracker) : String :=
  Py.join "" ((tracker.blocksOf "thinking").map EmittedBlockState.content)

/-- `tool_blocks`. -/
def toolBlocks (tracker : EmittedNativeSseTracker) : List EmittedBlockState :=
  tracker.blocksOf "tool_use"

/-- `has_tool_block`. -/
def hasToolBlock (tracker : EmittedNativeSseTracker) : Bool := !tracker.toolBlocks.isEmpty

/-- `has_content_block`. -/
def hasContentBlock (tracker : EmittedNativeSseTracker) : Bool :=
  !tracker.blocks.entries.isEmpty

/-- `has_terminal_message`. -/
def hasTerminalMessage (tracker : EmittedNativeSseTracker) : Bool := tracker.messageStopped

/-- `_last_open_block`. -/
def lastOpenBlock (tracker : EmittedNativeSseTracker) (blockType : String) :
    Option EmittedBlockState :=
  tracker.openStack.reverse.findSome? fun index =>
    (tracker.blocks.get? index).filter fun block => block.blockType = blockType && block.isOpen

/-- Start a block of the suffix's type at the next index. -/
def startSuffixBlock (tracker : EmittedNativeSseTracker) (blockType : String) :
    EmittedBlockState × EmittedNativeSseTracker :=
  let index := tracker.nextContentIndex
  let active : EmittedBlockState := { index, blockType }
  (active,
    { tracker with
      maxIndex := max tracker.maxIndex index
      blocks := tracker.blocks.set index active
      openStack := tracker.openStack ++ [index] })

/-- A block's state replaced in place. -/
def withBlock (tracker : EmittedNativeSseTracker) (block : EmittedBlockState) :
    EmittedNativeSseTracker :=
  { tracker with blocks := tracker.blocks.set block.index block }

/-- `append_text_suffix` and `append_thinking_suffix`: extend the last open block of the type, or a
new one; `member` is the type's content member. -/
def appendSuffix (blockType member : String) (tracker : EmittedNativeSseTracker)
    (suffix : String) : List SseEvent × EmittedNativeSseTracker :=
  if suffix = "" then ([], tracker)
  else
    let (started, active, tracker) := match tracker.lastOpenBlock blockType with
      | some active => ([], active, tracker)
      | none =>
        let (active, tracker) := tracker.startSuffixBlock blockType
        ([contentBlockStart active.index [("type", .str blockType), (member, .str "")]],
          active, tracker)
    (started ++
        [contentBlockDelta active.index
          [("type", .str (member ++ "_delta")), (member, .str suffix)]],
      tracker.withBlock (active.append suffix))

/-- `append_text_suffix`. -/
def appendTextSuffix : EmittedNativeSseTracker → String → List SseEvent × EmittedNativeSseTracker :=
  appendSuffix "text" "text"

/-- `append_thinking_suffix`. -/
def appendThinkingSuffix :
    EmittedNativeSseTracker → String → List SseEvent × EmittedNativeSseTracker :=
  appendSuffix "thinking" "thinking"

/-- `append_tool_repair_suffix`. -/
def appendToolRepairSuffix (tracker : EmittedNativeSseTracker) (toolIndex : Nat)
    (suffix : String) : List SseEvent × EmittedNativeSseTracker :=
  match tracker.toolBlocks[toolIndex]? with
  | none => ([], tracker)
  | some block =>
    if suffix = "" then ([], tracker)
    else
      ([contentBlockDelta block.index
          [("type", .str "input_json_delta"), ("partial_json", .str suffix)]],
        tracker.withBlock (block.append suffix))

/-- The two closing events, each sent unless the tracker has seen it. -/
def closingEvents (tracker : EmittedNativeSseTracker) (stopReason : String) : List SseEvent :=
  (match tracker.stopReason with
    | none =>
      [formatSseEvent "message_delta"
        [("type", .str "message_delta"),
          ("delta", .obj [("stop_reason", .str stopReason), ("stop_sequence", .null)]),
          ("usage", .obj [("input_tokens", .int 0), ("output_tokens", .int 1)])]]
    | some _ => []) ++
  if tracker.messageStopped then []
  else [formatSseEvent "message_stop" [("type", .str "message_stop")]]

/-- `iter_success_tail`. -/
def iterSuccessTail (tracker : EmittedNativeSseTracker) (stopReason : String) :
    List SseEvent × EmittedNativeSseTracker :=
  let (closed, tracker) := tracker.iterCloseUnclosedBlocks
  (closed ++ tracker.closingEvents stopReason, tracker)

section Branches

variable {tracker : EmittedNativeSseTracker} {event : SseEvent}

theorem observe_start (name : event.event = "content_block_start") :
    tracker.observe event = tracker.observeStart event := by
  rw [observe, if_neg (by rw [name]; decide), if_pos name]

theorem observe_delta (name : event.event = "content_block_delta") :
    tracker.observe event = tracker.observeDelta event := by
  rw [observe, if_neg (by rw [name]; decide), if_neg (by rw [name]; decide), if_pos name]

theorem observe_stop (name : event.event = "content_block_stop") :
    tracker.observe event = tracker.observeStop event := by
  rw [observe, if_neg (by rw [name]; decide), if_neg (by rw [name]; decide),
    if_neg (by rw [name]; decide), if_pos name]

/-- Any other event leaves the block state alone. -/
theorem observe_other (other : event.isBlockEvent = false) :
    (tracker.observe event).openStack = tracker.openStack ∧
      (tracker.observe event).maxIndex = tracker.maxIndex ∧
      (tracker.observe event).blocks = tracker.blocks := by
  simp only [SseEvent.isBlockEvent, Bool.or_eq_false_iff, decide_eq_false_iff_not] at other
  rw [observe, if_neg other.1.1, if_neg other.1.2, if_neg other.2]
  split_ifs
  · unfold observeMessageStart
    split <;> exact ⟨rfl, rfl, rfl⟩
  · unfold observeMessageDelta
    split <;> exact ⟨rfl, rfl, rfl⟩
  · exact ⟨rfl, rfl, rfl⟩
  · exact ⟨rfl, rfl, rfl⟩

@[simp] theorem observeAll_nil (tracker : EmittedNativeSseTracker) :
    tracker.observeAll [] = tracker := rfl

@[simp] theorem observeAll_cons (tracker : EmittedNativeSseTracker) (event : SseEvent)
    (rest : List SseEvent) :
    tracker.observeAll (event :: rest) = (tracker.observe event).observeAll rest := rfl

theorem observeAll_append (tracker : EmittedNativeSseTracker) (first second : List SseEvent) :
    tracker.observeAll (first ++ second) = (tracker.observeAll first).observeAll second :=
  List.foldl_append

end Branches

/-! ### The link to a client's reading -/

theorem mem_popOpen {openStack : List Int} (distinct : openStack.Nodup) {index other : Int} :
    other ∈ popOpen openStack index ↔ other ≠ index ∧ other ∈ openStack := by
  unfold popOpen
  split_ifs with top
  · obtain ⟨below, rfl⟩ := List.getLast?_eq_some_iff.mp top
    rw [List.dropLast_concat, List.mem_append, List.mem_singleton]
    have absent : index ∉ below := by
      rw [List.nodup_append] at distinct
      exact fun member => distinct.2.2 index member index (List.mem_singleton.mpr rfl) rfl
    constructor
    · exact fun member => ⟨fun same => absent (same ▸ member), Or.inl member⟩
    · rintro ⟨different, member | same⟩
      · exact member
      · exact (different same).elim
  · exact distinct.mem_erase_iff

theorem nodup_popOpen {openStack : List Int} (distinct : openStack.Nodup) (index : Int) :
    (popOpen openStack index).Nodup := by
  unfold popOpen
  split_ifs
  · exact distinct.sublist (List.dropLast_sublist _)
  · exact distinct.erase index

/-- Every block is stored under its own index. -/
def Indexed (tracker : EmittedNativeSseTracker) : Prop :=
  ∀ index block, tracker.blocks.get? index = some block → block.index = index

theorem indexed_init : Indexed {} := fun index block found => by simp at found

theorem Indexed.set {tracker : EmittedNativeSseTracker} (indexed : Indexed tracker) {index : Int}
    {block : EmittedBlockState} (own : block.index = index) {other : Int}
    {found : EmittedBlockState} (lookup : (tracker.blocks.set index block).get? other = some found) :
    found.index = other := by
  rw [Dict.get?_set] at lookup
  split_ifs at lookup with same
  · exact Option.some.inj lookup ▸ own.trans same.symm
  · exact indexed other found lookup

theorem Indexed.withBlock {tracker : EmittedNativeSseTracker} (indexed : Indexed tracker)
    (block : EmittedBlockState) : Indexed (tracker.withBlock block) :=
  fun _ _ lookup => indexed.set rfl lookup

/-- A tracker stores the blocks of any stream under their own indexes. -/
theorem Indexed.afterEvent {tracker : EmittedNativeSseTracker} (indexed : Indexed tracker)
    (event : SseEvent) : Indexed (tracker.observe event) := by
  by_cases other : event.isBlockEvent = false
  · intro index block found
    have same : (tracker.observe event).blocks = tracker.blocks := (observe_other other).2.2
    exact indexed index block (same ▸ found)
  · simp only [SseEvent.isBlockEvent, Bool.not_eq_false, Bool.or_eq_true,
      decide_eq_true_eq] at other
    rcases other with (name | name) | name
    · rw [observe_start name, observeStart]
      rcases event.index? with _ | index
      · exact indexed
      · intro key state found
        dsimp only at found
        split at found
        · exact indexed.set (startedBlock_index index _) found
        · exact indexed key state found
    · rw [observe_delta name, observeDelta]
      rcases event.index? with _ | index
      · exact indexed
      · dsimp only
        split
        · rename_i block delta old _
          exact fun key state found => indexed.set
            ((block.extend_index delta).trans (indexed index block old)) found
        · exact indexed
    · rw [observe_stop name, observeStop]
      rcases event.index? with _ | index
      · exact indexed
      · intro key state found
        dsimp only at found
        split at found
        · rename_i block old
          refine indexed.set ?_ found
          exact indexed index block old
        · exact indexed key state found

theorem Indexed.afterEvents {tracker : EmittedNativeSseTracker} (indexed : Indexed tracker)
    (events : List SseEvent) : Indexed (tracker.observeAll events) := by
  induction events generalizing tracker with
  | nil => exact indexed
  | cons event rest ih => exact ih (indexed.afterEvent event)

/-- The tracker and a client's reading of the events it has observed. -/
structure Tracked (tracker : EmittedNativeSseTracker) (nest : Nest Int) : Prop where
  distinct : tracker.openStack.Nodup
  opened : ∀ index, index ∈ tracker.openStack ↔ index ∈ nest.opened
  bounded : ∀ index ∈ nest.seen, index ≤ tracker.maxIndex
  known : ∀ index block, tracker.blocks.get? index = some block →
    index ∈ nest.seen ∧ block.index = index ∧ (block.isOpen = true ↔ index ∈ nest.opened)

theorem tracked_init : Tracked {} Nest.empty where
  distinct := List.nodup_nil
  opened index := by simp [Nest.empty]
  bounded index member := by simp [Nest.empty] at member
  known index block found := by simp at found

section Link

variable {tracker : EmittedNativeSseTracker} {nest next : Nest Int}

theorem Tracked.indexed (tracked : Tracked tracker nest) : Indexed tracker :=
  fun index block found => (tracked.known index block found).2.1

/-- The next index is one no block has used. -/
theorem Tracked.fresh (tracked : Tracked tracker nest) :
    tracker.nextContentIndex ∉ nest.seen := fun member =>
  absurd (tracked.bounded _ member) (not_le_of_gt (Int.lt_succ tracker.maxIndex))

/-- Rewriting a block without moving or closing it keeps the link. -/
theorem Tracked.setBlock (tracked : Tracked tracker nest) {index : Int}
    {block changed : EmittedBlockState} (found : tracker.blocks.get? index = some block)
    (sameIndex : changed.index = block.index) (sameOpen : changed.isOpen = block.isOpen) :
    Tracked { tracker with blocks := tracker.blocks.set index changed } nest := by
  refine ⟨tracked.distinct, tracked.opened, tracked.bounded, fun other state lookup => ?_⟩
  rw [Dict.get?_set] at lookup
  split_ifs at lookup with same
  · obtain rfl := Option.some.inj lookup
    rw [same, sameIndex, sameOpen]
    exact tracked.known index block found
  · exact tracked.known other state lookup

/-- A fresh start. -/
theorem Tracked.afterStart (tracked : Tracked tracker nest) {event : SseEvent} {index : Int}
    (read : event.index? = some index) (fresh : index ∉ nest.seen) :
    Tracked (tracker.observeStart event) (nest.start index) := by
  have closed : index ∉ nest.opened := fun member => fresh (nest.within member)
  have unstacked : index ∉ tracker.openStack := fun member =>
    closed ((tracked.opened index).mp member)
  have moved : ∀ other block, tracker.blocks.get? other = some block →
      other ∈ (nest.start index).seen ∧ block.index = other ∧
        (block.isOpen = true ↔ other ∈ (nest.start index).opened) := by
    intro other block found
    obtain ⟨seen, sameIndex, isOpen⟩ := tracked.known other block found
    have different : other ≠ index := fun same => fresh (same ▸ seen)
    refine ⟨Finset.mem_insert_of_mem seen, sameIndex, ?_⟩
    rw [isOpen, Nest.opened_start, Finset.mem_insert]
    exact ⟨Or.inr, fun member => member.resolve_left different⟩
  unfold observeStart
  rw [read]
  refine ⟨?_, ?_, ?_, ?_⟩
  · exact List.nodup_append.mpr ⟨tracked.distinct, List.nodup_singleton _, fun other member last
      isLast same => unstacked (List.mem_singleton.mp isLast ▸ same ▸ member)⟩
  · intro other
    show other ∈ tracker.openStack ++ [index] ↔ other ∈ insert index nest.opened
    rw [List.mem_append, List.mem_singleton, Finset.mem_insert, tracked.opened other, or_comm]
  · intro other member
    show other ≤ max tracker.maxIndex index
    rcases Finset.mem_insert.mp member with rfl | older
    · exact le_max_right _ _
    · exact le_max_of_le_left (tracked.bounded other older)
  · intro other block found
    dsimp only at found
    split at found
    · rw [Dict.get?_set] at found
      split_ifs at found with same
      · obtain rfl := Option.some.inj found
        rw [same, startedBlock_isOpen]
        exact ⟨Finset.mem_insert_self _ _, startedBlock_index _ _,
          fun _ => Finset.mem_insert_self _ _, fun _ => rfl⟩
      · exact moved other block found
    · exact moved other block found

/-- A delta of an open block. -/
theorem Tracked.afterDelta (tracked : Tracked tracker nest) (event : SseEvent) :
    Tracked (tracker.observeDelta event) nest := by
  unfold observeDelta
  rcases event.index? with _ | index
  · exact tracked
  · dsimp only
    split
    · rename_i block delta found _
      exact tracked.setBlock found (block.extend_index delta) (block.extend_isOpen delta)
    · exact tracked

/-- A stop of an open block. -/
theorem Tracked.afterStop (tracked : Tracked tracker nest) {event : SseEvent} {index : Int}
    (read : event.index? = some index) :
    Tracked (tracker.observeStop event) (nest.stop index) := by
  unfold observeStop
  rw [read]
  refine ⟨nodup_popOpen tracked.distinct index, ?_, tracked.bounded, ?_⟩
  · intro other
    show other ∈ popOpen tracker.openStack index ↔ other ∈ nest.opened.erase index
    rw [mem_popOpen tracked.distinct, Finset.mem_erase, tracked.opened other]
  · intro other block lookup
    have kept : ∀ state, other ≠ index → tracker.blocks.get? other = some state →
        other ∈ (nest.stop index).seen ∧ state.index = other ∧
          (state.isOpen = true ↔ other ∈ (nest.stop index).opened) := by
      intro state different found
      obtain ⟨seen, sameIndex, isOpen⟩ := tracked.known other state found
      refine ⟨seen, sameIndex, ?_⟩
      rw [isOpen, Nest.opened_stop, Finset.mem_erase]
      exact ⟨fun member => ⟨different, member⟩, And.right⟩
    dsimp only at lookup
    split at lookup
    · rename_i old found
      rw [Dict.get?_set] at lookup
      split_ifs at lookup with same
      · obtain rfl := Option.some.inj lookup
        obtain ⟨seen, sameIndex, _⟩ := tracked.known index old found
        rw [same]
        exact ⟨seen, sameIndex, fun isOpen => (Bool.false_ne_true isOpen).elim,
          fun member => absurd member (Finset.notMem_erase _ _)⟩
      · exact kept block same lookup
    · rename_i absent
      refine kept block (fun same => ?_) lookup
      rw [same, absent] at lookup
      cases lookup

/-- **One observed event keeps the link.** -/
theorem Tracked.afterEvent (tracked : Tracked tracker nest) {event : SseEvent}
    (reads : Reads nest [event] next) : Tracked (tracker.observe event) next := by
  obtain ⟨readable, accepted⟩ := reads
  by_cases other : event.isBlockEvent = false
  · rw [marks_cons_none (SseEvent.mark?_eq_none_of_not_block other)] at accepted
    obtain rfl := Option.some.inj accepted
    obtain ⟨sameStack, sameMax, sameBlocks⟩ := @observe_other tracker event other
    exact ⟨sameStack ▸ tracked.distinct, sameStack ▸ tracked.opened, sameMax ▸ tracked.bounded,
      sameBlocks ▸ tracked.known⟩
  · obtain ⟨mark, read⟩ := Option.isSome_iff_exists.mp
      (readable event List.mem_cons_self (Bool.not_eq_false _ ▸ other))
    have step := accepted
    rw [run_marks_singleton _ read] at step
    obtain ⟨index, found, ⟨name, rfl⟩ | ⟨name, rfl⟩ | ⟨name, rfl⟩⟩ := event_of_mark? read
    · rw [observe_start name]
      obtain ⟨fresh, started⟩ := Option.ite_none_left_eq_some.mp step
      exact Option.some.inj started ▸ tracked.afterStart found fresh
    · rw [observe_delta name]
      obtain ⟨_, same⟩ := Option.ite_none_right_eq_some.mp step
      exact Option.some.inj same ▸ tracked.afterDelta event
    · rw [observe_stop name]
      obtain ⟨_, stopped⟩ := Option.ite_none_right_eq_some.mp step
      exact Option.some.inj stopped ▸ tracked.afterStop found

/-- **The link after a whole stream.** -/
theorem Tracked.afterEvents {events : List SseEvent} (tracked : Tracked tracker nest)
    (reads : Reads nest events next) : Tracked (tracker.observeAll events) next := by
  induction events generalizing tracker nest with
  | nil =>
    obtain rfl := Option.some.inj reads.accepted
    exact tracked
  | cons event rest ih =>
    obtain ⟨middle, first, later⟩ := reads.uncons
    exact ih (tracked.afterEvent first) later

/-! ### Continuing the stream -/

theorem lastOpenBlock_eq_some {blockType : String} {active : EmittedBlockState}
    (tracked : Tracked tracker nest) (found : tracker.lastOpenBlock blockType = some active) :
    active.index ∈ nest.opened ∧ tracker.blocks.get? active.index = some active ∧
      active.blockType = blockType := by
  obtain ⟨index, stacked, selected⟩ := List.exists_of_findSome?_eq_some found
  obtain ⟨lookup, matches_⟩ := Option.filter_eq_some_iff.mp selected
  simp only [Bool.and_eq_true, decide_eq_true_eq] at matches_
  obtain ⟨_, sameIndex, _⟩ := tracked.known index active lookup
  subst sameIndex
  exact ⟨(tracked.opened _).mp (List.mem_reverse.mp stacked), lookup, matches_.1⟩

/-- A delta observed for a block of the tracker. -/
theorem observe_contentBlockDelta {index : Int} {block : EmittedBlockState} {member : String}
    (found : tracker.blocks.get? index = some block)
    (content : contentMember block.blockType = some member) (deltaType part : String) :
    tracker.observe
        (contentBlockDelta index [("type", .str deltaType), (member, .str part)]) =
      { tracker with blocks := tracker.blocks.set index (block.append part) } := by
  rw [observe_delta rfl, observeDelta]
  show (match tracker.blocks.get? index,
      Json.obj [("type", .str deltaType), (member, .str part)] with
    | some block, .obj delta =>
      { tracker with blocks := tracker.blocks.set index (block.extend delta) }
    | _, _ => tracker) = _
  rw [found]
  dsimp only
  rw [EmittedBlockState.extend_member content]

/-- **A continued suffix** is what its events say, and a client accepts these. -/
theorem Tracked.appendSuffix_reads (tracked : Tracked tracker nest) {blockType member : String}
    (content : contentMember blockType = some member)
    (empty : ∀ index, startedBlock index [("type", .str blockType), (member, .str "")] =
      { index, blockType }) (suffix : String) :
    (appendSuffix blockType member tracker suffix).2 =
        tracker.observeAll (appendSuffix blockType member tracker suffix).1 ∧
      ∃ next, Reads nest (appendSuffix blockType member tracker suffix).1 next := by
  unfold appendSuffix
  split_ifs with nothing
  · exact ⟨rfl, nest, Reads.nil nest⟩
  · rcases found : tracker.lastOpenBlock blockType with _ | active
    · have fresh := tracked.fresh
      set index := tracker.nextContentIndex with hIndex
      refine ⟨?_, nest.start index, Reads.append (Reads.start fresh _)
        (Reads.delta (Finset.mem_insert_self _ _) _)⟩
      have started : tracker.observe
          (contentBlockStart index [("type", .str blockType), (member, .str "")]) =
          (tracker.startSuffixBlock blockType).2 := by
        rw [observe_start rfl]
        show ({ tracker with
            maxIndex := max tracker.maxIndex index
            openStack := tracker.openStack ++ [index]
            blocks := tracker.blocks.set index (startedBlock index _) } :
          EmittedNativeSseTracker) = _
        rw [empty]
        rfl
      dsimp only
      rw [List.singleton_append, observeAll_cons, observeAll_cons, observeAll_nil]
      show _ = (tracker.observe (contentBlockStart index _)).observe _
      rw [started, observe_contentBlockDelta (Dict.get?_set_self _ _ _) content]
      rfl
    · obtain ⟨isOpen, lookup, sameType⟩ := lastOpenBlock_eq_some tracked found
      refine ⟨?_, nest, Reads.delta isOpen _⟩
      dsimp only
      rw [List.nil_append, observeAll_cons, observeAll_nil,
        observe_contentBlockDelta lookup (sameType ▸ content)]
      rfl

theorem Tracked.appendTextSuffix_reads (tracked : Tracked tracker nest) (suffix : String) :
    (tracker.appendTextSuffix suffix).2 =
        tracker.observeAll (tracker.appendTextSuffix suffix).1 ∧
      ∃ next, Reads nest (tracker.appendTextSuffix suffix).1 next :=
  tracked.appendSuffix_reads rfl (fun _ => rfl) suffix

theorem Tracked.appendThinkingSuffix_reads (tracked : Tracked tracker nest) (suffix : String) :
    (tracker.appendThinkingSuffix suffix).2 =
        tracker.observeAll (tracker.appendThinkingSuffix suffix).1 ∧
      ∃ next, Reads nest (tracker.appendThinkingSuffix suffix).1 next :=
  tracked.appendSuffix_reads rfl (fun _ => rfl) suffix

/-- A block is found under its own index. -/
theorem Indexed.get?_of_mem_blocksOf (indexed : Indexed tracker) {blockType : String}
    {block : EmittedBlockState} (member : block ∈ tracker.blocksOf blockType) :
    tracker.blocks.get? block.index = some block ∧ block.blockType = blockType := by
  obtain ⟨inside, sameType⟩ := List.mem_filter.mp member
  obtain ⟨index, found⟩ := tracker.blocks.mem_values_iff.mp inside
  obtain rfl := indexed index block found
  exact ⟨found, of_decide_eq_true sameType⟩

theorem appendToolRepairSuffix_empty (tracker : EmittedNativeSseTracker) (toolIndex : Nat) :
    tracker.appendToolRepairSuffix toolIndex "" = ([], tracker) := by
  unfold appendToolRepairSuffix
  split
  · rfl
  · exact if_pos rfl

/-- **A repaired tool block**: its suffix is sent as a delta and recorded in its place. -/
theorem Indexed.appendToolRepairSuffix_eq (indexed : Indexed tracker)
    {done pending : List EmittedBlockState} {block : EmittedBlockState}
    (blocks : tracker.toolBlocks = done ++ block :: pending) {suffix : String}
    (something : suffix ≠ "") :
    tracker.appendToolRepairSuffix done.length suffix =
        ([contentBlockDelta block.index
          [("type", .str "input_json_delta"), ("partial_json", .str suffix)]],
          tracker.withBlock (block.append suffix)) ∧
      (tracker.withBlock (block.append suffix)).toolBlocks =
        done ++ block.append suffix :: pending := by
  have position : tracker.toolBlocks[done.length]? = some block := by
    rw [blocks, List.getElem?_append_right (le_refl _), Nat.sub_self, List.getElem?_cons_zero]
  have member : block ∈ tracker.toolBlocks := List.mem_of_getElem? position
  obtain ⟨_, sameType⟩ := indexed.get?_of_mem_blocksOf member
  constructor
  · rw [appendToolRepairSuffix, position]
    exact if_neg something
  · obtain ⟨front, back, split, keptFront, keptBack⟩ := List.filter_eq_append_iff.mp blocks
    obtain ⟨before, after, rest, dropped, _, keptAfter⟩ := List.filter_eq_cons_iff.mp keptBack
    have values : tracker.blocks.values = (front ++ before) ++ block :: after := by
      rw [split, rest, List.append_assoc]
    have owned : ∀ key, tracker.blocks.get? key = some block → key = block.index :=
      fun key found => (indexed key block found).symm
    have stays : decide ((block.append suffix).blockType = "tool_use") = true :=
      decide_eq_true sameType
    show (tracker.blocks.set block.index (block.append suffix)).values.filter _ = _
    rw [Dict.values_set_of_owner values owned, List.filter_append, List.filter_append,
      keptFront, List.filter_eq_nil_iff.mpr dropped, List.append_nil,
      List.filter_cons, if_pos stays, keptAfter]

/-- Rewriting a tool block's parts keeps the link. -/
theorem Tracked.withBlock (tracked : Tracked tracker nest) {block : EmittedBlockState}
    (member : block ∈ tracker.toolBlocks) (suffix : String) :
    Tracked (tracker.withBlock (block.append suffix)) nest :=
  tracked.setBlock (tracked.indexed.get?_of_mem_blocksOf member).1 rfl rfl

theorem closingEvents_other (stopReason : String) :
    ∀ event ∈ tracker.closingEvents stopReason, event.isBlockEvent = false := by
  unfold closingEvents
  intro event member
  rcases List.mem_append.mp member with reason | stop
  · split at reason
    · rw [List.mem_singleton.mp reason]
      rfl
    · cases reason
  · split_ifs at stop
    · cases stop
    · rw [List.mem_singleton.mp stop]
      rfl

/-- **Closing**: a client accepts the stops of the open blocks and is left with none. -/
theorem Tracked.iterCloseUnclosedBlocks_reads (tracked : Tracked tracker nest) :
    ∃ last, Reads nest tracker.iterCloseUnclosedBlocks.1 last ∧ last.opened = ∅ := by
  have distinct : tracker.openStack.reverse.Nodup := List.nodup_reverse.mpr tracked.distinct
  refine ⟨_, Reads.stops distinct fun index member =>
    (tracked.opened index).mp (List.mem_reverse.mp member), ?_⟩
  rw [Nest.opened_close, Finset.sdiff_eq_empty_iff_subset]
  intro index member
  rw [List.mem_toFinset, List.mem_reverse]
  exact (tracked.opened index).mpr member

theorem Tracked.iterSuccessTail_reads (tracked : Tracked tracker nest) (stopReason : String) :
    ∃ last, Reads nest (tracker.iterSuccessTail stopReason).1 last ∧ last.opened = ∅ := by
  obtain ⟨last, closes, closed⟩ := tracked.iterCloseUnclosedBlocks_reads
  exact ⟨last, closes.append (Reads.others (closingEvents_other stopReason)), closed⟩

end Link

end EmittedNativeSseTracker

end ClaudeProxy
