/-
**A message through the block policy.**

Whatever the thinking mode, the policy keeps a message in order: it passes the message's own events
on, turns block events into block events, and has no block left open once upstream has closed all of
its blocks. `OpenLink` relates the upstream nest, the policy's state and the open stack a tracker
keeps of the policy's output; it holds even where the output's deltas are misaddressed.

* `block_link` — one content-block event keeps the link;
* `messagePrefix_transformed` — a prefix of a message, through the policy.
-/

import ClaudeProxy.Sse.BlockPolicy
import ClaudeProxy.Sse.EmittedTracker
import ClaudeProxy.Sse.Message

namespace ClaudeProxy

open Json (getKey setKey)
open EmittedNativeSseTracker (popOpen mem_popOpen nodup_popOpen)

/-- A prefix of a well-formed native message: in order, its blocks well nested, typed, and closed
when `message_delta` gives the stop reason. -/
structure MessagePrefix (events : List SseEvent) : Prop where
  ordered : ∃ phase, MessagePhase.opening.run events = some phase
  nested : ∃ nest, Reads Nest.empty events nest
  typed : ∀ event ∈ events, event.event = "content_block_start" →
    ∃ block blockType, event.contentBlock = .obj block ∧ getKey block "type" = .str blockType
  settled : ∀ before event after, events = before ++ event :: after →
    event.event = "message_delta" →
    (∃ delta reason, event.delta = .obj delta ∧ getKey delta "stop_reason" = .str reason) ∧
    ∃ nest, Reads Nest.empty before nest ∧ nest.opened = ∅

/-! ### The open stack of an observed stream -/

section OpenStack

variable {tracker : EmittedNativeSseTracker}

theorem openStack_start {event : SseEvent} (name : event.event = "content_block_start")
    {index : Int} (read : event.index? = some index) :
    (tracker.observe event).openStack = tracker.openStack ++ [index] := by
  rw [EmittedNativeSseTracker.observe_start name, EmittedNativeSseTracker.observeStart, read]

theorem openStack_delta {event : SseEvent} (name : event.event = "content_block_delta") :
    (tracker.observe event).openStack = tracker.openStack := by
  rw [EmittedNativeSseTracker.observe_delta name, EmittedNativeSseTracker.observeDelta]
  rcases event.index? with _ | index
  · rfl
  · dsimp only
    split <;> rfl

theorem openStack_stop {event : SseEvent} (name : event.event = "content_block_stop")
    {index : Int} (read : event.index? = some index) :
    (tracker.observe event).openStack = popOpen tracker.openStack index := by
  rw [EmittedNativeSseTracker.observe_stop name, EmittedNativeSseTracker.observeStop, read]

/-- Stopping a list of blocks takes them off the open stack. -/
theorem mem_openStack_stops {indexes : List Int} (distinct : tracker.openStack.Nodup) :
    (tracker.observeAll (indexes.map contentBlockStop)).openStack.Nodup ∧
      ∀ other, other ∈ (tracker.observeAll (indexes.map contentBlockStop)).openStack ↔
        other ∉ indexes ∧ other ∈ tracker.openStack := by
  induction indexes generalizing tracker with
  | nil => exact ⟨distinct, fun other => by simp⟩
  | cons index rest ih =>
    have stopped : (tracker.observe (contentBlockStop index)).openStack =
        popOpen tracker.openStack index := openStack_stop rfl rfl
    have still : (tracker.observe (contentBlockStop index)).openStack.Nodup :=
      stopped ▸ nodup_popOpen distinct index
    obtain ⟨nodup, members⟩ := ih still
    refine ⟨nodup, fun other => ?_⟩
    rw [List.map_cons, EmittedNativeSseTracker.observeAll_cons, members, stopped,
      mem_popOpen distinct, List.mem_cons, not_or]
    tauto

end OpenStack

/-! ### The link -/

/-- What the policy's state says about the open blocks, upstream and downstream. -/
structure OpenLink (up : Nest Int) (state : NativeSseBlockPolicyState) (openStack : List Int) :
    Prop where
  distinct : openStack.Nodup
  fresh : ∀ index ∈ openStack, index < state.nextIndex
  known : ∀ upstream seg, state.byUpstream.get? upstream = some seg → upstream ∈ up.seen
  dropped : ∀ upstream ∈ state.droppedIndexes,
    upstream ∈ up.seen ∧ state.byUpstream.get? upstream = none
  covered : ∀ upstream ∈ up.seen,
    upstream ∈ state.droppedIndexes ∨ (state.byUpstream.get? upstream).isSome = true
  openUp : ∀ upstream seg, state.byUpstream.get? upstream = some seg → seg.isOpen = true →
    upstream ∈ up.opened
  suppressed : ∀ upstream ∈ state.pendingSuppressedStops, upstream ∈ up.seen ∧
    ∀ seg, state.byUpstream.get? upstream = some seg → seg.isOpen = false
  stack : ∀ index ∈ openStack, ∃ upstream seg,
    state.byUpstream.get? upstream = some seg ∧ seg.isOpen = true ∧ seg.downIndex = index

theorem openLink_init : OpenLink Nest.empty {} [] where
  distinct := List.nodup_nil
  fresh index member := (List.not_mem_nil member).elim
  known upstream seg found := by simp at found
  dropped upstream member := by simp at member
  covered upstream member := by simp [Nest.empty] at member
  openUp upstream seg found := by simp at found
  suppressed upstream member := by simp at member
  stack index member := (List.not_mem_nil member).elim

/-- Once upstream has closed its blocks, none is open downstream. -/
theorem OpenLink.closed {up : Nest Int} {state : NativeSseBlockPolicyState}
    {openStack : List Int} (link : OpenLink up state openStack) (closed : up.opened = ∅) :
    openStack = [] := by
  refine List.eq_nil_iff_forall_not_mem.mpr fun index member => ?_
  obtain ⟨upstream, seg, found, isOpen, _⟩ := link.stack index member
  have inside := link.openUp upstream seg found isOpen
  rw [closed] at inside
  exact (Finset.notMem_empty _ inside).elim

section Step

variable {up : Nest Int} {state : NativeSseBlockPolicyState} {openStack : List Int}
  {event : SseEvent} {payload : List (String × Json)} {upstream : Int} {thinkingEnabled : Bool}

/-- What one event's answer has to be: block events that lead to the linked state. -/
def Answers (next : Nest Int) (openStack : List Int) (result : PolicyResult) : Prop :=
  (∀ out ∈ result.1.getD [], out.isBlockEvent = true) ∧
    ∀ tracker : EmittedNativeSseTracker, tracker.openStack = openStack →
      OpenLink next result.2 (tracker.observeAll (result.1.getD [])).openStack

/-- A dropped event: the answer is empty. -/
theorem answers_none {next : Nest Int} {after : NativeSseBlockPolicyState}
    (link : OpenLink next after openStack) : Answers next openStack (none, after) :=
  ⟨fun _ member => (List.not_mem_nil member).elim, fun _ same => same ▸ link⟩

/-- **A new segment** for a block upstream has open, when the block has no open segment. -/
theorem OpenLink.allocate (link : OpenLink up state openStack) {next : Nest Int}
    (seen : next.seen = insert upstream up.seen) (opened : next.opened = insert upstream up.opened)
    (kept : upstream ∉ state.droppedIndexes)
    (unsuppressed : upstream ∉ state.pendingSuppressedStops)
    (closed : ∀ seg, state.byUpstream.get? upstream = some seg → seg.isOpen = false)
    (blockType : String) (carry : Option (List (String × Json))) :
    OpenLink next (allocateNewSegment state upstream blockType carry).2
      (openStack ++ [state.nextIndex]) := by
  have older : ∀ other ∈ up.seen, other ∈ next.seen := fun other member =>
    seen ▸ Finset.mem_insert_of_mem member
  have lookup : ∀ other, (allocateNewSegment state upstream blockType carry).2.byUpstream.get?
      other = if other = upstream then some ⟨blockType, state.nextIndex, true, carry⟩
        else state.byUpstream.get? other := fun other => Dict.get?_set _ _ _ _
  refine ⟨?_, ?_, ?_, ?_, ?_, ?_, ?_, ?_⟩
  · exact List.nodup_append.mpr ⟨link.distinct, List.nodup_singleton _, fun index member last
      isLast same => absurd (link.fresh index member)
        (by rw [same, List.mem_singleton.mp isLast]; exact lt_irrefl _)⟩
  · intro index member
    show index < state.nextIndex + 1
    rcases List.mem_append.mp member with old | new
    · exact (link.fresh index old).trans (Int.lt_succ _)
    · rw [List.mem_singleton.mp new]
      exact Int.lt_succ _
  · intro other seg found
    rw [lookup] at found
    split_ifs at found with same
    · rw [same, seen]
      exact Finset.mem_insert_self _ _
    · exact older other (link.known other seg found)
  · intro other member
    have different : other ≠ upstream := fun same => kept (same ▸ member)
    rw [lookup, if_neg different]
    exact ⟨older other (link.dropped other member).1, (link.dropped other member).2⟩
  · intro other member
    rw [lookup]
    split_ifs with same
    · exact Or.inr rfl
    · rw [seen, Finset.mem_insert] at member
      exact link.covered other (member.resolve_left same)
  · intro other seg found isOpen
    rw [opened, Finset.mem_insert]
    rw [lookup] at found
    split_ifs at found with same
    · exact Or.inl same
    · exact Or.inr (link.openUp other seg found isOpen)
  · intro other member
    have different : other ≠ upstream := fun same => unsuppressed (same ▸ member)
    rw [lookup, if_neg different]
    exact ⟨older other (link.suppressed other member).1, (link.suppressed other member).2⟩
  · intro index member
    rcases List.mem_append.mp member with old | new
    · obtain ⟨other, seg, found, isOpen, same⟩ := link.stack index old
      have different : other ≠ upstream := by
        rintro rfl
        rw [closed seg found] at isOpen
        cases isOpen
      exact ⟨other, seg, by rw [lookup, if_neg different, found], isOpen, same⟩
    · rw [List.mem_singleton.mp new]
      exact ⟨upstream, _, by rw [lookup, if_pos rfl], rfl, rfl⟩

/-- A suppressed stop that is no longer expected. -/
theorem OpenLink.unsuppress (link : OpenLink up state openStack) (upstream : Int) :
    OpenLink up { state with
      pendingSuppressedStops := state.pendingSuppressedStops.erase upstream } openStack :=
  ⟨link.distinct, link.fresh, link.known, link.dropped, link.covered, link.openUp,
    fun other member => link.suppressed other (Finset.mem_of_mem_erase member), link.stack⟩

/-- A block that upstream stops when it has no open segment. -/
theorem OpenLink.stopClosed (link : OpenLink up state openStack) {upstream : Int}
    (closed : ∀ seg, state.byUpstream.get? upstream = some seg → seg.isOpen = false) :
    OpenLink (up.stop upstream) state openStack := by
  refine ⟨link.distinct, link.fresh, link.known, link.dropped, link.covered,
    fun other seg found isOpen => Finset.mem_erase.mpr ⟨?_, link.openUp other seg found isOpen⟩,
    link.suppressed, link.stack⟩
  rintro rfl
  rw [closed seg found] at isOpen
  cases isOpen

/-- A block that upstream stops together with its segment. -/
theorem OpenLink.stopOpen (link : OpenLink up state openStack) {upstream : Int}
    {seg : UpstreamBlockState} (found : state.byUpstream.get? upstream = some seg) :
    OpenLink (up.stop upstream)
      { state with byUpstream := state.byUpstream.set upstream { seg with isOpen := false } }
      (popOpen openStack seg.downIndex) := by
  have lookup : ∀ other, (state.byUpstream.set upstream { seg with isOpen := false }).get? other =
      if other = upstream then some { seg with isOpen := false }
        else state.byUpstream.get? other := fun other => Dict.get?_set _ _ _ _
  refine ⟨nodup_popOpen link.distinct _, fun index member => ?_, fun other state' found' => ?_,
    fun other member => ?_, fun other member => ?_, fun other state' found' isOpen => ?_,
    fun other member => ?_, fun index member => ?_⟩
  · exact link.fresh index ((mem_popOpen link.distinct).mp member).2
  · rw [lookup] at found'
    split_ifs at found' with same
    · exact same ▸ link.known upstream seg found
    · exact link.known other state' found'
  · obtain ⟨seen, unknown⟩ := link.dropped other member
    have different : other ≠ upstream := by
      rintro rfl
      rw [found] at unknown
      cases unknown
    rw [lookup, if_neg different]
    exact ⟨seen, unknown⟩
  · rw [lookup]
    split_ifs
    · exact Or.inr rfl
    · exact link.covered other member
  · rw [lookup] at found'
    split_ifs at found' with same
    · obtain rfl := Option.some.inj found'
      cases isOpen
    · exact Finset.mem_erase.mpr ⟨same, link.openUp other state' found' isOpen⟩
  · refine ⟨(link.suppressed other member).1, fun state' found' => ?_⟩
    rw [lookup] at found'
    split_ifs at found' with same
    · exact Option.some.inj found' ▸ rfl
    · exact (link.suppressed other member).2 state' found'
  · obtain ⟨different, inside⟩ := (mem_popOpen link.distinct).mp member
    obtain ⟨other, owner, stored, isOpen, same⟩ := link.stack index inside
    have elsewhere : other ≠ upstream := by
      rintro rfl
      obtain rfl := Option.some.inj (found.symm.trans stored)
      exact different same.symm
    exact ⟨other, owner, by rw [lookup, if_neg elsewhere, stored], isOpen, same⟩

/-- **The synthetic close**, when the starting block is new: nothing is left open downstream. -/
theorem OpenLink.closeOthers (link : OpenLink up state openStack)
    (unknown : state.byUpstream.get? upstream = none) :
    OpenLink up (syntheticCloseOtherOpenBlocks state upstream).2 [] ∧
      ∀ tracker : EmittedNativeSseTracker, tracker.openStack = openStack →
        (tracker.observeAll (syntheticCloseOtherOpenBlocks state upstream).1).openStack = [] := by
  have lookup : ∀ other, (syntheticCloseOtherOpenBlocks state upstream).2.byUpstream.get? other =
      (state.byUpstream.get? other).map fun seg =>
        if other ≠ upstream ∧ seg.isOpen then { seg with isOpen := false } else seg :=
    fun other => Dict.get?_mapValues _ _ _
  have allClosed : ∀ other seg,
      (syntheticCloseOtherOpenBlocks state upstream).2.byUpstream.get? other = some seg →
        seg.isOpen = false := by
    intro other seg found
    rw [lookup, Option.map_eq_some_iff] at found
    obtain ⟨old, before, rfl⟩ := found
    have different : other ≠ upstream := by
      rintro rfl
      rw [unknown] at before
      cases before
    by_cases isOpen : old.isOpen = true
    · rw [if_pos ⟨different, isOpen⟩]
    · rw [if_neg fun both => isOpen both.2]
      exact Bool.not_eq_true _ ▸ isOpen
  have sameKeys : ∀ other seg,
      (syntheticCloseOtherOpenBlocks state upstream).2.byUpstream.get? other = some seg →
        other ∈ up.seen := by
    intro other seg found
    rw [lookup, Option.map_eq_some_iff] at found
    obtain ⟨old, before, _⟩ := found
    exact link.known other old before
  refine ⟨⟨List.nodup_nil, fun index member => (List.not_mem_nil member).elim, sameKeys,
    fun other member => ?_, fun other member => ?_, fun other seg found isOpen => ?_,
    fun other member => ?_, fun index member => (List.not_mem_nil member).elim⟩,
    fun tracker same => ?_⟩
  · rw [lookup, (link.dropped other member).2]
    exact ⟨(link.dropped other member).1, rfl⟩
  · rw [lookup, Option.isSome_map]
    exact link.covered other member
  · rw [allClosed other seg found] at isOpen
    cases isOpen
  · refine ⟨?_, allClosed other⟩
    rcases Finset.mem_union.mp member with old | new
    · exact (link.suppressed other old).1
    · obtain ⟨entry, inside, rfl⟩ := List.mem_map.mp (List.mem_toFinset.mp new)
      have stored := (List.mem_filter.mp inside).1
      exact link.known entry.1 entry.2 (state.byUpstream.mem_entries_iff.mp stored)
  · have events : (syntheticCloseOtherOpenBlocks state upstream).1 =
        ((otherOpenBlocks state upstream).map fun entry => entry.2.downIndex).map
          contentBlockStop := by
      rw [List.map_map]
      rfl
    refine List.eq_nil_iff_forall_not_mem.mpr fun index member => ?_
    rw [events, (mem_openStack_stops (same ▸ link.distinct)).2 index, same] at member
    obtain ⟨other, seg, found, isOpen, sameIndex⟩ := link.stack index member.2
    have different : other ≠ upstream := by
      rintro rfl
      rw [unknown] at found
      cases found
    refine member.1 (List.mem_map.mpr ⟨(other, seg), List.mem_filter.mpr
      ⟨state.byUpstream.mem_entries_iff.mpr found, ?_⟩, sameIndex⟩)
    simpa using ⟨different, isOpen⟩

/-- A block's start. -/
theorem start_answers (link : OpenLink up state openStack) (name : event.event = "content_block_start")
    {block : List (String × Json)} {blockType : String}
    (content : getKey payload "content_block" = .obj block)
    (typed : getKey block "type" = .str blockType)
    (index : (getKey payload "index").asInt? = some upstream) (fresh : upstream ∉ up.seen) :
    Answers (up.start upstream) openStack (transformStart event payload state thinkingEnabled) := by
  have unknown : state.byUpstream.get? upstream = none := by
    rcases found : state.byUpstream.get? upstream with _ | seg
    · rfl
    · exact absurd (link.known upstream seg found) fresh
  have seen : ∀ other ∈ up.seen, other ∈ (up.start upstream).seen := fun other member =>
    Finset.mem_insert_of_mem member
  unfold transformStart
  rw [content, index]
  dsimp only
  rw [typed]
  split_ifs with drops
  · refine answers_none ⟨link.distinct, link.fresh, fun other seg found =>
      seen other (link.known other seg found), fun other member => ?_, fun other member => ?_,
      fun other seg found isOpen => Finset.mem_insert_of_mem (link.openUp other seg found isOpen),
      fun other member => ⟨seen other (link.suppressed other member).1,
        (link.suppressed other member).2⟩, link.stack⟩
    · rcases Finset.mem_insert.mp member with rfl | older
      · exact ⟨Finset.mem_insert_self _ _, unknown⟩
      · exact ⟨seen other (link.dropped other older).1, (link.dropped other older).2⟩
    · rcases Finset.mem_insert.mp member with rfl | older
      · exact Or.inl (Finset.mem_insert_self _ _)
      · exact (link.covered other older).imp_left Finset.mem_insert_of_mem
  · obtain ⟨closed, emptied⟩ := link.closeOthers unknown
    set middle := (syntheticCloseOtherOpenBlocks state upstream).2 with hMiddle
    set closes := (syntheticCloseOtherOpenBlocks state upstream).1 with hCloses
    refine ⟨fun out member => ?_, fun tracker same => ?_⟩
    · rcases List.mem_append.mp member with close | reindexed
      · obtain ⟨entry, _, rfl⟩ := List.mem_map.mp close
        rfl
      · rw [List.mem_singleton.mp reindexed, SseEvent.isBlockEvent,
          SseEvent.event_formatSseEvent, name]
        rfl
    · have opens : (tracker.observeAll (closes ++ [formatSseEvent event.event
          (setKey payload "index" (.int middle.nextIndex))])).openStack =
          [] ++ [middle.nextIndex] := by
        rw [EmittedNativeSseTracker.observeAll_append, EmittedNativeSseTracker.observeAll_cons,
          EmittedNativeSseTracker.observeAll_nil,
          openStack_start (by exact name) (index?_setKey _ _ _), emptied tracker same]
      show OpenLink (up.start upstream)
        (allocateNewSegment middle upstream blockType (some block)).2
        (tracker.observeAll (closes ++ [formatSseEvent event.event
          (setKey payload "index" (.int middle.nextIndex))])).openStack
      rw [opens]
      refine closed.allocate rfl rfl ?_ ?_ ?_ blockType (some block)
      · exact fun member => fresh (link.dropped upstream member).1
      · exact fun member => fresh (closed.suppressed upstream member).1
      · exact fun seg found => absurd (closed.known upstream seg found) fresh

/-- A delta of an open block. -/
theorem delta_answers (link : OpenLink up state openStack)
    (name : event.event = "content_block_delta")
    (index : (getKey payload "index").asInt? = some upstream) (isOpen : upstream ∈ up.opened) :
    Answers up openStack (transformDelta event payload state thinkingEnabled) := by
  have passes : ∀ out : SseEvent, out.event = "content_block_delta" →
      Answers up openStack (some [out], state) := by
    refine fun out outName => ⟨fun other member => ?_, fun tracker same => ?_⟩
    · rw [List.mem_singleton.mp member, SseEvent.isBlockEvent, outName]
      rfl
    · show OpenLink up state (tracker.observe out).openStack
      rw [openStack_delta outName, same]
      exact link
  unfold transformDelta
  rw [index]
  split
  · rename_i delta upstreamIndex deltaObject sameIndex
    obtain rfl := Option.some.inj sameIndex
    dsimp only
    split_ifs with drops hidden
    · exact answers_none link
    · exact answers_none link
    · split
      · exact passes event name
      · rename_i blockKind _
        split
        · rename_i seg found
          split_ifs with segOpen
          · exact passes _ name
          · -- a late delta: the segment is reopened under the next index
            have reopened := link.unsuppress upstream
            refine ⟨fun out member => ?_, fun tracker same => ?_⟩
            · rcases List.mem_pair.mp member with rfl | rfl
              · rfl
              · rw [SseEvent.isBlockEvent, SseEvent.event_formatSseEvent, name]
                rfl
            · show OpenLink up _ ((tracker.observe (contentBlockStart state.nextIndex _)).observe
                (formatSseEvent event.event _)).openStack
              rw [openStack_delta (by exact name), openStack_start rfl rfl, same]
              refine reopened.allocate
                (Finset.insert_eq_of_mem (up.within isOpen)).symm
                (Finset.insert_eq_of_mem isOpen).symm drops (Finset.notMem_erase _ _) ?_ blockKind
                seg.lastStartBlock
              intro other lookup
              obtain rfl := Option.some.inj (found.symm.trans lookup)
              exact Bool.not_eq_true _ ▸ segOpen
        · rename_i unknown
          rcases link.covered upstream (up.within isOpen) with dropped | known
          · exact absurd dropped drops
          · rw [unknown] at known
            cases known
  · exact passes event name

/-- A stop of an open block. -/
theorem stop_answers (link : OpenLink up state openStack)
    (name : event.event = "content_block_stop")
    (index : (getKey payload "index").asInt? = some upstream) (isOpen : upstream ∈ up.opened) :
    Answers (up.stop upstream) openStack (transformStop event payload state thinkingEnabled) := by
  unfold transformStop
  rw [index]
  dsimp only
  split_ifs with drops suppressed
  · refine answers_none (link.stopClosed fun seg found => ?_)
    rw [(link.dropped upstream drops).2] at found
    cases found
  · refine answers_none ((link.unsuppress upstream).stopClosed fun seg found => ?_)
    exact (link.suppressed upstream suppressed).2 seg found
  all_goals
    split
    · rename_i seg found
      split_ifs with segOpen
      · refine ⟨fun out member => ?_, fun tracker same => ?_⟩
        · rw [List.mem_singleton.mp member, SseEvent.isBlockEvent,
            SseEvent.event_formatSseEvent, name]
          rfl
        · show OpenLink _ _ (tracker.observe (formatSseEvent event.event
            (setKey payload "index" (.int seg.downIndex)))).openStack
          rw [openStack_stop (by exact name) (index?_setKey _ _ _), same]
          exact link.stopOpen found
      · refine answers_none (link.stopClosed fun other lookup => ?_)
        obtain rfl := Option.some.inj (found.symm.trans lookup)
        exact Bool.not_eq_true _ ▸ segOpen
    · rename_i unknown
      rcases link.covered upstream (up.within isOpen) with dropped | known
      · exact absurd dropped drops
      · rw [unknown] at known
        cases known

/-- **One content-block event keeps the link.** -/
theorem block_link (link : OpenLink up state openStack) {next : Nest Int}
    (block : event.isBlockEvent = true) (reads : Reads up [event] next)
    (typed : event.event = "content_block_start" →
      ∃ block blockType, event.contentBlock = .obj block ∧ getKey block "type" = .str blockType) :
    ∃ result, transformNativeSseBlockEvent event state thinkingEnabled = .ok result ∧
      Answers next openStack result := by
  obtain ⟨mark, read⟩ := Option.isSome_iff_exists.mp
    (reads.readable event List.mem_cons_self block)
  have step := reads.accepted
  rw [run_marks_singleton _ read] at step
  obtain ⟨upstream, found, names⟩ := event_of_mark? read
  obtain ⟨payload, data, fields, index⟩ := data_of_index? found
  rcases names with ⟨name, rfl⟩ | ⟨name, rfl⟩ | ⟨name, rfl⟩
  · obtain ⟨fresh, started⟩ := Option.ite_none_left_eq_some.mp step
    obtain rfl := Option.some.inj started
    obtain ⟨contentBlock, blockType, content, blockTyped⟩ := typed name
    rw [SseEvent.contentBlock, fields] at content
    exact ⟨_, transform_start name data, start_answers link name content blockTyped index fresh⟩
  · obtain ⟨isOpen, same⟩ := Option.ite_none_right_eq_some.mp step
    obtain rfl := Option.some.inj same
    exact ⟨_, transform_delta name data, delta_answers link name index isOpen⟩
  · obtain ⟨isOpen, stopped⟩ := Option.ite_none_right_eq_some.mp step
    obtain rfl := Option.some.inj stopped
    exact ⟨_, transform_stop name data, stop_answers link name index isOpen⟩

end Step

/-! ### A whole prefix -/

/-- What the tracker of the output knows of the message's end, by phase. -/
def Reached (phase : MessagePhase) (tracker : EmittedNativeSseTracker) (nest : Nest Int) : Prop :=
  match phase with
  | .opening | .content => tracker.stopReason = none ∧ tracker.messageStopped = false
  | .closing =>
    tracker.stopReason.isSome = true ∧ tracker.messageStopped = false ∧ nest.opened = ∅
  | .stopped =>
    tracker.stopReason.isSome = true ∧ tracker.messageStopped = true ∧ nest.opened = ∅

/-- Only `message_delta` and `message_stop` say that a message ends. -/
theorem observe_ending {tracker : EmittedNativeSseTracker} {event : SseEvent}
    (noDelta : event.event ≠ "message_delta") (noStop : event.event ≠ "message_stop") :
    (tracker.observe event).stopReason = tracker.stopReason ∧
      (tracker.observe event).messageStopped = tracker.messageStopped := by
  unfold EmittedNativeSseTracker.observe
  split_ifs
  · unfold EmittedNativeSseTracker.observeMessageStart
    split <;> exact ⟨rfl, rfl⟩
  · unfold EmittedNativeSseTracker.observeStart
    split <;> exact ⟨rfl, rfl⟩
  · unfold EmittedNativeSseTracker.observeDelta
    split
    · exact ⟨rfl, rfl⟩
    · split <;> exact ⟨rfl, rfl⟩
  · unfold EmittedNativeSseTracker.observeStop
    split <;> exact ⟨rfl, rfl⟩
  · exact ⟨rfl, rfl⟩

theorem observeAll_blocks {events : List SseEvent}
    (blocks : ∀ event ∈ events, event.isBlockEvent = true) (tracker : EmittedNativeSseTracker) :
    (tracker.observeAll events).stopReason = tracker.stopReason ∧
      (tracker.observeAll events).messageStopped = tracker.messageStopped := by
  induction events generalizing tracker with
  | nil => exact ⟨rfl, rfl⟩
  | cons event rest ih =>
    have plain := isMessageEvent_of_isBlockEvent (blocks event List.mem_cons_self)
    simp only [SseEvent.isMessageEvent, Bool.or_eq_false_iff, decide_eq_false_iff_not] at plain
    obtain ⟨sameReason, sameStopped⟩ := @observe_ending tracker event plain.1.2 plain.2
    obtain ⟨restReason, restStopped⟩ :=
      ih (fun other member => blocks other (List.mem_cons_of_mem _ member)) (tracker.observe event)
    exact ⟨restReason.trans sameReason, restStopped.trans sameStopped⟩

theorem transformNativeSseStream_concat {thinkingEnabled : Bool}
    {state middle last : NativeSseBlockPolicyState} {events out : List SseEvent} {event : SseEvent}
    {answer : Option (List SseEvent)}
    (first : transformNativeSseStream thinkingEnabled state events = .ok (out, middle))
    (step : transformNativeSseBlockEvent event middle thinkingEnabled = .ok (answer, last)) :
    transformNativeSseStream thinkingEnabled state (events ++ [event]) =
      .ok (out ++ answer.getD [], last) := by
  induction events generalizing state out with
  | nil =>
    cases first
    rw [List.nil_append, transformNativeSseStream, step]
    simp only [transformNativeSseStream, List.append_nil, List.nil_append]
  | cons head rest ih =>
    rw [transformNativeSseStream] at first
    rw [List.cons_append, transformNativeSseStream]
    split at first
    · cases first
    · rename_i headEvents afterHead _
      split at first
      · cases first
      · rename_i later afterRest run
        cases first
        rw [ih run]
        simp only [List.append_assoc]

theorem MessagePrefix.init {events : List SseEvent} {event : SseEvent}
    (message : MessagePrefix (events ++ [event])) : MessagePrefix events := by
  obtain ⟨⟨phase, ordered⟩, ⟨nest, nested⟩, typed, settled⟩ := message
  refine ⟨?_, ?_, fun other member => typed other (List.mem_append_left _ member),
    fun before delta after split => settled before delta (after ++ [event]) ?_⟩
  · rw [MessagePhase.run_append, Option.bind_eq_some_iff] at ordered
    exact ⟨_, ordered.choose_spec.1⟩
  · obtain ⟨middle, first, _⟩ := nested.split
    exact ⟨middle, first⟩
  · rw [split, List.append_assoc, List.cons_append]

/-- Block events belong to a message's content. -/
theorem step_block {phase next : MessagePhase} {event : SseEvent}
    (block : event.isBlockEvent = true) (step : phase.step event = some next) :
    phase = .content ∧ next = .content := by
  have plain := isMessageEvent_of_isBlockEvent block
  simp only [SseEvent.isMessageEvent, Bool.or_eq_false_iff, decide_eq_false_iff_not] at plain
  cases phase with
  | opening => exact absurd (Option.ite_none_right_eq_some.mp step).1 plain.1.1
  | content =>
    rw [MessagePhase.step, if_neg plain.1.2, if_neg (not_or.mpr ⟨plain.1.1, plain.2⟩)] at step
    exact ⟨rfl, (Option.some.inj step).symm⟩
  | closing =>
    rw [MessagePhase.step, if_neg plain.2, block, Bool.or_true, if_pos rfl] at step
    cases step
  | stopped => cases step

/-- What is known of the message's end after an event that is no block event. -/
theorem Reached.other {phase next : MessagePhase} {tracker : EmittedNativeSseTracker}
    {nest : Nest Int} {event : SseEvent} (reached : Reached phase tracker nest)
    (step : phase.step event = some next)
    (settled : event.event = "message_delta" →
      (∃ delta reason, event.delta = .obj delta ∧ getKey delta "stop_reason" = .str reason) ∧
      nest.opened = ∅) :
    Reached next (tracker.observe event) nest := by
  cases phase with
  | opening =>
    obtain ⟨name, same⟩ := Option.ite_none_right_eq_some.mp step
    obtain rfl := Option.some.inj same
    obtain ⟨sameReason, sameStopped⟩ := @observe_ending tracker event
      (by rw [name]; decide) (by rw [name]; decide)
    exact ⟨sameReason.trans reached.1, sameStopped.trans reached.2⟩
  | content =>
    rw [MessagePhase.step] at step
    split_ifs at step with closes barred
    · obtain rfl := Option.some.inj step
      obtain ⟨⟨delta, reason, payload, found⟩, closed⟩ := settled closes
      have observed : tracker.observe event = { tracker with stopReason := some reason } := by
        rw [EmittedNativeSseTracker.observe, closes]
        show tracker.observeMessageDelta event = _
        rw [EmittedNativeSseTracker.observeMessageDelta, payload]
        dsimp only
        rw [found]
        rfl
      rw [observed]
      exact ⟨rfl, reached.2, closed⟩
    · obtain rfl := Option.some.inj step
      obtain ⟨sameReason, sameStopped⟩ := @observe_ending tracker event closes
        (not_or.mp barred).2
      exact ⟨sameReason.trans reached.1, sameStopped.trans reached.2⟩
  | closing =>
    rw [MessagePhase.step] at step
    split_ifs at step with stops barred
    · obtain rfl := Option.some.inj step
      have observed : tracker.observe event = { tracker with messageStopped := true } := by
        rw [EmittedNativeSseTracker.observe, stops]
        rfl
      rw [observed]
      exact ⟨reached.1, rfl, reached.2.2⟩
    · obtain rfl := Option.some.inj step
      simp only [Bool.or_eq_true, not_or, Bool.not_eq_true, SseEvent.isMessageEvent,
        decide_eq_false_iff_not] at barred
      obtain ⟨sameReason, sameStopped⟩ := @observe_ending tracker event barred.1.1.2 stops
      exact ⟨sameReason ▸ reached.1, sameStopped.trans reached.2.1, reached.2.2⟩
  | stopped => cases step

/-- A message whose only `message_delta` is in view. -/
theorem settled_of_split {before after : List SseEvent} {event : SseEvent}
    (noneAfter : ∀ other ∈ after, other.event ≠ "message_delta")
    (noneBefore : ∀ other ∈ before, other.event ≠ "message_delta")
    {delta : List (String × Json)} {reason : String} (payload : event.delta = .obj delta)
    (given : getKey delta "stop_reason" = .str reason) {nest : Nest Int}
    (reads : Reads Nest.empty before nest) (closed : nest.opened = ∅)
    {front back : List SseEvent} {other : SseEvent}
    (split : before ++ event :: after = front ++ other :: back)
    (name : other.event = "message_delta") :
    (∃ delta reason, other.delta = .obj delta ∧ getKey delta "stop_reason" = .str reason) ∧
    ∃ nest, Reads Nest.empty front nest ∧ nest.opened = ∅ := by
  rcases List.append_eq_append_iff.mp split with ⟨middle, rfl, rest⟩ | ⟨middle, rfl, rest⟩
  · cases middle with
    | nil =>
      obtain ⟨rfl, rfl⟩ := List.cons.inj rest
      exact ⟨⟨delta, reason, payload, given⟩, nest, by rwa [List.append_nil], closed⟩
    | cons head tail =>
      obtain ⟨_, rfl⟩ := List.cons.inj rest
      exact absurd name (noneAfter other (List.mem_append_right _ List.mem_cons_self))
  · cases middle with
    | nil =>
      obtain ⟨rfl, rfl⟩ := List.cons.inj rest
      exact ⟨⟨delta, reason, payload, given⟩, nest, by rwa [List.append_nil] at reads, closed⟩
    | cons head tail =>
      obtain ⟨rfl, _⟩ := List.cons.inj rest
      exact absurd name (noneBefore other (List.mem_append_right _ List.mem_cons_self))

/-- **A prefix of a message through the policy**: the same phase, the link, and at the message's end
no open block. -/
theorem messagePrefix_transformed (thinkingEnabled : Bool) {events : List SseEvent}
    (message : MessagePrefix events) :
    ∃ phase nest out state, MessagePhase.opening.run events = some phase ∧
      Reads Nest.empty events nest ∧
      transformNativeSseStream thinkingEnabled {} events = .ok (out, state) ∧
      MessagePhase.opening.run out = some phase ∧
      OpenLink nest state (EmittedNativeSseTracker.observeAll {} out).openStack ∧
      Reached phase (EmittedNativeSseTracker.observeAll {} out) nest := by
  induction events using List.reverseRecOn with
  | nil => exact ⟨.opening, Nest.empty, [], {}, rfl, Reads.nil _, rfl, rfl, openLink_init, rfl, rfl⟩
  | append_singleton events event ih =>
    obtain ⟨phase, nest, out, state, ordered, nested, transformed, orderedOut, link, reached⟩ :=
      ih message.init
    obtain ⟨phase', ordered'⟩ := message.ordered
    have step : phase.step event = some phase' := by
      have orderedStep := ordered'
      rw [MessagePhase.run_append, ordered, Option.bind_some, MessagePhase.run_cons,
        Option.bind_eq_some_iff] at orderedStep
      obtain ⟨next, step, same⟩ := orderedStep
      exact step.trans same
    obtain ⟨next, nested'⟩ := message.nested
    have reads : Reads nest [event] next := by
      obtain ⟨middle, first, later⟩ := nested'.split
      exact nested.unique first ▸ later
    by_cases block : event.isBlockEvent = true
    · obtain ⟨rfl, rfl⟩ := step_block block step
      obtain ⟨⟨answer, last⟩, answered, blocks, linked⟩ := block_link link block reads
        (message.typed event (List.mem_append_right _ (List.mem_singleton.mpr rfl)))
      refine ⟨.content, next, out ++ answer.getD [], last, ordered', nested',
        transformNativeSseStream_concat transformed answered, ?_, ?_, ?_⟩
      · rw [MessagePhase.run_append, orderedOut, Option.bind_some]
        exact MessagePhase.run_content fun other member =>
          isMessageEvent_of_isBlockEvent (blocks other member)
      · rw [EmittedNativeSseTracker.observeAll_append]
        exact linked _ rfl
      · rw [EmittedNativeSseTracker.observeAll_append]
        obtain ⟨sameReason, sameStopped⟩ := observeAll_blocks blocks
          (EmittedNativeSseTracker.observeAll {} out)
        exact ⟨sameReason.trans reached.1, sameStopped.trans reached.2⟩
    · have other : event.isBlockEvent = false := Bool.not_eq_true _ ▸ block
      obtain rfl : next = nest := reads.unique
        (Reads.others fun plain member => List.mem_singleton.mp member ▸ other)
      refine ⟨phase', next, out ++ [event], state, ordered', nested',
        transformNativeSseStream_concat transformed (transform_other other), ?_, ?_, ?_⟩
      · rw [MessagePhase.run_append, orderedOut, Option.bind_some, MessagePhase.run_cons, step]
        rfl
      · rw [EmittedNativeSseTracker.observeAll_append, EmittedNativeSseTracker.observeAll_cons,
          EmittedNativeSseTracker.observeAll_nil,
          (EmittedNativeSseTracker.observe_other other).1]
        exact link
      · rw [EmittedNativeSseTracker.observeAll_append]
        refine reached.other step fun name => ?_
        obtain ⟨reason, closedNest, closedReads, closed⟩ :=
          message.settled events event [] rfl name
        exact ⟨reason, nested.unique closedReads ▸ closed⟩

end ClaudeProxy
