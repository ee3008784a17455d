/-
**Overlapping upstream blocks, thinking enabled.**

`Linked up state past down` relates what has been read of the upstream stream (`up`), the policy's
state, and what has been sent downstream (`down`); `past` names, for every downstream index handed
out so far, the upstream block it belongs to.

* a block is known to the policy once upstream has started it;
* its segment is open exactly while upstream has it open and its stop is not suppressed;
* the open downstream blocks are the open segments, each owned by its own upstream block.

`syntheticClose_linked` closes the other open segments, `openFresh_linked` opens a segment at the
next index; the four event shapes (`start_step`, `delta_step`, `stop_step`, `other_step`) are put
together from these, and `overlap_run` is the induction over the stream.
**`overlapping_frames_are_repaired`** says it of the texts, where the policy decodes the frames of the
blocks.
-/

import ClaudeProxy.Sse.PolicyAnswers
import Mathlib.Data.Finset.Lattice.Fold

namespace ClaudeProxy

open Json (getKey setKey)

/-- Interleaved upstream blocks: well nested, started with a typed `content_block`, and extended by
deltas of the four mapped types. -/
structure OverlappingBlocks (events : List SseEvent) : Prop where
  nested : WellNested events
  typed : ∀ event ∈ events, event.event = "content_block_start" →
    ∃ block blockType, event.contentBlock = .obj block ∧ getKey block "type" = .str blockType
  mapped : ∀ event ∈ events, event.event = "content_block_delta" →
    ∃ delta kind, event.delta = .obj delta ∧
      deltaTypeToBlockKind (getKey delta "type") = some kind

/-! ### The link between upstream, policy and downstream -/

/-- What the policy's state says, between an upstream prefix and the downstream one. -/
structure Linked (up : Nest Int) (state : NativeSseBlockPolicyState) (past : Int → Int)
    (down : Nest Int) : Prop where
  dropped : state.droppedIndexes = ∅
  known : ∀ upstream, upstream ∈ up.seen ↔ (state.byUpstream.get? upstream).isSome
  suppressed : state.pendingSuppressedStops ⊆ up.opened
  live : ∀ upstream seg, state.byUpstream.get? upstream = some seg →
    (seg.isOpen = true ↔ upstream ∈ up.opened ∧ upstream ∉ state.pendingSuppressedStops)
  openDown : ∀ index, index ∈ down.opened ↔ ∃ upstream seg,
    state.byUpstream.get? upstream = some seg ∧ seg.isOpen = true ∧ seg.downIndex = index
  owned : ∀ upstream seg, state.byUpstream.get? upstream = some seg → seg.isOpen = true →
    past seg.downIndex = upstream
  fresh : ∀ index ∈ down.seen, index < state.nextIndex

theorem linked_init (past : Int → Int) : Linked Nest.empty {} past Nest.empty where
  dropped := rfl
  known upstream := by simp [Nest.empty]
  suppressed := Finset.Subset.refl _
  live upstream seg found := by simp at found
  openDown index := by simp [Nest.empty]
  owned upstream seg found := by simp at found
  fresh index member := by simp [Nest.empty] at member

section Step

variable {up down : Nest Int} {state : NativeSseBlockPolicyState} {past : Int → Int}

/-- A segment of an open, unsuppressed block is among the open downstream blocks. -/
theorem Linked.mem_opened (linked : Linked up state past down) {upstream : Int}
    {seg : UpstreamBlockState} (found : state.byUpstream.get? upstream = some seg)
    (isOpen : seg.isOpen = true) : seg.downIndex ∈ down.opened :=
  (linked.openDown _).mpr ⟨upstream, seg, found, isOpen, rfl⟩

theorem Linked.downIndex_lt (linked : Linked up state past down) {upstream : Int}
    {seg : UpstreamBlockState} (found : state.byUpstream.get? upstream = some seg)
    (isOpen : seg.isOpen = true) : seg.downIndex < state.nextIndex :=
  linked.fresh _ (down.within (linked.mem_opened found isOpen))

/-- The downstream indexes that a synthetic close stops are pairwise distinct. -/
theorem Linked.nodup_closing (linked : Linked up state past down) (current : Int) :
    ((otherOpenBlocks state current).map fun entry => entry.2.downIndex).Nodup := by
  have keys : ((otherOpenBlocks state current).map Prod.fst).Nodup :=
    state.byUpstream.nodupKeys.sublist (List.filter_sublist.map _)
  have owners : ((otherOpenBlocks state current).map fun entry => entry.2.downIndex).map past =
      (otherOpenBlocks state current).map Prod.fst := by
    rw [List.map_map]
    refine List.map_congr_left fun entry member => ?_
    obtain ⟨found, _, isOpen⟩ := mem_otherOpenBlocks.mp member
    exact linked.owned entry.1 entry.2 found isOpen
  exact List.Nodup.of_map past (owners ▸ keys)

/-- **The synthetic close** stops exactly the other open segments, once each. -/
theorem syntheticClose_linked (linked : Linked up state past down) (current : Int) :
    ∃ closed, down.run (marks (syntheticCloseOtherOpenBlocks state current).1) = some closed ∧
      closed.seen = down.seen ∧
      Linked up (syntheticCloseOtherOpenBlocks state current).2 past closed := by
  set closing := (otherOpenBlocks state current).map fun entry => entry.2.downIndex with hClosing
  have events : (syntheticCloseOtherOpenBlocks state current).1 =
      closing.map contentBlockStop := by
    rw [hClosing, List.map_map]
    rfl
  have inOpened : ∀ index ∈ closing, index ∈ down.opened := by
    intro index member
    obtain ⟨entry, inside, rfl⟩ := List.mem_map.mp member
    obtain ⟨found, _, isOpen⟩ := mem_otherOpenBlocks.mp inside
    exact linked.mem_opened found isOpen
  refine ⟨down.close closing, ?_, rfl, ?_⟩
  · rw [events, marks_stops]
    exact Nest.run_stops (linked.nodup_closing current) down inOpened
  have lookup : ∀ upstream, (syntheticCloseOtherOpenBlocks state current).2.byUpstream.get?
      upstream = (state.byUpstream.get? upstream).map fun seg =>
        if upstream ≠ current ∧ seg.isOpen then { seg with isOpen := false } else seg :=
    fun upstream => Dict.get?_mapValues _ _ _
  have pending : ∀ upstream,
      upstream ∈ (syntheticCloseOtherOpenBlocks state current).2.pendingSuppressedStops ↔
        upstream ∈ state.pendingSuppressedStops ∨
          ∃ seg, state.byUpstream.get? upstream = some seg ∧ upstream ≠ current ∧
            seg.isOpen = true := by
    intro upstream
    simp only [syntheticCloseOtherOpenBlocks, Finset.mem_union, List.mem_toFinset, List.mem_map,
      mem_otherOpenBlocks, Prod.exists, exists_and_right, exists_eq_right]
  -- a segment that is open afterwards is the current block's, untouched
  have survivor : ∀ upstream seg,
      (syntheticCloseOtherOpenBlocks state current).2.byUpstream.get? upstream = some seg →
        seg.isOpen = true → state.byUpstream.get? upstream = some seg ∧ upstream = current := by
    intro upstream seg found isOpen
    rw [lookup] at found
    obtain ⟨old, oldFound, rfl⟩ := Option.map_eq_some_iff.mp found
    by_cases same : upstream = current
    · rw [if_neg fun both => both.1 same]
      exact ⟨oldFound, same⟩
    · split_ifs at isOpen with both
      exact absurd ⟨same, isOpen⟩ both
  refine ⟨linked.dropped, ?_, ?_, ?_, ?_, ?_, linked.fresh⟩
  · intro upstream
    rw [linked.known, lookup, Option.isSome_map]
  · intro upstream member
    rcases (pending upstream).mp member with member | ⟨seg, found, _, isOpen⟩
    · exact linked.suppressed member
    · exact ((linked.live upstream seg found).mp isOpen).1
  · intro upstream seg found
    rw [lookup] at found
    obtain ⟨old, oldFound, rfl⟩ := Option.map_eq_some_iff.mp found
    have before := linked.live upstream old oldFound
    rw [pending]
    by_cases closes : upstream ≠ current ∧ old.isOpen
    · rw [if_pos closes]
      have now : ∃ seg, state.byUpstream.get? upstream = some seg ∧ upstream ≠ current ∧
          seg.isOpen = true := ⟨old, oldFound, closes⟩
      simp [now]
    · rw [if_neg closes, before]
      have never : ¬ ∃ seg, state.byUpstream.get? upstream = some seg ∧ upstream ≠ current ∧
          seg.isOpen = true := by
        rintro ⟨seg, segFound, different, isOpen⟩
        rw [oldFound, Option.some.injEq] at segFound
        exact closes ⟨different, segFound ▸ isOpen⟩
      simp [never]
  · intro index
    rw [Nest.opened_close, Finset.mem_sdiff, List.mem_toFinset]
    constructor
    · rintro ⟨opened, kept⟩
      obtain ⟨upstream, seg, found, isOpen, rfl⟩ := (linked.openDown index).mp opened
      have same : upstream = current := by
        by_contra different
        exact kept (List.mem_map.mpr ⟨(upstream, seg),
          mem_otherOpenBlocks.mpr ⟨found, different, isOpen⟩, rfl⟩)
      refine ⟨upstream, seg, ?_, isOpen, rfl⟩
      rw [lookup, found, Option.map_some, if_neg fun both => both.1 same]
    · rintro ⟨upstream, seg, found, isOpen, rfl⟩
      obtain ⟨oldFound, same⟩ := survivor upstream seg found isOpen
      refine ⟨linked.mem_opened oldFound isOpen, fun member => ?_⟩
      obtain ⟨entry, inside, sameIndex⟩ := List.mem_map.mp member
      obtain ⟨entryFound, different, entryOpen⟩ := mem_otherOpenBlocks.mp inside
      have owner := linked.owned _ _ entryFound entryOpen
      have mine := linked.owned _ _ oldFound isOpen
      rw [sameIndex, mine] at owner
      exact different (owner.symm.trans same)
  · intro upstream seg found isOpen
    exact linked.owned upstream seg (survivor upstream seg found isOpen).1 isOpen

/-- **Opening a segment** at the next index, for a block that is open upstream and whose segment, if
it has one, is closed; a suppressed stop of that block is no longer suppressed. -/
theorem openFresh_linked (next : Nest Int) (linked : Linked up state past down) {upstream : Int}
    (seenNext : next.seen = insert upstream up.seen)
    (openedNext : next.opened = insert upstream up.opened)
    (closed : ∀ seg, state.byUpstream.get? upstream = some seg → seg.isOpen = false)
    (blockType : String) (block : Option (List (String × Json))) :
    Linked next (allocateNewSegment { state with
        pendingSuppressedStops := state.pendingSuppressedStops.erase upstream } upstream
        blockType block).2
      (Function.update past state.nextIndex upstream) (down.start state.nextIndex) := by
  have lookup : ∀ other, (state.byUpstream.set upstream
      ⟨blockType, state.nextIndex, true, block⟩).get? other =
        if other = upstream then some ⟨blockType, state.nextIndex, true, block⟩
        else state.byUpstream.get? other :=
    fun other => Dict.get?_set _ _ _ _
  refine ⟨linked.dropped, ?_, ?_, ?_, ?_, ?_, ?_⟩
  · intro other
    show _ ↔ ((state.byUpstream.set upstream _).get? other).isSome = true
    rw [lookup, seenNext, Finset.mem_insert, linked.known]
    by_cases same : other = upstream
    · simp [same]
    · simp [same]
  · intro other member
    rw [openedNext]
    exact Finset.mem_insert_of_mem (linked.suppressed (Finset.mem_of_mem_erase member))
  · intro other seg found
    show _ ↔ _ ∧ other ∉ state.pendingSuppressedStops.erase upstream
    replace found : (state.byUpstream.set upstream _).get? other = some seg := found
    rw [lookup] at found
    rw [openedNext, Finset.mem_insert]
    by_cases same : other = upstream
    · rw [if_pos same, Option.some.injEq] at found
      subst found
      subst same
      simp
    · rw [if_neg same] at found
      rw [linked.live other seg found]
      simp [same]
  · intro index
    show _ ↔ ∃ other seg, (state.byUpstream.set upstream _).get? other = some seg ∧ _
    rw [Nest.opened_start, Finset.mem_insert, linked.openDown]
    constructor
    · rintro (rfl | ⟨other, seg, found, isOpen, rfl⟩)
      · exact ⟨upstream, _, by rw [lookup, if_pos rfl], rfl, rfl⟩
      · have different : other ≠ upstream := by
          rintro rfl
          rw [closed seg found] at isOpen
          cases isOpen
        exact ⟨other, seg, by rw [lookup, if_neg different, found], isOpen, rfl⟩
    · rintro ⟨other, seg, found, isOpen, rfl⟩
      rw [lookup] at found
      by_cases same : other = upstream
      · rw [if_pos same, Option.some.injEq] at found
        subst found
        exact Or.inl rfl
      · rw [if_neg same] at found
        exact Or.inr ⟨other, seg, found, isOpen, rfl⟩
  · intro other seg found isOpen
    replace found : (state.byUpstream.set upstream _).get? other = some seg := found
    rw [lookup] at found
    by_cases same : other = upstream
    · rw [if_pos same, Option.some.injEq] at found
      subst found
      rw [Function.update_self, same]
    · rw [if_neg same] at found
      have older := linked.downIndex_lt found isOpen
      rw [Function.update_of_ne (ne_of_lt older)]
      exact linked.owned other seg found isOpen
  · intro index member
    show index < state.nextIndex + 1
    rw [Nest.seen_start, Finset.mem_insert] at member
    rcases member with rfl | member
    · exact Int.lt_succ _
    · exact (linked.fresh index member).trans (Int.lt_succ _)

/-! ### The four event shapes -/

/-- What the policy does with some upstream events: the downstream events it sends are read, start
blocks at rising indexes from the next one on, and hand each upstream block its own deltas. -/
structure Carries (up down : Nest Int) (state : NativeSseBlockPolicyState) (past : Int → Int)
    (state' : NativeSseBlockPolicyState) (past' : Int → Int) (down' : Nest Int)
    (events out : List SseEvent) : Prop where
  run : down.run (marks out) = some down'
  readable : Readable out
  linked : Linked up state' past' down'
  later : state.nextIndex ≤ state'.nextIndex
  keeps : ∀ index < state.nextIndex, past' index = past index
  rising : (starts (marks out)).Pairwise (· < ·)
  range : ∀ index ∈ starts (marks out), state.nextIndex ≤ index ∧ index < state'.nextIndex
  payloads : ∀ owner : Int → Int, (∀ index < state'.nextIndex, owner index = past' index) →
    ∀ upstream, deltaPayloads (fun index => decide (owner index = upstream)) out =
      deltaPayloads (fun index => decide (index = upstream)) events

theorem deltaPayloads_of_mark {event : SseEvent} {mark : Mark Int} (mine : Int → Bool)
    (read : event.mark? = some mark) (noDelta : ∀ index, mark ≠ .delta index) :
    deltaPayloads mine [event] = [] := by
  unfold deltaPayloads
  rw [List.filterMap_cons, read]
  cases mark with
  | delta index => exact absurd rfl (noDelta index)
  | start index => rfl
  | stop index => rfl

theorem deltaPayloads_of_unread {event : SseEvent} (mine : Int → Bool)
    (unread : event.mark? = none) : deltaPayloads mine [event] = [] := by
  unfold deltaPayloads
  rw [List.filterMap_cons, unread]
  rfl

theorem deltaPayloads_of_delta {event : SseEvent} {index : Int} (mine : Int → Bool)
    (read : event.mark? = some (.delta index)) :
    deltaPayloads mine [event] = if mine index then [event.delta] else [] := by
  unfold deltaPayloads
  rw [List.filterMap_cons, read]
  by_cases chosen : mine index
  · simp [chosen]
  · simp [chosen]

theorem start_step (linked : Linked up state past down) {event : SseEvent} {upstream : Int}
    (read : event.mark? = some (.start upstream)) (fresh : upstream ∉ up.seen)
    (typed : ∃ block blockType, event.contentBlock = .obj block ∧
      getKey block "type" = .str blockType) :
    ∃ out state' past' down', transformNativeSseBlockEvent event state true =
        .ok (some out, state') ∧
      Carries (up.start upstream) down state past state' past' down' [event] out := by
  obtain ⟨block, blockType, isBlock, isType⟩ := typed
  obtain ⟨closed, ran, seenSame, closedLinked⟩ := syntheticClose_linked linked upstream
  have answer := @transform_keptStart event state true upstream read block blockType isBlock isType
    (shouldDropBlockType_thinking _)
  set middle := (syntheticCloseOtherOpenBlocks state upstream).2 with hMiddle
  have unsuppressed : upstream ∉ middle.pendingSuppressedStops := fun member =>
    fresh (up.within (closedLinked.suppressed member))
  have unknown : ∀ seg, middle.byUpstream.get? upstream = some seg → seg.isOpen = false := by
    intro seg found
    have known := (closedLinked.known upstream).mpr (by rw [found]; rfl)
    exact absurd known fresh
  have same : { middle with
      pendingSuppressedStops := middle.pendingSuppressedStops.erase upstream } = middle := by
    rw [Finset.erase_eq_of_notMem unsuppressed]
  have opened := openFresh_linked (up.start upstream) closedLinked rfl rfl unknown
    blockType (some block)
  rw [same] at opened
  have readNew := mark?_reindex_start read state.nextIndex
  have closes : (syntheticCloseOtherOpenBlocks state upstream).1 =
      ((otherOpenBlocks state upstream).map fun entry => entry.2.downIndex).map
        contentBlockStop := by
    rw [List.map_map]
    rfl
  have startsEq : starts (marks ((syntheticCloseOtherOpenBlocks state upstream).1 ++
      [event.reindex state.nextIndex])) = [state.nextIndex] := by
    rw [marks_append, starts_append, closes, marks_stops, starts_map_stop, List.nil_append,
      marks_cons_some readNew]
    rfl
  have freshDown : state.nextIndex ∉ closed.seen := fun member =>
    absurd (closedLinked.fresh _ member) (lt_irrefl _)
  refine ⟨_, _, _, closed.start state.nextIndex, answer, ?_, ?_, opened, ?_, ?_, ?_, ?_, ?_⟩
  · rw [marks_append, Nest.run_append_of ran, marks_cons_some readNew, marks_nil, Nest.run_cons,
      Nest.step_start freshDown, Option.bind_some, Nest.run_nil]
  · exact readable_append.mpr ⟨closes ▸ readable_stops _, readable_singleton readNew⟩
  · exact le_of_lt (Int.lt_succ _)
  · intro other older
    exact Function.update_of_ne (ne_of_lt older) _ _
  · rw [startsEq]
    exact List.pairwise_singleton _ _
  · intro other member
    rw [startsEq, List.mem_singleton] at member
    rw [member]
    exact ⟨le_refl _, Int.lt_succ _⟩
  · intro owner _ mine
    rw [deltaPayloads_append, closes, deltaPayloads_stops, List.nil_append,
      deltaPayloads_of_mark _ readNew (fun _ other => by cases other),
      deltaPayloads_of_mark _ read (fun _ other => by cases other)]

theorem delta_step (linked : Linked up state past down) {event : SseEvent} {upstream : Int}
    (read : event.mark? = some (.delta upstream)) (isOpen : upstream ∈ up.opened)
    (mapped : ∃ delta kind, event.delta = .obj delta ∧
      deltaTypeToBlockKind (getKey delta "type") = some kind) :
    ∃ out state' past' down', transformNativeSseBlockEvent event state true =
        .ok (some out, state') ∧
      Carries up down state past state' past' down' [event] out := by
  obtain ⟨delta, kind, isDelta, kindEq⟩ := mapped
  have mapped : deltaTypeToBlockKind event.deltaType = some kind := by
    rw [SseEvent.deltaType, isDelta]
    exact kindEq
  obtain ⟨seg, found⟩ := Option.isSome_iff_exists.mp
    ((linked.known upstream).mp (up.within isOpen))
  have shown : upstream ∉ state.droppedIndexes := linked.dropped ▸ Finset.notMem_empty _
  have kept := shouldDropBlockType_thinking event.deltaType
  have reindexed := mark?_reindex_delta read
  by_cases segOpen : seg.isOpen = true
  · -- the segment is open: the delta goes there
    have answer := transform_openDelta read isDelta shown kept mapped found segOpen
    have inOpened := linked.mem_opened found segOpen
    refine ⟨_, _, past, down, answer, ?_, readable_singleton (reindexed _), linked, le_refl _,
      fun _ _ => rfl, ?_, ?_, ?_⟩
    · rw [marks_cons_some (reindexed _), marks_nil, Nest.run_cons, Nest.step_delta inOpened,
        Option.bind_some, Nest.run_nil]
    · rw [marks_cons_some (reindexed _)]
      exact List.Pairwise.nil
    · intro other member
      rw [marks_cons_some (reindexed _)] at member
      cases member
    · intro owner agree mine
      have owns : owner seg.downIndex = upstream := by
        rw [agree _ (linked.downIndex_lt found segOpen)]
        exact linked.owned upstream seg found segOpen
      rw [deltaPayloads_of_delta _ (reindexed _), deltaPayloads_of_delta _ read,
        delta_reindex, owns]
  · -- the segment was closed synthetically: a new one is opened under the delta
    rw [Bool.not_eq_true] at segOpen
    have closed : ∀ other, state.byUpstream.get? upstream = some other → other.isOpen = false := by
      intro other otherFound
      rw [found, Option.some.injEq] at otherFound
      exact otherFound ▸ segOpen
    have opened := openFresh_linked up linked
      (Finset.insert_eq_of_mem (up.within isOpen)).symm (Finset.insert_eq_of_mem isOpen).symm
      closed kind seg.lastStartBlock
    have answer := transform_reopeningDelta read isDelta shown kept mapped found segOpen
    have freshDown : state.nextIndex ∉ down.seen := fun member =>
      absurd (linked.fresh _ member) (lt_irrefl _)
    have marksEq : marks [contentBlockStart state.nextIndex
        (syntheticStartContentBlock kind upstream (storedTool seg.lastStartBlock)),
          event.reindex state.nextIndex] = [.start state.nextIndex, .delta state.nextIndex] := by
      rw [marks_cons_some (mark?_contentBlockStart _ _), marks_cons_some (reindexed _), marks_nil]
    refine ⟨_, _, _, down.start state.nextIndex, answer, ?_, ?_, opened, ?_, ?_, ?_, ?_, ?_⟩
    · rw [marksEq, Nest.run_cons, Nest.step_start freshDown, Option.bind_some, Nest.run_cons,
        Nest.step_delta (Finset.mem_insert_self _ _), Option.bind_some, Nest.run_nil]
    · exact readable_append.mpr
        ⟨readable_singleton (mark?_contentBlockStart _ _), readable_singleton (reindexed _)⟩
    · exact le_of_lt (Int.lt_succ _)
    · intro other older
      exact Function.update_of_ne (ne_of_lt older) _ _
    · rw [marksEq]
      exact List.pairwise_singleton _ _
    · intro other member
      rw [marksEq] at member
      obtain rfl := List.mem_singleton.mp member
      exact ⟨le_refl _, Int.lt_succ _⟩
    · intro owner agree mine
      have owns : owner state.nextIndex = upstream := by
        rw [agree _ (Int.lt_succ _), Function.update_self]
      rw [← List.singleton_append, deltaPayloads_append,
        deltaPayloads_of_mark _ (mark?_contentBlockStart _ _) (fun _ other => by cases other),
        List.nil_append, deltaPayloads_of_delta _ (reindexed _), deltaPayloads_of_delta _ read,
        delta_reindex, owns]

theorem stop_step (linked : Linked up state past down) {event : SseEvent} {upstream : Int}
    (read : event.mark? = some (.stop upstream)) (isOpen : upstream ∈ up.opened) :
    ∃ out state' past' down', transformNativeSseBlockEvent event state true = .ok (out, state') ∧
      Carries (up.stop upstream) down state past state' past' down' [event] (out.getD []) := by
  obtain ⟨seg, found⟩ := Option.isSome_iff_exists.mp
    ((linked.known upstream).mp (up.within isOpen))
  have shown : upstream ∉ state.droppedIndexes := linked.dropped ▸ Finset.notMem_empty _
  have silent : ∀ mine, deltaPayloads mine [event] = [] := fun mine =>
    deltaPayloads_of_mark mine read fun _ other => by cases other
  have onlyThis : ∀ other, other ≠ upstream →
      (other ∈ (up.stop upstream).opened ↔ other ∈ up.opened) := by
    intro other different
    rw [Nest.opened_stop, Finset.mem_erase, and_iff_right different]
  by_cases pending : upstream ∈ state.pendingSuppressedStops
  · -- the block was stopped synthetically: this stop is swallowed
    have segClosed : seg.isOpen = false := by
      rw [← Bool.not_eq_true, linked.live upstream seg found]
      exact fun both => both.2 pending
    have answer := @transform_suppressedStop event state true upstream read shown pending
    refine ⟨_, _, past, down, answer, rfl, fun _ member => (by cases member), ?_, le_refl _,
      fun _ _ => rfl, List.Pairwise.nil, fun _ member => (by cases member), fun _ _ _ => ?_⟩
    · refine ⟨linked.dropped, linked.known, ?_, ?_, linked.openDown, linked.owned, linked.fresh⟩
      · exact Finset.erase_subset_erase upstream linked.suppressed
      · intro other otherSeg otherFound
        by_cases same : other = upstream
        · subst same
          obtain rfl := Option.some.inj (found.symm.trans otherFound)
          simp [segClosed]
        · rw [onlyThis other same, Finset.mem_erase, and_iff_right same]
          exact linked.live other otherSeg otherFound
    · rw [silent]
      rfl
  · have segOpen : seg.isOpen = true := (linked.live upstream seg found).mpr ⟨isOpen, pending⟩
    have answer := @transform_openStop event state true upstream read shown pending seg found segOpen
    have readNew := mark?_reindex_stop read seg.downIndex
    have inOpened := linked.mem_opened found segOpen
    have lookup : ∀ other, (state.byUpstream.set upstream { seg with isOpen := false }).get? other =
        if other = upstream then some { seg with isOpen := false }
        else state.byUpstream.get? other := fun other => Dict.get?_set _ _ _ _
    refine ⟨_, _, past, down.stop seg.downIndex, answer, ?_, readable_singleton readNew, ?_,
      le_refl _, fun _ _ => rfl, ?_, ?_, fun _ _ _ => ?_⟩
    · rw [Option.getD_some, marks_cons_some readNew, marks_nil, Nest.run_cons,
        Nest.step_stop inOpened, Option.bind_some, Nest.run_nil]
    · refine ⟨linked.dropped, ?_, ?_, ?_, ?_, ?_, linked.fresh⟩
      · intro other
        show other ∈ up.seen ↔ _
        rw [linked.known, lookup]
        by_cases same : other = upstream
        · simp [same, found]
        · simp [same]
      · intro other member
        have different : other ≠ upstream := fun same => pending (same ▸ member)
        exact (onlyThis other different).mpr (linked.suppressed member)
      · intro other otherSeg otherFound
        rw [lookup] at otherFound
        by_cases same : other = upstream
        · rw [if_pos same, Option.some.injEq] at otherFound
          subst otherFound
          simp [same]
        · rw [if_neg same] at otherFound
          rw [onlyThis other same]
          exact linked.live other otherSeg otherFound
      · intro other
        rw [Nest.opened_stop, Finset.mem_erase, linked.openDown]
        constructor
        · rintro ⟨different, owner, otherSeg, otherFound, otherOpen, rfl⟩
          have apart : owner ≠ upstream := by
            rintro rfl
            rw [found, Option.some.injEq] at otherFound
            exact different (otherFound ▸ rfl)
          exact ⟨owner, otherSeg, by rw [lookup, if_neg apart, otherFound], otherOpen, rfl⟩
        · rintro ⟨owner, otherSeg, otherFound, otherOpen, rfl⟩
          rw [lookup] at otherFound
          by_cases same : owner = upstream
          · rw [if_pos same, Option.some.injEq] at otherFound
            subst otherFound
            cases otherOpen
          · rw [if_neg same] at otherFound
            refine ⟨fun sameIndex => same ?_, owner, otherSeg, otherFound, otherOpen, rfl⟩
            rw [← linked.owned owner otherSeg otherFound otherOpen, sameIndex]
            exact linked.owned upstream seg found segOpen
      · intro other otherSeg otherFound otherOpen
        rw [lookup] at otherFound
        by_cases same : other = upstream
        · rw [if_pos same, Option.some.injEq] at otherFound
          subst otherFound
          cases otherOpen
        · rw [if_neg same] at otherFound
          exact linked.owned other otherSeg otherFound otherOpen
    · rw [Option.getD_some, marks_cons_some readNew]
      exact List.Pairwise.nil
    · intro other member
      rw [Option.getD_some, marks_cons_some readNew] at member
      cases member
    · rw [silent, Option.getD_some,
        deltaPayloads_of_mark _ readNew fun _ other => by cases other]

/-- An event that is no content-block event changes nothing. -/
theorem other_step (linked : Linked up state past down) {event : SseEvent}
    (other : event.isBlockEvent = false) :
    transformNativeSseBlockEvent event state true = .ok (some [event], state) ∧
      Carries up down state past state past down [event] [event] := by
  have unread := SseEvent.mark?_eq_none_of_not_block other
  have noMarks : marks [event] = [] := by rw [marks_cons_none unread, marks_nil]
  refine ⟨transform_other other, by rw [noMarks]; rfl, ?_, linked, le_refl _, fun _ _ => rfl, ?_,
    ?_, fun _ _ _ => ?_⟩
  · intro only member isBlock
    rw [List.mem_singleton.mp member, other] at isBlock
    cases isBlock
  · rw [noMarks]
    exact List.Pairwise.nil
  · intro index member
    rw [noMarks] at member
    cases member
  · rw [deltaPayloads_of_unread _ unread, deltaPayloads_of_unread _ unread]

/-! ### Whole streams -/

/-- Doing one thing after another. -/
theorem Carries.append {middle : Nest Int} {state₁ state₂ : NativeSseBlockPolicyState}
    {past₁ past₂ : Int → Int} {down₁ down₂ : Nest Int} {event : SseEvent}
    {rest out later : List SseEvent}
    (first : Carries middle down state past state₁ past₁ down₁ [event] out)
    (second : Carries up down₁ state₁ past₁ state₂ past₂ down₂ rest later) :
    Carries up down state past state₂ past₂ down₂ (event :: rest) (out ++ later) where
  run := by rw [marks_append, Nest.run_append_of first.run, second.run]
  readable := readable_append.mpr ⟨first.readable, second.readable⟩
  linked := second.linked
  later := first.later.trans second.later
  keeps index older := (second.keeps index (older.trans_le first.later)).trans
    (first.keeps index older)
  rising := by
    rw [marks_append, starts_append]
    refine List.pairwise_append.mpr ⟨first.rising, second.rising, ?_⟩
    intro early inFirst late inSecond
    exact (first.range early inFirst).2.trans_le (second.range late inSecond).1
  range index member := by
    rw [marks_append, starts_append, List.mem_append] at member
    rcases member with member | member
    · exact ⟨(first.range index member).1, (first.range index member).2.trans_le second.later⟩
    · exact ⟨first.later.trans (second.range index member).1, (second.range index member).2⟩
  payloads owner agree upstream := by
    have agreeFirst : ∀ index < state₁.nextIndex, owner index = past₁ index := fun index older =>
      (agree index (older.trans_le second.later)).trans (second.keeps index older)
    rw [deltaPayloads_append, first.payloads owner agreeFirst, second.payloads owner agree,
      ← deltaPayloads_append, List.singleton_append]

/-- **The policy over a whole stream**, by induction on the events: each of the four shapes keeps
the link. -/
theorem overlap_run {events : List SseEvent} (linked : Linked up state past down)
    {upEnd : Nest Int} (ran : up.run (marks events) = some upEnd) (readable : Readable events)
    (typed : ∀ event ∈ events, event.event = "content_block_start" →
      ∃ block blockType, event.contentBlock = .obj block ∧
        getKey block "type" = .str blockType)
    (mapped : ∀ event ∈ events, event.event = "content_block_delta" →
      ∃ delta kind, event.delta = .obj delta ∧
        deltaTypeToBlockKind (getKey delta "type") = some kind) :
    ∃ out state' past' down', transformNativeSseStream true state events = .ok (out, state') ∧
      Carries upEnd down state past state' past' down' events out := by
  induction events generalizing up state past down with
  | nil =>
    obtain rfl := Option.some.inj ran
    exact ⟨[], state, past, down, rfl, rfl, fun _ member => (by cases member), linked, le_refl _,
      fun _ _ => rfl, List.Pairwise.nil, fun _ member => (by cases member), fun _ _ _ => rfl⟩
  | cons event rest ih =>
    rw [← List.singleton_append, readable_append] at readable
    have typedRest := fun other member => typed other (List.mem_cons_of_mem _ member)
    have mappedRest := fun other member => mapped other (List.mem_cons_of_mem _ member)
    -- one step, whatever the event is; the rest follows from the induction hypothesis
    have step : ∃ (middle : Nest Int) (out : Option (List SseEvent))
        (state' : NativeSseBlockPolicyState) (past' : Int → Int) (down' : Nest Int),
        middle.run (marks rest) = some upEnd ∧
        transformNativeSseBlockEvent event state true = .ok (out, state') ∧
        Carries middle down state past state' past' down' [event] (out.getD []) := by
      rcases read : event.mark? with _ | mark
      · have other : event.isBlockEvent = false := by
          by_contra isBlock
          rw [Bool.not_eq_false] at isBlock
          have := readable.1 event List.mem_cons_self isBlock
          rw [read] at this
          cases this
        rw [marks_cons_none read] at ran
        obtain ⟨answer, carries⟩ := other_step linked other
        exact ⟨up, _, _, past, down, ran, answer, carries⟩
      · rw [marks_cons_some read, Nest.run_cons, Option.bind_eq_some_iff] at ran
        obtain ⟨middle, stepped, ranRest⟩ := ran
        obtain ⟨upstream, index, shape⟩ := event_of_mark? read
        rcases shape with ⟨name, rfl⟩ | ⟨name, rfl⟩ | ⟨name, rfl⟩
        · have fresh : upstream ∉ up.seen := by
            intro member
            rw [Nest.step, if_pos member] at stepped
            cases stepped
          rw [Nest.step_start fresh, Option.some.injEq] at stepped
          subst stepped
          obtain ⟨out, state', past', down', answer, carries⟩ :=
            start_step linked read fresh (typed event List.mem_cons_self name)
          exact ⟨_, some out, state', past', down', ranRest, answer, carries⟩
        · have isOpen : upstream ∈ up.opened := by
            by_contra absent
            rw [Nest.step, if_neg absent] at stepped
            cases stepped
          rw [Nest.step_delta isOpen, Option.some.injEq] at stepped
          subst stepped
          obtain ⟨out, state', past', down', answer, carries⟩ :=
            delta_step linked read isOpen (mapped event List.mem_cons_self name)
          exact ⟨_, some out, state', past', down', ranRest, answer, carries⟩
        · have isOpen : upstream ∈ up.opened := by
            by_contra absent
            rw [Nest.step, if_neg absent] at stepped
            cases stepped
          rw [Nest.step_stop isOpen, Option.some.injEq] at stepped
          subst stepped
          obtain ⟨out, state', past', down', answer, carries⟩ := stop_step linked read isOpen
          exact ⟨_, out, state', past', down', ranRest, answer, carries⟩
    obtain ⟨middle, out, state₁, past₁, down₁, ranRest, answer, carries⟩ := step
    obtain ⟨later, state₂, past₂, down₂, answerRest, carriesRest⟩ :=
      ih carries.linked ranRest readable.2 typedRest mappedRest
    refine ⟨out.getD [] ++ later, state₂, past₂, down₂, ?_, carries.append carriesRest⟩
    rw [transformNativeSseStream, answer]
    simp only [answerRest]

end Step

/-- What is sent is well nested, its blocks start at strictly increasing indexes, and some assignment
of downstream indexes to upstream blocks gives every upstream block exactly its own delta payloads, in
their order. -/
structure BlocksRepaired (events out : List SseEvent) : Prop where
  nested : WellNested out
  rising : (starts (marks out)).Pairwise (· < ·)
  payloads : ∃ owner : Int → Int, ∀ upstream,
    deltaPayloads (fun index => decide (owner index = upstream)) out =
      deltaPayloads (fun index => decide (index = upstream)) events

/-- **The policy repairs overlapping blocks**, whatever their interleaving. -/
theorem overlapping_blocks_are_repaired (events : List SseEvent)
    (overlapping : OverlappingBlocks events) :
    ∃ out state, transformNativeSseStream true {} events = .ok (out, state) ∧
      BlocksRepaired events out := by
  obtain ⟨⟨readable, upEnd, ran, closed⟩, typed, mapped⟩ := overlapping
  obtain ⟨out, state, past, down, answer, carries⟩ :=
    overlap_run (linked_init id) ran readable typed mapped
  refine ⟨out, state, answer, ⟨carries.readable, down, carries.run, ?_⟩, carries.rising,
    ⟨past, carries.payloads past fun _ _ => rfl⟩⟩
  -- a segment still open would belong to a block still open upstream
  rw [Finset.eq_empty_iff_forall_notMem]
  intro index member
  obtain ⟨upstream, seg, found, isOpen, _⟩ := (carries.linked.openDown index).mp member
  have stillOpen := ((carries.linked.live upstream seg found).mp isOpen).1
  rw [closed] at stillOpen
  exact absurd stillOpen (Finset.notMem_empty _)

/-- **So are the texts of the frames**, of which the policy decodes those of the blocks. -/
theorem overlapping_frames_are_repaired {runtime : Runtime} {frames : List NativeFrame}
    (fits : ∀ frame ∈ frames, frame.Fits runtime)
    (decoded : ∀ frame ∈ frames, frame.event.isBlockEvent = true → frame.decoded = true)
    (overlapping : OverlappingBlocks (frames.map NativeFrame.event)) :
    ∃ out, Answered runtime true frames out ∧ BlocksRepaired (frames.map NativeFrame.event) out := by
  obtain ⟨out, state, ran, repaired⟩ := overlapping_blocks_are_repaired _ overlapping
  exact ⟨out, answered_of_stream fits decoded ran, repaired⟩

/-- A thinking block interrupted by a text block: its signature arrives after the text started. -/
def interruptedThinking : List SseEvent :=
  [formatSseEvent "content_block_start" [("type", .str "content_block_start"), ("index", .int 0),
      ("content_block", .obj [("type", .str "thinking"), ("thinking", .str "")])],
    formatSseEvent "content_block_delta" [("type", .str "content_block_delta"), ("index", .int 0),
      ("delta", .obj [("type", .str "thinking_delta"), ("thinking", .str "plan")])],
    formatSseEvent "content_block_start" [("type", .str "content_block_start"), ("index", .int 1),
      ("content_block", .obj [("type", .str "text"), ("text", .str "")])],
    formatSseEvent "content_block_delta" [("type", .str "content_block_delta"), ("index", .int 0),
      ("delta", .obj [("type", .str "signature_delta"), ("signature", .str "sig")])],
    contentBlockStop 0, contentBlockStop 1]

theorem interruptedThinking_overlapping : OverlappingBlocks interruptedThinking where
  nested := by decide
  typed event member name := by
    simp only [interruptedThinking, List.mem_cons, List.not_mem_nil, or_false] at member
    rcases member with rfl | rfl | rfl | rfl | rfl | rfl
    · exact ⟨_, _, rfl, rfl⟩
    · exact absurd name (by decide)
    · exact ⟨_, _, rfl, rfl⟩
    all_goals exact absurd name (by decide)
  mapped event member name := by
    simp only [interruptedThinking, List.mem_cons, List.not_mem_nil, or_false] at member
    rcases member with rfl | rfl | rfl | rfl | rfl | rfl
    · exact absurd name (by decide)
    · exact ⟨_, _, rfl, rfl⟩
    · exact absurd name (by decide)
    · exact ⟨_, _, rfl, rfl⟩
    all_goals exact absurd name (by decide)

/-- Its frames, as a server writes them. -/
def interruptedThinkingSamples : List NativeSample := interruptedThinking.map fun event => ⟨event, none⟩

theorem interruptedThinking_is_repaired : ∃ out,
    Answered (NativeSample.runtime interruptedThinkingSamples) true
      (interruptedThinkingSamples.map NativeSample.frame) out ∧
    BlocksRepaired interruptedThinking out :=
  overlapping_frames_are_repaired (NativeSample.fits (by decide +kernel)) (by decide +kernel)
    interruptedThinking_overlapping

/-- A text block whose delta has a raw line separator in its text. -/
def separatedText : List NativeSample :=
  [⟨contentBlockStart 3 [("type", .str "text"), ("text", .str "")], none⟩,
    ⟨contentBlockDelta 3 [("type", .str "text_delta"), ("text", .str "a\u2028b")],
      some ("\x7b\"type\": \"content_block_delta\", \"index\": 3, \"delta\": \x7b" ++
        "\"type\": \"text_delta\", \"text\": \"a\u2028b\"\x7d\x7d")⟩,
    ⟨contentBlockStop 3, none⟩]

theorem separatedText_overlapping :
    OverlappingBlocks ((separatedText.map NativeSample.frame).map NativeFrame.event) where
  nested := by decide +kernel
  typed event member name := by
    simp only [separatedText, List.map_cons, List.map_nil, List.mem_cons, List.not_mem_nil,
      or_false] at member
    rcases member with rfl | rfl | rfl
    · exact ⟨_, _, rfl, rfl⟩
    all_goals exact absurd name (by decide)
  mapped event member name := by
    simp only [separatedText, List.map_cons, List.map_nil, List.mem_cons, List.not_mem_nil,
      or_false] at member
    rcases member with rfl | rfl | rfl
    · exact absurd name (by decide)
    · exact ⟨_, _, rfl, rfl⟩
    · exact absurd name (by decide)

/-- The delta is not decoded: it goes to block `3`, and the block that the client has open is `0`. -/
theorem separatedText_is_misdirected :
    (∀ frame ∈ separatedText.map NativeSample.frame, frame.Fits (NativeSample.runtime separatedText)) ∧
      OverlappingBlocks ((separatedText.map NativeSample.frame).map NativeFrame.event) ∧
      ¬ ∃ out, Answered (NativeSample.runtime separatedText) true
          (separatedText.map NativeSample.frame) out ∧
        BlocksRepaired ((separatedText.map NativeSample.frame).map NativeFrame.event) out := by
  refine ⟨NativeSample.fits (by decide +kernel), separatedText_overlapping, ?_⟩
  rintro ⟨_, ⟨_, answers, state, -, ran, -, rfl⟩, repaired⟩
  have misdirected : (match transformNativeSseFrames true {} (separatedText.map NativeSample.frame) with
      | .ok (answers, _) => decide (WellNested (sentEvents answers))
      | .error _ => false) = false := by decide +kernel
  rw [ran] at misdirected
  exact of_decide_eq_false misdirected repaired.nested

end ClaudeProxy
