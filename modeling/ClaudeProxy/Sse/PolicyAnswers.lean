/-
**What the block policy answers to one event**, by the event and by what is known of its block.

* `SseEvent.blockType`, `SseEvent.deltaType` — what the policy looks at; `SseEvent.reindex` — what it
  rewrites; `reindex_eq_iff`.
* `transform_droppedStart`, …, `transform_unknownStop` — one lemma for each branch.
-/

import ClaudeProxy.Sse.NativeFrames
import Mathlib.Data.Finset.Lattice.Lemmas

namespace ClaudeProxy

open Json (getKey setKey)

/-- The `type` of a started block. -/
def SseEvent.blockType (event : SseEvent) : Json :=
  getKey ((event.contentBlock.asObj?).getD []) "type"

/-- The `type` of a delta. -/
def SseEvent.deltaType (event : SseEvent) : Json :=
  getKey ((event.delta.asObj?).getD []) "type"

/-- The event under another block index. -/
def SseEvent.reindex (event : SseEvent) (index : Int) : SseEvent :=
  formatSseEvent event.event (setKey event.fields "index" (.int index))

/-! ### Events under another index -/

section Reindex

variable {event : SseEvent} {index : Int}

/-- An event with its index rewritten carries the same mark at the new index. -/
theorem mark?_reindex (event : SseEvent) (mark : Int → Mark Int) (down : Int)
    (read : ∀ other : SseEvent, other.event = event.event →
      other.mark? = other.index?.map mark) : (event.reindex down).mark? = some (mark down) := by
  have reindexed : (event.reindex down).mark? = (event.reindex down).index?.map mark := read _ rfl
  rw [reindexed, SseEvent.reindex, index?_setKey, Option.map_some]

theorem mark?_reindex_start (read : event.mark? = some (.start index)) (down : Int) :
    (event.reindex down).mark? = some (.start down) := by
  obtain ⟨_, _, shape⟩ := event_of_mark? read
  rcases shape with ⟨name, -⟩ | ⟨-, other⟩ | ⟨-, other⟩
  · exact mark?_reindex event Mark.start down fun _ same => mark?_start (same.trans name)
  · cases other
  · cases other

theorem mark?_reindex_delta (read : event.mark? = some (.delta index)) (down : Int) :
    (event.reindex down).mark? = some (.delta down) := by
  obtain ⟨_, _, shape⟩ := event_of_mark? read
  rcases shape with ⟨-, other⟩ | ⟨name, -⟩ | ⟨-, other⟩
  · cases other
  · exact mark?_reindex event Mark.delta down fun _ same => mark?_delta (same.trans name)
  · cases other

theorem mark?_reindex_stop (read : event.mark? = some (.stop index)) (down : Int) :
    (event.reindex down).mark? = some (.stop down) := by
  obtain ⟨_, _, shape⟩ := event_of_mark? read
  rcases shape with ⟨-, other⟩ | ⟨-, other⟩ | ⟨name, -⟩
  · cases other
  · cases other
  · exact mark?_reindex event Mark.stop down fun _ same => mark?_stop (same.trans name)

/-- A reindexed delta keeps its payload. -/
theorem delta_reindex (event : SseEvent) (down : Int) : (event.reindex down).delta = event.delta := by
  rw [SseEvent.delta, SseEvent.reindex, SseEvent.fields_formatSseEvent,
    Json.getKey_setKey_ne _ (by decide), SseEvent.delta]

theorem deltaType_reindex (event : SseEvent) (down : Int) :
    (event.reindex down).deltaType = event.deltaType := by
  rw [SseEvent.deltaType, delta_reindex]
  rfl

theorem blockType_reindex (event : SseEvent) (down : Int) :
    (event.reindex down).blockType = event.blockType := by
  unfold SseEvent.blockType SseEvent.contentBlock
  rw [SseEvent.reindex, SseEvent.fields_formatSseEvent, Json.getKey_setKey_ne _ (by decide)]

/-- An event that starts no block. -/
theorem starts_of_mark {mark : Mark Int} (read : event.mark? = some mark)
    (noStart : ∀ index, mark ≠ .start index) : starts (marks [event]) = [] := by
  rw [marks_cons_some read, marks_nil]
  cases mark with
  | start index => exact absurd rfl (noStart index)
  | delta index => rfl
  | stop index => rfl

/-- A key set to the value it has. -/
theorem setKey_of_getKey {fields : List (String × Json)} {key : String} {value : Json}
    (same : getKey fields key = value) (present : value ≠ .null) :
    setKey fields key value = fields := by
  unfold setKey
  induction fields with
  | nil => exact absurd same.symm present
  | cons entry rest ih =>
    obtain ⟨name, old⟩ := entry
    rw [Assoc.set]
    unfold getKey at same
    rw [Assoc.get?_cons] at same
    by_cases hit : name = key
    · rw [if_pos hit, Option.getD_some] at same
      rw [if_pos hit, hit, ← same]
    · rw [if_neg hit] at same
      rw [if_neg hit]
      exact congrArg _ (ih same)

/-- An event that already carries the index. -/
theorem reindex_eq_iff {mark : Mark Int} (read : event.mark? = some mark)
    (indexed : getKey event.fields "index" = .int index) (down : Int) :
    event = event.reindex down ↔ index = down := by
  obtain ⟨_, isIndex, -⟩ := event_of_mark? read
  obtain ⟨payload, data, fields, -⟩ := data_of_index? isIndex
  constructor
  · intro same
    have keys : getKey event.fields "index" = getKey (event.reindex down).fields "index" := by
      rw [← same]
    rw [indexed, SseEvent.reindex, SseEvent.fields_formatSseEvent, Json.getKey_setKey_self] at keys
    exact Json.int.inj keys
  · rintro rfl
    rw [SseEvent.reindex, setKey_of_getKey indexed (by simp), formatSseEvent, fields, ← data]

theorem reindex_inj {first second : Int} (same : event.reindex first = event.reindex second) :
    first = second := by
  have keys : getKey (event.reindex first).fields "index" =
      getKey (event.reindex second).fields "index" := by
    rw [same]
  rw [SseEvent.reindex, SseEvent.reindex, SseEvent.fields_formatSseEvent,
    SseEvent.fields_formatSseEvent, Json.getKey_setKey_self, Json.getKey_setKey_self] at keys
  exact Json.int.inj keys

end Reindex

/-! ### The branches -/

section Answers

variable {event : SseEvent} {state : NativeSseBlockPolicyState} {thinkingEnabled : Bool}
  {upstream : Int}

theorem mem_otherOpenBlocks {current : Int} {entry : Int × UpstreamBlockState} :
    entry ∈ otherOpenBlocks state current ↔
      state.byUpstream.get? entry.1 = some entry.2 ∧ entry.1 ≠ current ∧ entry.2.isOpen = true := by
  obtain ⟨upstream, seg⟩ := entry
  simp only [otherOpenBlocks, List.mem_filter, Dict.mem_entries_iff, Bool.and_eq_true,
    decide_eq_true_eq]

/-- With no other block open, the synthetic close does nothing. -/
theorem syntheticClose_of_others {current : Int}
    (closed : ∀ upstream seg, state.byUpstream.get? upstream = some seg → upstream ≠ current →
      seg.isOpen = false) : syntheticCloseOtherOpenBlocks state current = ([], state) := by
  have empty : otherOpenBlocks state current = [] := by
    rw [List.eq_nil_iff_forall_not_mem]
    intro entry member
    obtain ⟨found, other, isOpen⟩ := mem_otherOpenBlocks.mp member
    rw [closed _ _ found other] at isOpen
    cases isOpen
  unfold syntheticCloseOtherOpenBlocks
  simp only [empty, List.map_nil, List.toFinset_nil, Finset.union_empty]
  rw [Dict.mapValues_eq_self]
  intro upstream seg found
  rw [if_neg]
  rintro ⟨other, isOpen⟩
  rw [closed upstream seg found other] at isOpen
  cases isOpen

/-- Otherwise the first event is the stop of one of them. -/
theorem syntheticClose_of_open {current other : Int} {seg : UpstreamBlockState}
    (found : state.byUpstream.get? other = some seg) (different : other ≠ current)
    (isOpen : seg.isOpen = true) : ∃ first firstSeg rest,
      state.byUpstream.get? first = some firstSeg ∧ first ≠ current ∧ firstSeg.isOpen = true ∧
      (syntheticCloseOtherOpenBlocks state current).1 = contentBlockStop firstSeg.downIndex :: rest := by
  have member : (other, seg) ∈ otherOpenBlocks state current :=
    mem_otherOpenBlocks.mpr ⟨found, different, isOpen⟩
  obtain ⟨⟨first, firstSeg⟩, rest, blocks⟩ :=
    List.exists_cons_of_ne_nil (List.ne_nil_of_mem member)
  obtain ⟨firstFound, firstDifferent, firstOpen⟩ :=
    mem_otherOpenBlocks.mp (blocks ▸ List.mem_cons_self : (first, firstSeg) ∈ otherOpenBlocks state current)
  refine ⟨first, firstSeg, rest.map fun entry => contentBlockStop entry.2.downIndex, firstFound,
    firstDifferent, firstOpen, ?_⟩
  unfold syntheticCloseOtherOpenBlocks
  rw [blocks]
  rfl

/-- With thinking enabled nothing is dropped. -/
theorem shouldDropBlockType_thinking (blockType : Json) : shouldDropBlockType blockType true = false := by
  unfold shouldDropBlockType
  split <;> simp

theorem transform_droppedStart (read : event.mark? = some (.start upstream))
    {block : List (String × Json)} (isBlock : event.contentBlock = .obj block)
    (drops : shouldDropBlockType event.blockType thinkingEnabled = true) :
    transformNativeSseBlockEvent event state thinkingEnabled =
      .ok (none, { state with droppedIndexes := insert upstream state.droppedIndexes }) := by
  obtain ⟨_, found, ⟨name, same⟩ | ⟨-, same⟩ | ⟨-, same⟩⟩ := event_of_mark? read
  · cases same
    obtain ⟨payload, data, fields, key⟩ := data_of_index? found
    rw [SseEvent.blockType, isBlock] at drops
    change shouldDropBlockType (getKey block "type") thinkingEnabled = true at drops
    rw [SseEvent.contentBlock, fields] at isBlock
    rw [transform_start name data, transformStart, isBlock, key]
    dsimp only
    rw [if_pos drops]
  · cases same
  · cases same

theorem transform_keptStart (read : event.mark? = some (.start upstream))
    {block : List (String × Json)} {blockType : String} (isBlock : event.contentBlock = .obj block)
    (typed : getKey block "type" = .str blockType)
    (keeps : shouldDropBlockType event.blockType thinkingEnabled = false) :
    transformNativeSseBlockEvent event state thinkingEnabled =
      .ok (some ((syntheticCloseOtherOpenBlocks state upstream).1 ++ [event.reindex state.nextIndex]),
        (allocateNewSegment (syntheticCloseOtherOpenBlocks state upstream).2 upstream blockType
          (some block)).2) := by
  obtain ⟨_, found, ⟨name, same⟩ | ⟨-, same⟩ | ⟨-, same⟩⟩ := event_of_mark? read
  · cases same
    obtain ⟨payload, data, fields, key⟩ := data_of_index? found
    rw [SseEvent.blockType, isBlock] at keeps
    change shouldDropBlockType (getKey block "type") thinkingEnabled = false at keeps
    rw [SseEvent.contentBlock, fields] at isBlock
    rw [transform_start name data, transformStart, isBlock, key]
    dsimp only
    rw [keeps, typed, SseEvent.reindex, fields]
    rfl
  · cases same
  · cases same

/-- The branch of a delta, with its type. -/
theorem transform_of_delta (read : event.mark? = some (.delta upstream))
    {delta : List (String × Json)} (isDelta : event.delta = .obj delta) :
    ∃ payload, event.fields = payload ∧
      transformNativeSseBlockEvent event state thinkingEnabled =
        .ok (if upstream ∈ state.droppedIndexes then (none, state)
          else if shouldDropBlockType event.deltaType thinkingEnabled then (none, state)
          else (deltaTypeToBlockKind event.deltaType).elim (some [event], state) fun blockKind =>
            (state.byUpstream.get? upstream).elim
              (if blockKind = "text" ∨ blockKind = "tool_use" then
                openSegment event payload upstream blockKind
                  (some (syntheticStartContentBlock blockKind upstream none))
                  (syntheticStartContentBlock blockKind upstream none) state
              else (some [event], state)) fun seg =>
            if seg.isOpen then (some [event.reindex seg.downIndex], state)
            else openSegment event payload upstream blockKind seg.lastStartBlock
              (syntheticStartContentBlock blockKind upstream (storedTool seg.lastStartBlock))
              { state with pendingSuppressedStops := state.pendingSuppressedStops.erase upstream }) := by
  obtain ⟨_, found, ⟨-, same⟩ | ⟨name, same⟩ | ⟨-, same⟩⟩ := event_of_mark? read
  · cases same
  · cases same
    obtain ⟨payload, data, fields, key⟩ := data_of_index? found
    refine ⟨payload, fields, ?_⟩
    have typed : event.deltaType = getKey delta "type" := by
      rw [SseEvent.deltaType, isDelta]
      rfl
    rw [SseEvent.delta, fields] at isDelta
    rw [transform_delta name data, transformDelta, isDelta, key, typed]
    simp only [SseEvent.reindex, fields]
    cases deltaTypeToBlockKind (getKey delta "type") with
    | none => rfl
    | some blockKind => cases state.byUpstream.get? upstream <;> rfl
  · cases same

section Delta

variable {delta : List (String × Json)} (read : event.mark? = some (.delta upstream))
  (isDelta : event.delta = .obj delta)
include read isDelta

theorem transform_hiddenDelta (hidden : upstream ∈ state.droppedIndexes) :
    transformNativeSseBlockEvent event state thinkingEnabled = .ok (none, state) := by
  obtain ⟨payload, -, answer⟩ := @transform_of_delta _ state thinkingEnabled _ read _ isDelta
  rw [answer, if_pos hidden]

theorem transform_droppedDelta (drops : shouldDropBlockType event.deltaType thinkingEnabled = true) :
    transformNativeSseBlockEvent event state thinkingEnabled = .ok (none, state) := by
  obtain ⟨payload, -, answer⟩ := @transform_of_delta _ state thinkingEnabled _ read _ isDelta
  rw [answer, if_pos drops, ite_self]

variable (shown : upstream ∉ state.droppedIndexes)
  (keeps : shouldDropBlockType event.deltaType thinkingEnabled = false)
include shown keeps

theorem transform_unmappedDelta (unmapped : deltaTypeToBlockKind event.deltaType = none) :
    transformNativeSseBlockEvent event state thinkingEnabled = .ok (some [event], state) := by
  obtain ⟨payload, -, answer⟩ := @transform_of_delta _ state thinkingEnabled _ read _ isDelta
  rw [answer, if_neg shown, keeps, unmapped]
  rfl

variable {kind : String} (mapped : deltaTypeToBlockKind event.deltaType = some kind)
include mapped

theorem transform_openDelta {seg : UpstreamBlockState}
    (found : state.byUpstream.get? upstream = some seg) (isOpen : seg.isOpen = true) :
    transformNativeSseBlockEvent event state thinkingEnabled =
      .ok (some [event.reindex seg.downIndex], state) := by
  obtain ⟨payload, -, answer⟩ := @transform_of_delta _ state thinkingEnabled _ read _ isDelta
  rw [answer, if_neg shown, keeps, mapped, found]
  simp only [Option.elim_some, isOpen, if_true, Bool.false_eq_true, if_false]

/-- A delta of a closed block opens a new segment. -/
theorem transform_reopeningDelta {seg : UpstreamBlockState}
    (found : state.byUpstream.get? upstream = some seg) (closed : seg.isOpen = false) :
    transformNativeSseBlockEvent event state thinkingEnabled =
      .ok (some [contentBlockStart state.nextIndex
          (syntheticStartContentBlock kind upstream (storedTool seg.lastStartBlock)),
          event.reindex state.nextIndex],
        (allocateNewSegment { state with
          pendingSuppressedStops := state.pendingSuppressedStops.erase upstream } upstream kind
          seg.lastStartBlock).2) := by
  obtain ⟨payload, fields, answer⟩ := @transform_of_delta _ state thinkingEnabled _ read _ isDelta
  rw [answer, if_neg shown, keeps, mapped, found]
  simp only [Option.elim_some, closed, Bool.false_eq_true, if_false]
  rw [openSegment, SseEvent.reindex, fields]
  rfl

/-- So does one of text or of tool input in a block that is not known. -/
theorem transform_startingDelta (unknown : state.byUpstream.get? upstream = none)
    (content : kind ≠ "thinking") :
    ∃ block state', transformNativeSseBlockEvent event state thinkingEnabled =
      .ok (some [contentBlockStart state.nextIndex block, event.reindex state.nextIndex], state') := by
  obtain ⟨payload, fields, answer⟩ := @transform_of_delta _ state thinkingEnabled _ read _ isDelta
  have kinds : kind = "text" ∨ kind = "tool_use" := by
    unfold deltaTypeToBlockKind at mapped
    split at mapped
    · split_ifs at mapped
      · exact absurd (Option.some.inj mapped).symm content
      · exact .inl (Option.some.inj mapped).symm
      · exact .inr (Option.some.inj mapped).symm
    · cases mapped
  rw [answer, if_neg shown, keeps, mapped, unknown]
  simp only [Option.elim_some, Option.elim_none, Bool.false_eq_true, if_false, if_pos kinds]
  rw [openSegment, SseEvent.reindex, fields]
  exact ⟨_, _, rfl⟩

theorem transform_thinkingDelta (unknown : state.byUpstream.get? upstream = none)
    (thinking : kind = "thinking") :
    transformNativeSseBlockEvent event state thinkingEnabled = .ok (some [event], state) := by
  obtain ⟨payload, -, answer⟩ := @transform_of_delta _ state thinkingEnabled _ read _ isDelta
  have other : ¬ (kind = "text" ∨ kind = "tool_use") := by
    rw [thinking]
    decide
  rw [answer, if_neg shown, keeps, mapped, unknown]
  simp only [Option.elim_some, Option.elim_none, Bool.false_eq_true, if_false, if_neg other]

end Delta

/-- A delta that is no object is passed on. -/
theorem transform_shapelessDelta (read : event.mark? = some (.delta upstream))
    (shapeless : event.delta.asObj? = none) :
    transformNativeSseBlockEvent event state thinkingEnabled = .ok (some [event], state) := by
  obtain ⟨_, found, ⟨-, same⟩ | ⟨name, -⟩ | ⟨-, same⟩⟩ := event_of_mark? read
  · cases same
  · obtain ⟨payload, data, fields, -⟩ := data_of_index? found
    rw [SseEvent.delta, fields] at shapeless
    rw [transform_delta name data, transformDelta]
    cases shape : getKey payload "delta" with
    | obj delta =>
      rw [shape] at shapeless
      cases shapeless
    | _ => rfl
  · cases same

/-- The branch of a stop. -/
theorem transform_of_stop (read : event.mark? = some (.stop upstream)) :
    transformNativeSseBlockEvent event state thinkingEnabled =
      .ok (if upstream ∈ state.droppedIndexes then (none, state)
        else if upstream ∈ state.pendingSuppressedStops then
          (none, { state with
            pendingSuppressedStops := state.pendingSuppressedStops.erase upstream })
        else (state.byUpstream.get? upstream).elim
          (if thinkingEnabled = false then (none, state) else (some [event], state)) fun seg =>
          if seg.isOpen then
            (some [event.reindex seg.downIndex], { state with
              byUpstream := state.byUpstream.set upstream { seg with isOpen := false } })
          else (none, state)) := by
  obtain ⟨_, found, ⟨-, same⟩ | ⟨-, same⟩ | ⟨name, same⟩⟩ := event_of_mark? read
  · cases same
  · cases same
  · cases same
    obtain ⟨payload, data, fields, key⟩ := data_of_index? found
    rw [transform_stop name data, transformStop, key]
    simp only [SseEvent.reindex, fields]
    cases state.byUpstream.get? upstream with
    | none => cases thinkingEnabled <;> rfl
    | some seg => rfl

section Stop

variable (read : event.mark? = some (.stop upstream))
include read

theorem transform_hiddenStop (hidden : upstream ∈ state.droppedIndexes) :
    transformNativeSseBlockEvent event state thinkingEnabled = .ok (none, state) := by
  rw [transform_of_stop read, if_pos hidden]

variable (shown : upstream ∉ state.droppedIndexes)
include shown

/-- The stop of a block that was closed for another one. -/
theorem transform_suppressedStop (pending : upstream ∈ state.pendingSuppressedStops) :
    transformNativeSseBlockEvent event state thinkingEnabled =
      .ok (none, { state with
        pendingSuppressedStops := state.pendingSuppressedStops.erase upstream }) := by
  rw [transform_of_stop read, if_neg shown, if_pos pending]

variable (due : upstream ∉ state.pendingSuppressedStops)
include due

theorem transform_openStop {seg : UpstreamBlockState}
    (found : state.byUpstream.get? upstream = some seg) (isOpen : seg.isOpen = true) :
    transformNativeSseBlockEvent event state thinkingEnabled =
      .ok (some [event.reindex seg.downIndex], { state with
        byUpstream := state.byUpstream.set upstream { seg with isOpen := false } }) := by
  rw [transform_of_stop read, if_neg shown, if_neg due, found, Option.elim_some, if_pos isOpen]

theorem transform_closedStop {seg : UpstreamBlockState}
    (found : state.byUpstream.get? upstream = some seg) (closed : seg.isOpen = false) :
    transformNativeSseBlockEvent event state thinkingEnabled = .ok (none, state) := by
  rw [transform_of_stop read, if_neg shown, if_neg due, found, Option.elim_some, closed]
  rfl

theorem transform_unknownStop (unknown : state.byUpstream.get? upstream = none) :
    transformNativeSseBlockEvent event state thinkingEnabled =
      .ok (if thinkingEnabled = false then (none, state) else (some [event], state)) := by
  rw [transform_of_stop read, if_neg shown, if_neg due, unknown, Option.elim_none]

end Stop

end Answers

end ClaudeProxy
