/-
**Tool calls under the native block policy.**

* `inputJson` — the argument text a client reads from one block.
* `Interrupted` — between the start of a block and one of its deltas another block starts.
* `Handled` — what one call of `transform_native_sse_block_event` does, case by case.
* `Ledger`, `ToolKept` — the invariants: the segments that a block has downstream carry its argument
  text in order; those of a tool call carry its id and name, and there is one of them exactly as long
  as the call is not interrupted.
* **`tool_frames_survive`** — both along every well-formed stream whose block frames are decoded.
-/

import ClaudeProxy.Sse.PolicyAnswers
import ClaudeProxy.Sse.PolicyOrder

namespace ClaudeProxy

open Json (getKey setKey)

/-! ### A client's view of a tool call -/

/-- The members of a started block. -/
def SseEvent.block (event : SseEvent) : List (String × Json) :=
  (event.contentBlock.asObj?).getD []

/-- The event starts the block as a tool call. -/
def SseEvent.StartsTool (event : SseEvent) (index : Int) (toolId name : String) : Prop :=
  event.mark? = some (.start index) ∧ getKey event.block "type" = .str "tool_use" ∧
    getKey event.block "id" = .str toolId ∧ getKey event.block "name" = .str name

instance (event : SseEvent) (index : Int) (toolId name : String) :
    Decidable (event.StartsTool index toolId name) :=
  inferInstanceAs (Decidable (_ ∧ _ ∧ _ ∧ _))

/-- The piece of argument text that the event adds to the block. -/
def SseEvent.inputPiece? (index : Int) (event : SseEvent) : Option String :=
  if event.mark? = some (.delta index) ∧ event.deltaType = .str "input_json_delta" then
    (getKey ((event.delta.asObj?).getD []) "partial_json").asStr?
  else none

def inputPieces (index : Int) (events : List SseEvent) : List String :=
  events.filterMap (·.inputPiece? index)

/-- The block's argument text: its `partial_json` pieces, one behind the other. -/
def inputJson (events : List SseEvent) (index : Int) : String :=
  Py.join "" (inputPieces index events)

/-- Interleaved upstream blocks: well nested, started with a typed `content_block`; a tool call has
an id and a name, and only input deltas. -/
structure ToolBlocks (events : List SseEvent) : Prop where
  nested : WellNested events
  typed : ∀ event ∈ events, event.event = "content_block_start" →
    ∃ block blockType, event.contentBlock = .obj block ∧ getKey block "type" = .str blockType
  identified : ∀ event ∈ events, ∀ index, event.mark? = some (.start index) →
    getKey event.block "type" = .str "tool_use" →
    ∃ toolId name, toolId ≠ "" ∧ event.StartsTool index toolId name
  inputs : ∀ start ∈ events, ∀ index toolId name, start.StartsTool index toolId name →
    ∀ event ∈ events, event.mark? = some (.delta index) →
      event.deltaType = .str "input_json_delta"

/-- The event starts a block that the policy does not drop. -/
def SseEvent.StartsKept (thinkingEnabled : Bool) (event : SseEvent) (index : Int) : Prop :=
  event.mark? = some (.start index) ∧
    shouldDropBlockType event.blockType thinkingEnabled = false

/-- Behind the start of the block another block starts. -/
def Overtaken (thinkingEnabled : Bool) (index : Int) (events : List SseEvent) : Prop :=
  ∃ own other, [own, other].Sublist events ∧ own.mark? = some (.start index) ∧
    ∃ next ≠ index, other.StartsKept thinkingEnabled next

/-- Between the start of the block and one of its deltas another block starts. -/
def Interrupted (thinkingEnabled : Bool) (index : Int) (events : List SseEvent) : Prop :=
  ∃ own other later, [own, other, later].Sublist events ∧ own.mark? = some (.start index) ∧
    (∃ next ≠ index, other.StartsKept thinkingEnabled next) ∧ later.mark? = some (.delta index)

/-- The downstream blocks that belong to an upstream block, in the order of their starts. -/
def segments (owner : Int → Int) (index : Int) (out : List SseEvent) : List Int :=
  (starts (marks out)).filter fun down => owner down = index

section Views

variable {thinkingEnabled : Bool} {owner : Int → Int}

@[simp]
theorem inputPieces_append (index : Int) (first second : List SseEvent) :
    inputPieces index (first ++ second) = inputPieces index first ++ inputPieces index second :=
  List.filterMap_append

@[simp]
theorem segments_append (index : Int) (first second : List SseEvent) :
    segments owner index (first ++ second) =
      segments owner index first ++ segments owner index second := by
  rw [segments, marks_append, starts_append, List.filter_append]
  rfl

theorem segments_unstarted {out new : List SseEvent} (unstarted : starts (marks new) = [])
    (index : Int) : segments owner index (out ++ new) = segments owner index out := by
  rw [segments, marks_append, starts_append, unstarted, List.append_nil, segments]

theorem inputPieces_of_mark {event : SseEvent} (other : ∀ index, event.mark? ≠ some (.delta index))
    (index : Int) : inputPieces index [event] = [] := by
  rw [inputPieces, List.filterMap_cons_none, List.filterMap_nil]
  rw [SseEvent.inputPiece?, if_neg fun both => other index both.1]

theorem inputPieces_of_type {event : SseEvent} (other : event.deltaType ≠ .str "input_json_delta")
    (index : Int) : inputPieces index [event] = [] := by
  rw [inputPieces, List.filterMap_cons_none, List.filterMap_nil]
  rw [SseEvent.inputPiece?, if_neg fun both => other both.2]

theorem inputPieces_of_ne {event : SseEvent} {index other : Int}
    (read : event.mark? = some (.delta index)) (apart : other ≠ index) :
    inputPieces other [event] = [] := by
  rw [inputPieces, List.filterMap_cons_none, List.filterMap_nil]
  rw [SseEvent.inputPiece?, if_neg]
  rintro ⟨same, -⟩
  rw [read, Option.some.injEq, Mark.delta.injEq] at same
  exact apart same.symm

theorem inputPieces_stops (index : Int) (indexes : List Int) :
    inputPieces index (indexes.map contentBlockStop) = [] := by
  induction indexes with
  | nil => rfl
  | cons stopped rest ih =>
    rw [List.map_cons, ← List.singleton_append, inputPieces_append, ih, List.append_nil]
    exact inputPieces_of_mark (fun other same => by simp at same) index

theorem sublist_concat {first : List SseEvent} {last event : SseEvent} {events : List SseEvent} :
    (first ++ [last]).Sublist (events ++ [event]) ↔
      (first ++ [last]).Sublist events ∨ first.Sublist events ∧ last = event := by
  rw [← List.reverse_sublist, List.reverse_append, List.reverse_append, List.reverse_singleton,
    List.reverse_singleton, List.singleton_append, List.singleton_append, List.sublist_cons_iff,
    ← List.reverse_concat, List.reverse_sublist]
  refine or_congr_right ⟨?_, ?_⟩
  · rintro ⟨rest, same, sublist⟩
    rw [List.reverse_concat, List.cons.injEq] at same
    obtain ⟨rfl, rfl⟩ := same
    exact ⟨List.reverse_sublist.mp sublist, rfl⟩
  · rintro ⟨sublist, rfl⟩
    exact ⟨first.reverse, List.reverse_concat, sublist.reverse⟩

theorem overtaken_concat {index : Int} {events : List SseEvent} {event : SseEvent} :
    Overtaken thinkingEnabled index (events ++ [event]) ↔
      Overtaken thinkingEnabled index events ∨
        (∃ own ∈ events, own.mark? = some (.start index)) ∧
          ∃ next ≠ index, event.StartsKept thinkingEnabled next := by
  constructor
  · rintro ⟨own, other, sublist, started, overtakes⟩
    rcases (@sublist_concat [own] other event events).mp sublist with before | ⟨before, rfl⟩
    · exact Or.inl ⟨own, other, before, started, overtakes⟩
    · exact Or.inr ⟨⟨own, List.singleton_sublist.mp before, started⟩, overtakes⟩
  · rintro (⟨own, other, sublist, rest⟩ | ⟨⟨own, member, started⟩, overtakes⟩)
    · exact ⟨own, other, sublist.trans (List.sublist_append_left _ _), rest⟩
    · exact ⟨own, event, (List.singleton_sublist.mpr member).append (List.Sublist.refl _), started,
        overtakes⟩

theorem interrupted_concat {index : Int} {events : List SseEvent} {event : SseEvent} :
    Interrupted thinkingEnabled index (events ++ [event]) ↔
      Interrupted thinkingEnabled index events ∨
        Overtaken thinkingEnabled index events ∧ event.mark? = some (.delta index) := by
  constructor
  · rintro ⟨own, other, later, sublist, started, overtakes, read⟩
    rcases (@sublist_concat [own, other] later event events).mp sublist with before | ⟨before, rfl⟩
    · exact Or.inl ⟨own, other, later, before, started, overtakes, read⟩
    · exact Or.inr ⟨⟨own, other, before, started, overtakes⟩, read⟩
  · rintro (⟨own, other, later, sublist, rest⟩ | ⟨⟨own, other, sublist, started, overtakes⟩, read⟩)
    · exact ⟨own, other, later, sublist.trans (List.sublist_append_left _ _), rest⟩
    · exact ⟨own, other, event, sublist.append (List.Sublist.refl _), started, overtakes, read⟩

end Views

/-! ### What one call does -/

/-- One call of the policy, on an event whose block, if it is not new, is known or dropped. -/
inductive Handled (thinkingEnabled : Bool) (event : SseEvent) (state : NativeSseBlockPolicyState) :
    NativeSseBlockPolicyState → List SseEvent → Prop
  /-- No segment is opened, closed or extended. -/
  | quiet {state' : NativeSseBlockPolicyState} {new : List SseEvent}
      (unstarted : starts (marks new) = []) (silent : ∀ down, inputPieces down new = [])
      (noInput : ∀ index ∉ state.droppedIndexes, event.mark? = some (.delta index) →
        event.deltaType ≠ .str "input_json_delta")
      (noStart : ∀ index, event.mark? ≠ some (.start index))
      (sameSegments : state'.byUpstream = state.byUpstream)
      (sameNext : state'.nextIndex = state.nextIndex)
      (sameDropped : state'.droppedIndexes = state.droppedIndexes) :
      Handled thinkingEnabled event state state' new
  | dropped {index : Int} (read : event.mark? = some (.start index))
      (drops : shouldDropBlockType event.blockType thinkingEnabled = true) :
      Handled thinkingEnabled event state
        { state with droppedIndexes := insert index state.droppedIndexes } []
  | opened {index : Int} (blockType : String) (keeps : event.StartsKept thinkingEnabled index) :
      Handled thinkingEnabled event state
        (allocateNewSegment (syntheticCloseOtherOpenBlocks state index).2 index blockType
          (some event.block)).2
        ((syntheticCloseOtherOpenBlocks state index).1 ++ [event.reindex state.nextIndex])
  | forwarded {index : Int} {seg : UpstreamBlockState} (read : event.mark? = some (.delta index))
      (found : state.byUpstream.get? index = some seg) (isOpen : seg.isOpen = true) :
      Handled thinkingEnabled event state state [event.reindex seg.downIndex]
  | reopened {index : Int} {seg : UpstreamBlockState} {kind : String}
      (read : event.mark? = some (.delta index))
      (found : state.byUpstream.get? index = some seg) (closed : seg.isOpen = false)
      (mapped : deltaTypeToBlockKind event.deltaType = some kind) :
      Handled thinkingEnabled event state
        (allocateNewSegment { state with
          pendingSuppressedStops := state.pendingSuppressedStops.erase index } index kind
          seg.lastStartBlock).2
        [contentBlockStart state.nextIndex
          (syntheticStartContentBlock kind index (storedTool seg.lastStartBlock)),
          event.reindex state.nextIndex]
  | stopped {index : Int} {seg : UpstreamBlockState} (read : event.mark? = some (.stop index))
      (found : state.byUpstream.get? index = some seg) (isOpen : seg.isOpen = true) :
      Handled thinkingEnabled event state
        { state with byUpstream := state.byUpstream.set index { seg with isOpen := false } }
        [event.reindex seg.downIndex]

section Calls

variable {thinkingEnabled : Bool} {event : SseEvent} {state : NativeSseBlockPolicyState}

/-- A reindexed delta adds the same piece, at its new index. -/
theorem inputPieces_reindex {index : Int} (read : event.mark? = some (.delta index)) (down : Int) :
    inputPieces down [event.reindex down] = inputPieces index [event] := by
  have samePiece : (event.reindex down).inputPiece? down = event.inputPiece? index := by
    rw [SseEvent.inputPiece?, SseEvent.inputPiece?, mark?_reindex_delta read, read,
      deltaType_reindex, delta_reindex]
    simp only [true_and]
  rw [inputPieces, inputPieces, List.filterMap_cons, List.filterMap_cons, samePiece]
  rfl

theorem handled_start {index : Int} (read : event.mark? = some (.start index))
    (typed : ∃ block blockType, event.contentBlock = .obj block ∧
      getKey block "type" = .str blockType) :
    ∃ answer state', transformNativeSseBlockEvent event state thinkingEnabled =
      .ok (answer, state') ∧ Handled thinkingEnabled event state state' (answer.getD []) := by
  obtain ⟨block, blockType, isBlock, isType⟩ := typed
  cases drops : shouldDropBlockType event.blockType thinkingEnabled with
  | true => exact ⟨_, _, transform_droppedStart read isBlock drops, .dropped read drops⟩
  | false =>
    obtain rfl : event.block = block := by
      rw [SseEvent.block, isBlock]
      rfl
    exact ⟨_, _, transform_keptStart read isBlock isType drops, .opened blockType ⟨read, drops⟩⟩

/-- An event has one mark. -/
theorem mark?_ne {mark other : Mark Int} (read : event.mark? = some mark) (different : mark ≠ other) :
    event.mark? ≠ some other := by
  rw [read]
  exact fun same => different (Option.some.inj same)

theorem handled_delta {index : Int} (read : event.mark? = some (.delta index))
    (known : index ∈ state.droppedIndexes ∨ (state.byUpstream.get? index).isSome) :
    ∃ answer state', transformNativeSseBlockEvent event state thinkingEnabled =
      .ok (answer, state') ∧ Handled thinkingEnabled event state state' (answer.getD []) := by
  have noStart : ∀ other, event.mark? ≠ some (.start other) := fun _ => mark?_ne read nofun
  -- an event that is no input delta is passed on or dropped
  have passes : event.deltaType ≠ .str "input_json_delta" →
      Handled thinkingEnabled event state state [event] ∧
        Handled thinkingEnabled event state state [] := by
    intro other
    exact ⟨.quiet (starts_of_mark read nofun) (inputPieces_of_type other) (fun _ _ _ => other) noStart
      rfl rfl rfl, .quiet rfl (fun _ => rfl) (fun _ _ _ => other) noStart rfl rfl rfl⟩
  cases isDelta : event.delta with
  | obj delta =>
    by_cases gone : index ∈ state.droppedIndexes
    · refine ⟨_, _, transform_hiddenDelta read isDelta gone,
        .quiet rfl (fun _ => rfl) ?_ noStart rfl rfl rfl⟩
      intro other kept extended
      rw [read, Option.some.injEq, Mark.delta.injEq] at extended
      exact absurd (extended ▸ gone) kept
    cases drops : shouldDropBlockType event.deltaType thinkingEnabled with
    | true =>
      refine ⟨_, _, transform_droppedDelta read isDelta drops, (passes fun same => ?_).2⟩
      have never : shouldDropBlockType (.str "input_json_delta") thinkingEnabled = false := by
        cases thinkingEnabled <;> decide
      rw [same, never] at drops
      cases drops
    | false =>
      cases mapped : deltaTypeToBlockKind event.deltaType with
      | none =>
        refine ⟨_, _, transform_unmappedDelta read isDelta gone drops mapped, (passes fun same => ?_).1⟩
        rw [same] at mapped
        cases mapped
      | some kind =>
        obtain ⟨seg, found⟩ := Option.isSome_iff_exists.mp (known.resolve_left gone)
        cases isOpen : seg.isOpen with
        | true =>
          exact ⟨_, _, transform_openDelta read isDelta gone drops mapped found isOpen,
            .forwarded read found isOpen⟩
        | false =>
          exact ⟨_, _, transform_reopeningDelta read isDelta gone drops mapped found isOpen,
            .reopened read found isOpen mapped⟩
  | _ =>
    have shapeless : event.delta.asObj? = none := by
      rw [isDelta]
      rfl
    refine ⟨_, _, transform_shapelessDelta read shapeless, (passes ?_).1⟩
    rw [SseEvent.deltaType, shapeless]
    intro same
    cases same

theorem handled_stop {index : Int} (read : event.mark? = some (.stop index))
    (known : index ∈ state.droppedIndexes ∨ (state.byUpstream.get? index).isSome) :
    ∃ answer state', transformNativeSseBlockEvent event state thinkingEnabled =
      .ok (answer, state') ∧ Handled thinkingEnabled event state state' (answer.getD []) := by
  have noStart : ∀ other, event.mark? ≠ some (.start other) := fun _ => mark?_ne read nofun
  have noInput : ∀ other ∉ state.droppedIndexes, event.mark? = some (.delta other) →
      event.deltaType ≠ .str "input_json_delta" := by
    intro other _ extended
    rw [read] at extended
    cases extended
  by_cases gone : index ∈ state.droppedIndexes
  · exact ⟨_, _, transform_hiddenStop read gone,
      .quiet rfl (fun _ => rfl) noInput noStart rfl rfl rfl⟩
  by_cases pending : index ∈ state.pendingSuppressedStops
  · exact ⟨_, _, transform_suppressedStop read gone pending,
      .quiet rfl (fun _ => rfl) noInput noStart rfl rfl rfl⟩
  obtain ⟨seg, found⟩ := Option.isSome_iff_exists.mp (known.resolve_left gone)
  cases isOpen : seg.isOpen with
  | true => exact ⟨_, _, transform_openStop read gone pending found isOpen, .stopped read found isOpen⟩
  | false =>
    exact ⟨_, _, transform_closedStop read gone pending found isOpen,
      .quiet rfl (fun _ => rfl) noInput noStart rfl rfl rfl⟩

theorem handled_other (other : event.isBlockEvent = false) :
    transformNativeSseBlockEvent event state thinkingEnabled = .ok (some [event], state) ∧
      Handled thinkingEnabled event state state [event] := by
  have unread := SseEvent.mark?_eq_none_of_not_block other
  have unmarked : ∀ mark, event.mark? ≠ some mark := by
    intro mark read
    rw [unread] at read
    cases read
  refine ⟨transform_other other, .quiet ?_ (inputPieces_of_mark fun index => unmarked (.delta index))
    (fun index _ extended => absurd extended (unmarked (.delta index)))
    (fun index => unmarked (.start index)) rfl rfl rfl⟩
  rw [marks_cons_none unread, marks_nil]
  rfl

end Calls

/-! ### The ledger -/

/-- What the policy's state says of the upstream events read and the downstream events sent: every
known block has its segments, the last one being its current one, and their argument texts are,
one behind the other, the block's. -/
structure Ledger (events : List SseEvent) (up : Nest Int) (state : NativeSseBlockPolicyState)
    (owner : Int → Int) (out : List SseEvent) : Prop where
  known : ∀ index ∈ up.seen,
    index ∈ state.droppedIndexes ∨ (state.byUpstream.get? index).isSome = true
  droppedSeen : ∀ index ∈ state.droppedIndexes, index ∈ up.seen
  apart : ∀ index seg, state.byUpstream.get? index = some seg →
    index ∈ up.seen ∧ index ∉ state.droppedIndexes
  fresh : ∀ down ∈ starts (marks out), down < state.nextIndex
  distinct : (starts (marks out)).Nodup
  silent : ∀ down, state.nextIndex ≤ down → inputPieces down out = []
  unheard : ∀ index ∉ up.seen, inputPieces index events = []
  unsegmented : ∀ index ∉ up.seen, segments owner index out = []
  last : ∀ index seg, state.byUpstream.get? index = some seg →
    (segments owner index out).getLast? = some seg.downIndex
  payload : ∀ index seg, state.byUpstream.get? index = some seg →
    (segments owner index out).flatMap (inputPieces · out) = inputPieces index events

theorem ledger_init (owner : Int → Int) : Ledger [] Nest.empty {} owner [] where
  known index member := absurd member (Finset.notMem_empty _)
  droppedSeen index member := absurd member (Finset.notMem_empty _)
  apart index seg found := by simp at found
  fresh down member := absurd member List.not_mem_nil
  distinct := List.nodup_nil
  silent down _ := rfl
  unheard index _ := rfl
  unsegmented index _ := rfl
  last index seg found := by simp at found
  payload index seg found := by simp at found

section LedgerStep

variable {thinkingEnabled : Bool} {events out new : List SseEvent} {event : SseEvent}
  {up up' : Nest Int} {state state' : NativeSseBlockPolicyState} {owner : Int → Int}

theorem Ledger.mem_segments (ledger : Ledger events up state owner out) {index : Int}
    {seg : UpstreamBlockState} (found : state.byUpstream.get? index = some seg) :
    seg.downIndex ∈ segments owner index out :=
  List.mem_of_getLast? (ledger.last index seg found)

theorem of_mem_segments {index down : Int} (member : down ∈ segments owner index out) :
    down ∈ starts (marks out) ∧ owner down = index := by
  rw [segments, List.mem_filter, decide_eq_true_eq] at member
  exact member

/-- A new owner for an index that has not been given out changes no block's segments. -/
theorem Ledger.segments_update (ledger : Ledger events up state owner out) (index other : Int) :
    segments (Function.update owner state.nextIndex index) other out = segments owner other out := by
  apply List.filter_congr
  intro down member
  rw [Function.update_of_ne (ne_of_lt (ledger.fresh down member))]

theorem segments_new {index other down : Int} (started : starts (marks new) = [down]) :
    segments (Function.update owner down index) other new = if other = index then [down] else [] := by
  rw [segments, started, List.filter_singleton, Function.update_self]
  by_cases same : other = index
  · simp [same]
  · simp [same, Ne.symm same]

theorem seen_of_noStart (stepped : up.run (marks [event]) = some up')
    (noStart : ∀ index, event.mark? ≠ some (.start index)) :
    up'.seen = up.seen ∧ up'.opened ⊆ up.opened := by
  rcases read : event.mark? with _ | mark
  · rw [marks_cons_none read, marks_nil, Nest.run_nil, Option.some.injEq] at stepped
    rw [← stepped]
    exact ⟨rfl, Finset.Subset.refl _⟩
  · rw [run_marks_singleton _ read] at stepped
    cases mark with
    | start index => exact absurd read (noStart index)
    | delta index =>
      obtain ⟨-, same⟩ := Option.ite_none_right_eq_some.mp stepped
      obtain rfl := Option.some.inj same
      exact ⟨rfl, Finset.Subset.refl _⟩
    | stop index =>
      obtain ⟨-, same⟩ := Option.ite_none_right_eq_some.mp stepped
      obtain rfl := Option.some.inj same
      exact ⟨rfl, Finset.erase_subset _ _⟩

theorem start_of_read {index : Int} (stepped : up.run (marks [event]) = some up')
    (read : event.mark? = some (.start index)) : index ∉ up.seen ∧ up' = up.start index := by
  rw [run_marks_singleton _ read] at stepped
  obtain ⟨fresh, same⟩ := Option.ite_none_left_eq_some.mp stepped
  exact ⟨fresh, (Option.some.inj same).symm⟩

theorem opened_of_read {index : Int} (stepped : up.run (marks [event]) = some up')
    (read : event.mark? = some (.delta index)) : index ∈ up.opened ∧ up' = up := by
  rw [run_marks_singleton _ read] at stepped
  obtain ⟨isOpen, same⟩ := Option.ite_none_right_eq_some.mp stepped
  exact ⟨isOpen, (Option.some.inj same).symm⟩

/-- A block that has not been started has no piece in the event. -/
theorem unheard_of_step (stepped : up.run (marks [event]) = some up') {index : Int}
    (unseen : index ∉ up.seen) : inputPieces index [event] = [] := by
  by_cases read : event.mark? = some (.delta index)
  · exact absurd (up.within (opened_of_read stepped read).1) unseen
  · rw [inputPieces, List.filterMap_cons_none, List.filterMap_nil]
    rw [SseEvent.inputPiece?, if_neg fun both => read both.1]

/-- A list read under `pieces'` where its last item gained `more` and the others nothing. -/
theorem flatMap_extend {items : List Int} {pieces pieces' : Int → List String} {last : Int}
    {more : List String} (distinct : items.Nodup) (isLast : items.getLast? = some last)
    (gains : pieces' last = pieces last ++ more)
    (others : ∀ item ≠ last, pieces' item = pieces item) :
    items.flatMap pieces' = items.flatMap pieces ++ more := by
  obtain ⟨before, rfl⟩ := List.getLast?_eq_some_iff.mp isLast
  rw [List.nodup_append] at distinct
  have same : before.flatMap pieces' = before.flatMap pieces := by
    apply List.flatMap_congr
    intro item member
    exact others item (distinct.2.2 item member last (List.mem_singleton_self _))
  rw [List.flatMap_append, List.flatMap_append, same, List.flatMap_singleton, List.flatMap_singleton,
    gains, List.append_assoc]

theorem Ledger.nodup_segments (ledger : Ledger events up state owner out) (index : Int) :
    (segments owner index out).Nodup :=
  ledger.distinct.filter _

/-- An event under which no segment starts and none gains a piece. -/
theorem Ledger.still (ledger : Ledger events up state owner out)
    (stepped : up.run (marks [event]) = some up') (grows : up.seen ⊆ up'.seen)
    (unstarted : starts (marks new) = []) (silent : ∀ down, inputPieces down new = [])
    (unheard : ∀ index seg, state.byUpstream.get? index = some seg →
      inputPieces index [event] = [])
    (same : ∀ index seg', state'.byUpstream.get? index = some seg' →
      ∃ seg, state.byUpstream.get? index = some seg ∧ seg.downIndex = seg'.downIndex)
    (sameNext : state'.nextIndex = state.nextIndex)
    (known : ∀ index ∈ up'.seen,
      index ∈ state'.droppedIndexes ∨ (state'.byUpstream.get? index).isSome = true)
    (droppedSeen : ∀ index ∈ state'.droppedIndexes, index ∈ up'.seen)
    (apart : ∀ index seg, state.byUpstream.get? index = some seg → index ∉ state'.droppedIndexes) :
    Ledger (events ++ [event]) up' state' owner (out ++ new) := by
  have sameStarts : starts (marks (out ++ new)) = starts (marks out) := by
    rw [marks_append, starts_append, unstarted, List.append_nil]
  have sameSegments : ∀ index, segments owner index (out ++ new) = segments owner index out :=
    segments_unstarted unstarted
  have samePieces : ∀ down, inputPieces down (out ++ new) = inputPieces down out := by
    intro down
    rw [inputPieces_append, silent, List.append_nil]
  refine ⟨known, droppedSeen, ?_, ?_, ?_, ?_, ?_, ?_, ?_, ?_⟩
  · intro index seg' found
    obtain ⟨seg, found, -⟩ := same index seg' found
    exact ⟨grows (ledger.apart index seg found).1, apart index seg found⟩
  · rw [sameStarts, sameNext]
    exact ledger.fresh
  · rw [sameStarts]
    exact ledger.distinct
  · intro down later
    rw [samePieces]
    exact ledger.silent down (sameNext ▸ later)
  · intro index unseen
    have before : index ∉ up.seen := fun member => unseen (grows member)
    rw [inputPieces_append, ledger.unheard index before, unheard_of_step stepped before,
      List.append_nil]
  · intro index unseen
    rw [sameSegments]
    exact ledger.unsegmented index fun member => unseen (grows member)
  · intro index seg' found
    obtain ⟨seg, found, sameDown⟩ := same index seg' found
    rw [sameSegments, ← sameDown]
    exact ledger.last index seg found
  · intro index seg' found
    obtain ⟨seg, found, -⟩ := same index seg' found
    rw [sameSegments, inputPieces_append, unheard index seg found, List.append_nil,
      ← ledger.payload index seg found]
    exact List.flatMap_congr fun down _ => samePieces down

/-- A delta that goes to the current segment of its block. -/
theorem Ledger.forward (ledger : Ledger events up state owner out)
    (stepped : up.run (marks [event]) = some up') {index : Int} {seg : UpstreamBlockState}
    (read : event.mark? = some (.delta index))
    (found : state.byUpstream.get? index = some seg) :
    Ledger (events ++ [event]) up' state owner (out ++ [event.reindex seg.downIndex]) := by
  obtain ⟨-, rfl⟩ := opened_of_read stepped read
  have readNew := mark?_reindex_delta read seg.downIndex
  have unstarted : starts (marks [event.reindex seg.downIndex]) = [] :=
    starts_of_mark readNew fun _ other => by cases other
  have sameStarts : starts (marks (out ++ [event.reindex seg.downIndex])) = starts (marks out) := by
    rw [marks_append, starts_append, unstarted, List.append_nil]
  have sameSegments : ∀ other,
      segments owner other (out ++ [event.reindex seg.downIndex]) = segments owner other out :=
    segments_unstarted unstarted
  have samePieces : ∀ down ≠ seg.downIndex,
      inputPieces down (out ++ [event.reindex seg.downIndex]) = inputPieces down out := by
    intro down different
    rw [inputPieces_append, inputPieces_of_ne readNew different, List.append_nil]
  obtain ⟨started, owned⟩ := of_mem_segments (ledger.mem_segments found)
  refine ⟨ledger.known, ledger.droppedSeen, ledger.apart, ?_, ?_, ?_, ?_, ?_, ?_, ?_⟩
  · rw [sameStarts]
    exact ledger.fresh
  · rw [sameStarts]
    exact ledger.distinct
  · intro down later
    rw [samePieces down (ne_of_gt (lt_of_lt_of_le (ledger.fresh _ started) later))]
    exact ledger.silent down later
  · intro other unseen
    rw [inputPieces_append, ledger.unheard other unseen, unheard_of_step stepped unseen,
      List.append_nil]
  · intro other unseen
    rw [sameSegments]
    exact ledger.unsegmented other unseen
  · intro other otherSeg otherFound
    rw [sameSegments]
    exact ledger.last other otherSeg otherFound
  · intro other otherSeg otherFound
    rw [sameSegments, inputPieces_append]
    by_cases same : other = index
    · subst same
      rw [← ledger.payload other seg found]
      refine flatMap_extend (ledger.nodup_segments other) (ledger.last other seg found) ?_ samePieces
      rw [inputPieces_append, inputPieces_reindex read]
    · rw [inputPieces_of_ne read same, List.append_nil, ← ledger.payload other otherSeg otherFound]
      apply List.flatMap_congr
      intro down member
      apply samePieces
      rintro rfl
      exact same ((of_mem_segments member).2.symm.trans owned)

/-- A segment opened at the next index. -/
theorem Ledger.open (ledger : Ledger events up state owner out)
    (stepped : up.run (marks [event]) = some up') (grows : up.seen ⊆ up'.seen) {index : Int}
    (opened : UpstreamBlockState) (atNext : opened.downIndex = state.nextIndex)
    (onlyNew : ∀ other ∈ up'.seen, other = index ∨ other ∈ up.seen) (seen : index ∈ up'.seen)
    (kept : index ∉ state.droppedIndexes)
    (started : starts (marks new) = [state.nextIndex])
    (gains : inputPieces state.nextIndex new = inputPieces index [event])
    (silent : ∀ down ≠ state.nextIndex, inputPieces down new = [])
    (unheard : ∀ other ≠ index, other ∉ state.droppedIndexes → inputPieces other [event] = [])
    (before : (segments owner index out).flatMap (inputPieces · out) = inputPieces index events)
    (same : ∀ other seg', state'.byUpstream.get? other = some seg' →
      other = index ∧ seg' = opened ∨ other ≠ index ∧
        ∃ seg, state.byUpstream.get? other = some seg ∧ seg.downIndex = seg'.downIndex)
    (known : ∀ other, other = index ∨ (state.byUpstream.get? other).isSome = true →
      (state'.byUpstream.get? other).isSome = true)
    (next : state'.nextIndex = state.nextIndex + 1)
    (sameDropped : state'.droppedIndexes = state.droppedIndexes) :
    Ledger (events ++ [event]) up' state' (Function.update owner state.nextIndex index)
      (out ++ new) := by
  have newStarts : starts (marks (out ++ new)) = starts (marks out) ++ [state.nextIndex] := by
    rw [marks_append, starts_append, started]
  have newSegments : ∀ other,
      segments (Function.update owner state.nextIndex index) other (out ++ new) =
        segments owner other out ++ if other = index then [state.nextIndex] else [] := by
    intro other
    rw [segments_append, ledger.segments_update, segments_new started]
  have samePieces : ∀ down ≠ state.nextIndex,
      inputPieces down (out ++ new) = inputPieces down out := by
    intro down different
    rw [inputPieces_append, silent down different, List.append_nil]
  have below : ∀ other, ∀ down ∈ segments owner other out, down ≠ state.nextIndex :=
    fun other down member => ne_of_lt (ledger.fresh down (of_mem_segments member).1)
  have sameBefore : ∀ other, (segments owner other out).flatMap (inputPieces · (out ++ new)) =
      (segments owner other out).flatMap (inputPieces · out) := fun other =>
    List.flatMap_congr fun down member => samePieces down (below other down member)
  refine ⟨?_, ?_, ?_, ?_, ?_, ?_, ?_, ?_, ?_, ?_⟩
  · intro other member
    rw [sameDropped]
    rcases onlyNew other member with rfl | member
    · exact Or.inr (known other (Or.inl rfl))
    · exact (ledger.known other member).imp_right fun found => known other (Or.inr found)
  · intro other member
    rw [sameDropped] at member
    exact grows (ledger.droppedSeen other member)
  · intro other seg' found
    rw [sameDropped]
    rcases same other seg' found with ⟨rfl, -⟩ | ⟨-, seg, found, -⟩
    · exact ⟨seen, kept⟩
    · exact ⟨grows (ledger.apart other seg found).1, (ledger.apart other seg found).2⟩
  · intro down member
    rw [newStarts, List.mem_append, List.mem_singleton] at member
    rw [next]
    rcases member with member | rfl
    · exact (ledger.fresh down member).trans (Int.lt_succ _)
    · exact Int.lt_succ _
  · rw [newStarts]
    refine List.nodup_append.mpr ⟨ledger.distinct, List.nodup_singleton _, ?_⟩
    intro down member other memberNew
    rw [List.mem_singleton] at memberNew
    rw [memberNew]
    exact ne_of_lt (ledger.fresh down member)
  · intro down later
    rw [next] at later
    rw [samePieces down (by omega)]
    exact ledger.silent down (by omega)
  · intro other unseen
    have before : other ∉ up.seen := fun member => unseen (grows member)
    rw [inputPieces_append, ledger.unheard other before, unheard_of_step stepped before,
      List.append_nil]
  · intro other unseen
    rw [newSegments, if_neg fun same : other = index => unseen (same ▸ seen), List.append_nil]
    exact ledger.unsegmented other fun member => unseen (grows member)
  · intro other seg' found
    rw [newSegments]
    rcases same other seg' found with ⟨rfl, rfl⟩ | ⟨different, seg, found, sameDown⟩
    · rw [if_pos rfl, List.getLast?_concat, atNext]
    · rw [if_neg different, List.append_nil, ← sameDown]
      exact ledger.last other seg found
  · intro other seg' found
    rw [newSegments, inputPieces_append]
    rcases same other seg' found with ⟨rfl, -⟩ | ⟨different, seg, found, -⟩
    · rw [if_pos rfl, List.flatMap_append, sameBefore, before, List.flatMap_singleton,
        inputPieces_append, ledger.silent _ (le_refl _), List.nil_append, gains]
    · rw [if_neg different, List.append_nil, sameBefore, ledger.payload other seg found,
        unheard other different (ledger.apart other seg found).2, List.append_nil]

end LedgerStep

/-! ### Tool calls -/

/-- What the policy keeps of an upstream tool call: its segments carry its id and name, and there is
one of them exactly as long as it has not been interrupted; then its segment is open, while the
block is, exactly until another block starts. -/
structure ToolKept (thinkingEnabled : Bool) (events : List SseEvent) (up : Nest Int)
    (state : NativeSseBlockPolicyState) (owner : Int → Int) (out : List SseEvent)
    (index : Int) (toolId name : String) : Prop where
  started : ∃ own ∈ events, own.mark? = some (.start index)
  stored : ∃ seg block, state.byUpstream.get? index = some seg ∧ seg.lastStartBlock = some block ∧
    getKey block "type" = .str "tool_use" ∧ getKey block "id" = .str toolId ∧
    getKey block "name" = .str name
  identity : ∀ down ∈ segments owner index out, ∃ event ∈ out, event.StartsTool down toolId name
  count : (segments owner index out).length = 1 ↔ ¬Interrupted thinkingEnabled index events
  live : index ∈ up.opened → ¬Interrupted thinkingEnabled index events →
    ∀ seg, state.byUpstream.get? index = some seg →
      (seg.isOpen = true ↔ ¬Overtaken thinkingEnabled index events)

section ToolStep

variable {thinkingEnabled : Bool} {events out new : List SseEvent} {event : SseEvent}
  {up up' : Nest Int} {state state' : NativeSseBlockPolicyState} {owner : Int → Int}
  {index : Int} {toolId name : String}

theorem get?_syntheticClose (state : NativeSseBlockPolicyState) (current upstream : Int) :
    (syntheticCloseOtherOpenBlocks state current).2.byUpstream.get? upstream =
      (state.byUpstream.get? upstream).map fun seg =>
        if upstream ≠ current ∧ seg.isOpen then { seg with isOpen := false } else seg :=
  Dict.get?_mapValues _ _ _

theorem syntheticClose_stops (state : NativeSseBlockPolicyState) (current : Int) :
    (syntheticCloseOtherOpenBlocks state current).1 =
      ((otherOpenBlocks state current).map fun entry => entry.2.downIndex).map contentBlockStop := by
  rw [List.map_map]
  rfl

theorem not_overtakes (noStart : ∀ index, event.mark? ≠ some (.start index)) (index : Int) :
    ¬∃ next ≠ index, event.StartsKept thinkingEnabled next := by
  rintro ⟨next, -, started, -⟩
  exact noStart next started

/-- An event that is no delta of the call interrupts nothing. -/
theorem interrupted_of_other (other : event.mark? ≠ some (.delta index)) :
    Interrupted thinkingEnabled index (events ++ [event]) ↔
      Interrupted thinkingEnabled index events := by
  rw [interrupted_concat]
  exact or_iff_left fun both => other both.2

/-- An event that starts no kept block overtakes nothing. -/
theorem overtaken_of_other (other : ¬∃ next ≠ index, event.StartsKept thinkingEnabled next) :
    Overtaken thinkingEnabled index (events ++ [event]) ↔
      Overtaken thinkingEnabled index events := by
  rw [overtaken_concat]
  exact or_iff_left fun both => other both.2

/-- An event that changes neither the segments nor what is stored of the call. -/
theorem ToolKept.frame
    (tool : ToolKept thinkingEnabled events up state owner out index toolId name)
    {owner' : Int → Int}
    (sameSegments : segments owner' index (out ++ new) = segments owner index out)
    (sameStored : (state'.byUpstream.get? index).map (·.lastStartBlock) =
      (state.byUpstream.get? index).map (·.lastStartBlock))
    (sameInterrupted : Interrupted thinkingEnabled index (events ++ [event]) ↔
      Interrupted thinkingEnabled index events)
    (live : index ∈ up'.opened → ¬Interrupted thinkingEnabled index events →
      ∀ seg, state'.byUpstream.get? index = some seg →
        (seg.isOpen = true ↔ ¬Overtaken thinkingEnabled index (events ++ [event]))) :
    ToolKept thinkingEnabled (events ++ [event]) up' state' owner' (out ++ new) index toolId name := by
  refine ⟨?_, ?_, ?_, ?_, ?_⟩
  · obtain ⟨own, member, read⟩ := tool.started
    exact ⟨own, List.mem_append_left _ member, read⟩
  · obtain ⟨seg, block, found, stored, keys⟩ := tool.stored
    rw [found, Option.map_some, stored] at sameStored
    obtain ⟨seg', found', stored'⟩ := Option.map_eq_some_iff.mp sameStored
    exact ⟨seg', block, found', stored', keys⟩
  · intro down member
    rw [sameSegments] at member
    obtain ⟨own, inside, starts⟩ := tool.identity down member
    exact ⟨own, List.mem_append_left _ inside, starts⟩
  · rw [sameSegments, sameInterrupted]
    exact tool.count
  · intro opened calm
    rw [sameInterrupted] at calm
    exact live opened calm

/-- What a kept start sends starts one segment. -/
theorem starts_opened {opened : Int} (read : event.mark? = some (.start opened)) :
    starts (marks ((syntheticCloseOtherOpenBlocks state opened).1 ++
      [event.reindex state.nextIndex])) = [state.nextIndex] := by
  rw [marks_append, starts_append, syntheticClose_stops, marks_stops, starts_map_stop,
    List.nil_append, marks_cons_some (mark?_reindex_start read state.nextIndex)]
  rfl

theorem inputPieces_opened {opened : Int} (read : event.mark? = some (.start opened)) (down : Int) :
    inputPieces down ((syntheticCloseOtherOpenBlocks state opened).1 ++
      [event.reindex state.nextIndex]) = [] := by
  rw [inputPieces_append, syntheticClose_stops, inputPieces_stops, List.nil_append]
  refine inputPieces_of_mark (fun index extended => ?_) down
  rw [mark?_reindex_start read] at extended
  cases extended

theorem get?_opened (state : NativeSseBlockPolicyState) (opened : Int) (blockType : String)
    (block : Option (List (String × Json))) (other : Int) :
    (allocateNewSegment (syntheticCloseOtherOpenBlocks state opened).2 opened blockType
      block).2.byUpstream.get? other =
        if other = opened then some ⟨blockType, state.nextIndex, true, block⟩
        else (state.byUpstream.get? other).map fun seg =>
          if other ≠ opened ∧ seg.isOpen then { seg with isOpen := false } else seg := by
  rw [← get?_syntheticClose]
  exact Dict.get?_set _ _ _ _

/-- The synthetic start of a tool call's segment carries its id and name. -/
theorem syntheticStart_tool {block : List (String × Json)} (upstream : Int)
    (isTool : getKey block "type" = .str "tool_use") (hasId : getKey block "id" = .str toolId)
    (hasName : getKey block "name" = .str name) (known : toolId ≠ "") (down : Int) :
    (contentBlockStart down (syntheticStartContentBlock "tool_use" upstream
      (storedTool (some block)))).StartsTool down toolId name := by
  have stored : storedTool (some block) = some block := by
    rw [storedTool, Option.filter_some, isTool, if_pos (by decide)]
  refine ⟨mark?_contentBlockStart _ _, ?_⟩
  rw [stored, syntheticStartContentBlock, if_pos rfl, SseEvent.block, SseEvent.contentBlock]
  simp only [isTool, hasId, hasName, if_true, if_pos known]
  exact ⟨rfl, rfl, rfl⟩

/-- What one event, read in a state, leaves of the ledger and of the tool calls. -/
structure KeptBy (thinkingEnabled : Bool) (events : List SseEvent) (event : SseEvent)
    (up up' : Nest Int) (state state' : NativeSseBlockPolicyState) (owner owner' : Int → Int)
    (out new : List SseEvent) : Prop where
  ledger : Ledger (events ++ [event]) up' state' owner' (out ++ new)
  tools : ∀ index toolId name, ToolKept thinkingEnabled events up state owner out index toolId name →
    (event.mark? = some (.delta index) → event.deltaType = .str "input_json_delta") →
    toolId ≠ "" →
    ToolKept thinkingEnabled (events ++ [event]) up' state' owner' (out ++ new) index toolId name

section Steps

variable (ledger : Ledger events up state owner out) (stepped : up.run (marks [event]) = some up')
include ledger stepped

theorem quiet_step
    (unstarted : starts (marks new) = []) (silent : ∀ down, inputPieces down new = [])
    (noInput : ∀ index ∉ state.droppedIndexes, event.mark? = some (.delta index) →
      event.deltaType ≠ .str "input_json_delta")
    (noStart : ∀ index, event.mark? ≠ some (.start index))
    (sameSegments : state'.byUpstream = state.byUpstream)
    (sameNext : state'.nextIndex = state.nextIndex)
    (sameDropped : state'.droppedIndexes = state.droppedIndexes) :
    KeptBy thinkingEnabled events event up up' state state' owner owner out new := by
  obtain ⟨sameSeen, shrinks⟩ := seen_of_noStart stepped noStart
  constructor
  · refine ledger.still stepped (subset_of_eq sameSeen.symm) unstarted silent ?_ ?_ sameNext ?_ ?_ ?_
    · intro index seg found
      by_cases read : event.mark? = some (.delta index)
      · exact inputPieces_of_type (noInput index (ledger.apart index seg found).2 read) index
      · rw [inputPieces, List.filterMap_cons_none, List.filterMap_nil]
        rw [SseEvent.inputPiece?, if_neg fun both => read both.1]
    · intro index seg found
      rw [sameSegments] at found
      exact ⟨seg, found, rfl⟩
    · rw [sameSeen, sameDropped, sameSegments]
      exact ledger.known
    · rw [sameSeen, sameDropped]
      exact ledger.droppedSeen
    · rw [sameDropped]
      exact fun index seg found => (ledger.apart index seg found).2
  · intro index toolId name tool inputs _
    obtain ⟨seg, -, found, -⟩ := tool.stored
    have noDelta : event.mark? ≠ some (.delta index) := fun read =>
      noInput index (ledger.apart index seg found).2 read (inputs read)
    refine tool.frame ?_ ?_ (interrupted_of_other noDelta) ?_
    · exact segments_unstarted unstarted index
    · rw [sameSegments]
    · intro opened calm
      rw [sameSegments, overtaken_of_other (not_overtakes noStart index)]
      exact tool.live (shrinks opened) calm

theorem dropped_step {dropped : Int} (read : event.mark? = some (.start dropped))
    (drops : shouldDropBlockType event.blockType thinkingEnabled = true) :
    KeptBy thinkingEnabled events event up up' state
      { state with droppedIndexes := insert dropped state.droppedIndexes } owner owner out [] := by
  obtain ⟨fresh, rfl⟩ := start_of_read stepped read
  have noDelta : ∀ index, event.mark? ≠ some (.delta index) := fun _ => mark?_ne read nofun
  constructor
  · refine ledger.still stepped (Finset.subset_insert _ _) rfl (fun _ => rfl)
      (fun index _ _ => inputPieces_of_mark noDelta index) (fun _ seg found => ⟨seg, found, rfl⟩) rfl
      ?_ ?_ ?_
    · intro index member
      rcases Finset.mem_insert.mp member with rfl | member
      · exact Or.inl (Finset.mem_insert_self _ _)
      · exact (ledger.known index member).imp_left fun inside => Finset.mem_insert_of_mem inside
    · intro index member
      rcases Finset.mem_insert.mp member with rfl | member
      · exact Finset.mem_insert_self _ _
      · exact Finset.mem_insert_of_mem (ledger.droppedSeen index member)
    · intro index seg found member
      obtain ⟨seen, kept⟩ := ledger.apart index seg found
      rcases Finset.mem_insert.mp member with rfl | member
      · exact fresh seen
      · exact kept member
  · intro index toolId name tool _ _
    obtain ⟨seg, -, found, -⟩ := tool.stored
    have apart : index ≠ dropped := by
      rintro rfl
      exact fresh (ledger.apart index seg found).1
    refine tool.frame ?_ rfl (interrupted_of_other (noDelta index)) ?_
    · rw [List.append_nil]
    · intro opened calm
      rw [overtaken_of_other]
      · rcases Finset.mem_insert.mp opened with same | opened
        · exact absurd same apart
        · exact tool.live opened calm
      · rintro ⟨next, -, -, keeps⟩
        rw [drops] at keeps
        cases keeps

theorem opened_step {opened : Int} (blockType : String)
    (keeps : event.StartsKept thinkingEnabled opened) :
    KeptBy thinkingEnabled events event up up' state
      (allocateNewSegment (syntheticCloseOtherOpenBlocks state opened).2 opened blockType
        (some event.block)).2
      owner (Function.update owner state.nextIndex opened) out
      ((syntheticCloseOtherOpenBlocks state opened).1 ++ [event.reindex state.nextIndex]) := by
  obtain ⟨fresh, rfl⟩ := start_of_read stepped keeps.1
  have noDelta : ∀ index, event.mark? ≠ some (.delta index) := fun _ => mark?_ne keeps.1 nofun
  constructor
  · refine ledger.open stepped (Finset.subset_insert _ _)
      ⟨blockType, state.nextIndex, true, some event.block⟩ rfl
      (fun other member => Finset.mem_insert.mp member) (Finset.mem_insert_self _ _)
      (fun member => fresh (ledger.droppedSeen opened member)) (starts_opened keeps.1) ?_
      (fun down _ => inputPieces_opened keeps.1 down)
      (fun other _ _ => inputPieces_of_mark noDelta other) ?_ ?_ ?_ rfl rfl
    · rw [inputPieces_opened keeps.1, inputPieces_of_mark noDelta]
    · rw [ledger.unsegmented opened fresh, ledger.unheard opened fresh, List.flatMap_nil]
    · intro other seg' found
      rw [get?_opened] at found
      split at found
      · exact Or.inl ⟨‹_›, (Option.some.inj found).symm⟩
      · obtain ⟨seg, old, rfl⟩ := Option.map_eq_some_iff.mp found
        refine Or.inr ⟨‹_›, seg, old, ?_⟩
        split <;> rfl
    · intro other isKnown
      rw [get?_opened]
      split
      · rfl
      · rw [Option.isSome_map]
        exact isKnown.resolve_left ‹_›
  · intro index toolId name tool _ _
    obtain ⟨seg, -, found, -⟩ := tool.stored
    have apart : index ≠ opened := by
      rintro rfl
      exact fresh (ledger.apart index seg found).1
    refine tool.frame ?_ ?_ (interrupted_of_other (noDelta index)) ?_
    · rw [segments_append, ledger.segments_update, segments_new (starts_opened keeps.1),
        if_neg apart, List.append_nil]
    · rw [get?_opened, if_neg apart, Option.map_map]
      congr 1
      funext seg
      simp only [Function.comp_apply]
      split <;> rfl
    · intro _ _ seg' found'
      have overtaken : Overtaken thinkingEnabled index (events ++ [event]) :=
        overtaken_concat.mpr (Or.inr ⟨tool.started, opened, apart.symm, keeps⟩)
      rw [get?_opened, if_neg apart, found, Option.map_some, Option.some.injEq] at found'
      refine iff_of_false ?_ (not_not_intro overtaken)
      rw [← found']
      split
      · exact Bool.false_ne_true
      · rename_i both
        exact fun isOpen => both ⟨apart, isOpen⟩

/-- A tool call that starts. -/
theorem toolKept_of_start (ran : Nest.empty.run (marks events) = some up) (blockType : String)
    (tool : event.StartsTool index toolId name) :
    ToolKept thinkingEnabled (events ++ [event]) up'
      (allocateNewSegment (syntheticCloseOtherOpenBlocks state index).2 index blockType
        (some event.block)).2
      (Function.update owner state.nextIndex index)
      (out ++ ((syntheticCloseOtherOpenBlocks state index).1 ++
        [event.reindex state.nextIndex])) index toolId name := by
  obtain ⟨read, keys⟩ := tool
  obtain ⟨fresh, rfl⟩ := start_of_read stepped read
  have onlySegment : segments (Function.update owner state.nextIndex index) index
      (out ++ ((syntheticCloseOtherOpenBlocks state index).1 ++ [event.reindex state.nextIndex])) =
        [state.nextIndex] := by
    rw [segments_append, ledger.segments_update, ledger.unsegmented index fresh,
      segments_new (starts_opened read), if_pos rfl, List.nil_append]
  -- nothing before this event has started the block
  have unstarted : ∀ own ∈ events, own.mark? ≠ some (.start index) := by
    intro own member started
    exact fresh (Nest.mem_seen_of_run ran (List.mem_filterMap.mpr ⟨own, member, started⟩))
  have calm : ¬Interrupted thinkingEnabled index (events ++ [event]) := by
    rw [interrupted_concat]
    rintro (⟨own, other, later, sublist, started, -⟩ | ⟨-, extended⟩)
    · exact unstarted own (sublist.subset List.mem_cons_self) started
    · rw [read] at extended
      cases extended
  have behind : ¬Overtaken thinkingEnabled index (events ++ [event]) := by
    rw [overtaken_concat]
    rintro (⟨own, other, sublist, started, -⟩ | ⟨⟨own, member, started⟩, -⟩)
    · exact unstarted own (sublist.subset List.mem_cons_self) started
    · exact unstarted own member started
  have lookup := get?_opened state index blockType (some event.block) index
  rw [if_pos rfl] at lookup
  refine ⟨⟨event, List.mem_append_right _ (List.mem_singleton_self _), read⟩,
    ⟨_, event.block, lookup, rfl, keys⟩, ?_, ?_, ?_⟩
  · intro down member
    rw [onlySegment, List.mem_singleton] at member
    refine ⟨event.reindex state.nextIndex, ?_, ?_, ?_⟩
    · exact List.mem_append_right _ (List.mem_append_right _ (List.mem_singleton_self _))
    · rw [member]
      exact mark?_reindex_start read _
    · have sameBlock : (event.reindex state.nextIndex).block = event.block := by
        rw [SseEvent.block, SseEvent.contentBlock, SseEvent.reindex,
          SseEvent.fields_formatSseEvent, Json.getKey_setKey_ne _ (by decide), SseEvent.block,
          SseEvent.contentBlock]
      rw [sameBlock]
      exact keys
  · rw [onlySegment]
    exact iff_of_true rfl calm
  · intro _ _ seg found
    rw [lookup, Option.some.injEq] at found
    rw [← found]
    exact iff_of_true rfl behind

theorem forwarded_step {extended : Int} {seg : UpstreamBlockState}
    (read : event.mark? = some (.delta extended))
    (found : state.byUpstream.get? extended = some seg) (isOpen : seg.isOpen = true) :
    KeptBy thinkingEnabled events event up up' state state owner owner out
      [event.reindex seg.downIndex] := by
  refine ⟨ledger.forward stepped read found, fun index toolId name tool _ _ => ?_⟩
  obtain ⟨opened, rfl⟩ := opened_of_read stepped read
  have noStart : ∀ index, event.mark? ≠ some (.start index) := fun _ => mark?_ne read nofun
  have unstarted : starts (marks [event.reindex seg.downIndex]) = [] :=
    starts_of_mark (mark?_reindex_delta read _) fun _ other => by cases other
  refine tool.frame (segments_unstarted unstarted index) rfl ?_ ?_
  · rw [interrupted_concat]
    refine or_iff_left_of_imp fun ⟨overtaken, same⟩ => ?_
    rw [read, Option.some.injEq, Mark.delta.injEq] at same
    subst same
    -- the segment is open, so the call has not been overtaken unless it was interrupted before
    by_contra calm
    exact (tool.live opened calm seg found).mp isOpen overtaken
  · intro opened calm
    rw [overtaken_of_other (not_overtakes noStart index)]
    exact tool.live opened calm

theorem reopened_step {extended : Int} {seg : UpstreamBlockState}
    {kind : String} (read : event.mark? = some (.delta extended))
    (found : state.byUpstream.get? extended = some seg) (closed : seg.isOpen = false)
    (mapped : deltaTypeToBlockKind event.deltaType = some kind) :
    KeptBy thinkingEnabled events event up up' state
      (allocateNewSegment { state with
        pendingSuppressedStops := state.pendingSuppressedStops.erase extended } extended kind
        seg.lastStartBlock).2
      owner (Function.update owner state.nextIndex extended) out
      [contentBlockStart state.nextIndex
        (syntheticStartContentBlock kind extended (storedTool seg.lastStartBlock)),
        event.reindex state.nextIndex] := by
  obtain ⟨opened, rfl⟩ := opened_of_read stepped read
  have noStart : ∀ index, event.mark? ≠ some (.start index) := fun _ => mark?_ne read nofun
  have readNew := mark?_reindex_delta read state.nextIndex
  set block := syntheticStartContentBlock kind extended (storedTool seg.lastStartBlock) with hBlock
  have started : starts (marks [contentBlockStart state.nextIndex block,
      event.reindex state.nextIndex]) = [state.nextIndex] := by
    rw [marks_cons_some (mark?_contentBlockStart _ _), marks_cons_some readNew]
    rfl
  have pieces : ∀ down, inputPieces down [contentBlockStart state.nextIndex block,
      event.reindex state.nextIndex] = inputPieces down [event.reindex state.nextIndex] := by
    intro down
    rw [← List.singleton_append, inputPieces_append, inputPieces_of_mark, List.nil_append]
    intro index extended
    rw [mark?_contentBlockStart] at extended
    cases extended
  have lookup : ∀ other, (allocateNewSegment { state with
      pendingSuppressedStops := state.pendingSuppressedStops.erase extended } extended kind
      seg.lastStartBlock).2.byUpstream.get? other =
        if other = extended then some ⟨kind, state.nextIndex, true, seg.lastStartBlock⟩
        else state.byUpstream.get? other := fun other => Dict.get?_set _ _ _ _
  obtain ⟨seen, kept⟩ := ledger.apart extended seg found
  constructor
  · refine ledger.open stepped (Finset.Subset.refl _)
      ⟨kind, state.nextIndex, true, seg.lastStartBlock⟩ rfl (fun other member => Or.inr member) seen
      kept started ?_ ?_ (fun other apart _ => inputPieces_of_ne read apart)
      (ledger.payload extended seg found) ?_ ?_ rfl rfl
    · rw [pieces, inputPieces_reindex read]
    · intro down different
      rw [pieces, inputPieces_of_ne readNew different]
    · intro other seg' found'
      rw [lookup] at found'
      split at found'
      · exact Or.inl ⟨‹_›, (Option.some.inj found').symm⟩
      · exact Or.inr ⟨‹_›, seg', found', rfl⟩
    · intro other isKnown
      rw [lookup]
      split
      · rfl
      · exact isKnown.resolve_left ‹_›
  · intro index toolId name tool inputs known
    by_cases same : index = extended
    · subst same
      -- the call was overtaken, and now it is interrupted: one more segment, under its identity
      obtain ⟨seg', stored, found', storedEq, keys⟩ := tool.stored
      obtain rfl := Option.some.inj (found'.symm.trans found)
      rw [inputs read] at mapped
      obtain rfl := Option.some.inj mapped
      have interrupted : Interrupted thinkingEnabled index (events ++ [event]) := by
        rw [interrupted_concat]
        by_contra none
        rw [not_or] at none
        have overtaken := not_not.mp fun behind =>
          Bool.eq_false_iff.mp closed ((tool.live opened none.1 seg' found).mpr behind)
        exact none.2 ⟨overtaken, read⟩
      have newSegments : segments (Function.update owner state.nextIndex index) index
          (out ++ [contentBlockStart state.nextIndex block, event.reindex state.nextIndex]) =
            segments owner index out ++ [state.nextIndex] := by
        rw [segments_append, ledger.segments_update, segments_new started, if_pos rfl]
      have nonempty : (segments owner index out).length ≠ 0 := by
        intro empty
        have last := ledger.last index seg' found
        rw [List.length_eq_zero_iff.mp empty] at last
        cases last
      refine ⟨?_, ⟨_, stored, (lookup index).trans (if_pos rfl), storedEq, keys⟩, ?_, ?_, ?_⟩
      · obtain ⟨own, member, began⟩ := tool.started
        exact ⟨own, List.mem_append_left _ member, began⟩
      · intro down member
        rw [newSegments, List.mem_append, List.mem_singleton] at member
        rcases member with member | rfl
        · obtain ⟨own, inside, began⟩ := tool.identity down member
          exact ⟨own, List.mem_append_left _ inside, began⟩
        · refine ⟨_, List.mem_append_right _ List.mem_cons_self, ?_⟩
          rw [hBlock, storedEq]
          exact syntheticStart_tool index keys.1 keys.2.1 keys.2.2 known _
      · rw [newSegments, List.length_append, List.length_singleton]
        refine iff_of_false (fun one => nonempty (by omega)) (not_not_intro interrupted)
      · exact fun _ calm => absurd interrupted calm
    · refine tool.frame ?_ ?_ ?_ ?_
      · rw [segments_append, ledger.segments_update, segments_new started, if_neg same,
          List.append_nil]
      · rw [lookup, if_neg same]
      · apply interrupted_of_other
        rw [read]
        exact fun other => same (Mark.delta.inj (Option.some.inj other)).symm
      · intro opened calm
        rw [overtaken_of_other (not_overtakes noStart index), lookup, if_neg same]
        exact tool.live opened calm

theorem stopped_step {stopped : Int} {seg : UpstreamBlockState}
    (read : event.mark? = some (.stop stopped))
    (found : state.byUpstream.get? stopped = some seg) :
    KeptBy thinkingEnabled events event up up' state
      { state with byUpstream := state.byUpstream.set stopped { seg with isOpen := false } }
      owner owner out [event.reindex seg.downIndex] := by
  have noStart : ∀ index, event.mark? ≠ some (.start index) := fun _ => mark?_ne read nofun
  have noDelta : ∀ index, event.mark? ≠ some (.delta index) := fun _ => mark?_ne read nofun
  obtain ⟨sameSeen, shrinks⟩ := seen_of_noStart stepped noStart
  have readNew := mark?_reindex_stop read seg.downIndex
  have unstarted : starts (marks [event.reindex seg.downIndex]) = [] :=
    starts_of_mark readNew fun _ other => by cases other
  have lookup : ∀ other, (state.byUpstream.set stopped { seg with isOpen := false }).get? other =
      if other = stopped then some { seg with isOpen := false } else state.byUpstream.get? other :=
    fun other => Dict.get?_set _ _ _ _
  constructor
  · refine ledger.still stepped (subset_of_eq sameSeen.symm) unstarted ?_
      (fun index _ _ => inputPieces_of_mark noDelta index) ?_ rfl ?_ ?_ ?_
    · refine inputPieces_of_mark fun index extended => ?_
      rw [readNew] at extended
      cases extended
    · intro index seg' found'
      rw [lookup] at found'
      split at found'
      · refine ⟨seg, ?_, ?_⟩
        · rw [‹index = stopped›, found]
        · rw [← Option.some.inj found']
      · exact ⟨seg', found', rfl⟩
    · intro index member
      rw [sameSeen] at member
      refine (ledger.known index member).imp_right fun isKnown => ?_
      rw [lookup]
      split
      · rfl
      · exact isKnown
    · intro index member
      rw [sameSeen]
      exact ledger.droppedSeen index member
    · exact fun index seg found => (ledger.apart index seg found).2
  · intro index toolId name tool _ _
    refine tool.frame (segments_unstarted unstarted index) ?_
      (interrupted_of_other (noDelta index)) ?_
    · rw [lookup]
      split
      · rw [‹index = stopped›, found]
        rfl
      · rfl
    · intro opened calm
      rw [overtaken_of_other (not_overtakes noStart index), lookup]
      by_cases same : index = stopped
      · -- the stop closes the block upstream
        subst same
        rw [run_marks_singleton _ read] at stepped
        obtain ⟨-, last⟩ := Option.ite_none_right_eq_some.mp stepped
        rw [← Option.some.inj last] at opened
        exact absurd opened (Finset.notMem_erase _ _)
      · rw [if_neg same]
        exact tool.live (shrinks opened) calm

/-- **One call**, whatever it does, keeps the ledger and the tool calls, and a tool call that starts
is kept from then on. -/
theorem handled_step (ran : Nest.empty.run (marks events) = some up)
    (handled : Handled thinkingEnabled event state state' new) :
    ∃ owner', KeptBy thinkingEnabled events event up up' state state' owner owner' out new ∧
      ∀ index toolId name, event.StartsTool index toolId name →
        ToolKept thinkingEnabled (events ++ [event]) up' state' owner' (out ++ new) index toolId
          name := by
  cases handled with
  | quiet unstarted silent noInput noStart sameSegments sameNext sameDropped =>
    exact ⟨owner, quiet_step ledger stepped unstarted silent noInput noStart sameSegments sameNext
      sameDropped, fun index _ _ tool => absurd tool.1 (noStart index)⟩
  | dropped read drops =>
    refine ⟨owner, dropped_step ledger stepped read drops, fun index toolId name tool => ?_⟩
    have never : shouldDropBlockType (.str "tool_use") thinkingEnabled = false := by
      cases thinkingEnabled <;> decide
    have isTool : event.blockType = .str "tool_use" := tool.2.1
    rw [isTool, never] at drops
    cases drops
  | opened blockType keeps =>
    refine ⟨_, opened_step ledger stepped blockType keeps, fun index toolId name tool => ?_⟩
    obtain rfl := Mark.start.inj (Option.some.inj (keeps.1.symm.trans tool.1))
    exact toolKept_of_start ledger stepped ran blockType tool
  | forwarded read found isOpen =>
    exact ⟨owner, forwarded_step ledger stepped read found isOpen,
      fun index toolId name tool => absurd (read.symm.trans tool.1) (by simp)⟩
  | reopened read found closed mapped =>
    exact ⟨_, reopened_step ledger stepped read found closed mapped,
      fun index toolId name tool => absurd (read.symm.trans tool.1) (by simp)⟩
  | stopped read found isOpen =>
    exact ⟨owner, stopped_step ledger stepped read found,
      fun index toolId name tool => absurd (read.symm.trans tool.1) (by simp)⟩

end Steps

end ToolStep

/-! ### Whole streams -/

/-- **The policy along a stream**, by induction on the events read. -/
theorem tool_run (thinkingEnabled : Bool) {events : List SseEvent} {up : Nest Int}
    (readable : Readable events) (ran : Nest.empty.run (marks events) = some up)
    (typed : ∀ event ∈ events, event.event = "content_block_start" →
      ∃ block blockType, event.contentBlock = .obj block ∧ getKey block "type" = .str blockType)
    (identified : ∀ event ∈ events, ∀ index toolId name, event.StartsTool index toolId name →
      toolId ≠ "")
    (inputs : ∀ start ∈ events, ∀ index toolId name, start.StartsTool index toolId name →
      ∀ event ∈ events, event.mark? = some (.delta index) →
        event.deltaType = .str "input_json_delta") :
    ∃ out state owner, transformNativeSseStream thinkingEnabled {} events = .ok (out, state) ∧
      Ledger events up state owner out ∧
      ∀ start ∈ events, ∀ index toolId name, start.StartsTool index toolId name →
        ToolKept thinkingEnabled events up state owner out index toolId name := by
  induction events using List.reverseRecOn generalizing up with
  | nil =>
    obtain rfl := Option.some.inj ran
    exact ⟨[], {}, id, rfl, ledger_init id, fun start member => absurd member List.not_mem_nil⟩
  | append_singleton events event ih =>
    rw [marks_append, Nest.run_append, Option.bind_eq_some_iff] at ran
    obtain ⟨middle, ran, stepped⟩ := ran
    rw [readable_append] at readable
    have within : ∀ other ∈ events, other ∈ events ++ [event] :=
      fun other member => List.mem_append_left _ member
    have atEnd : event ∈ events ++ [event] := List.mem_append_right _ (List.mem_singleton_self _)
    obtain ⟨out, state, owner, answered, ledger, kept⟩ := ih readable.1 ran
      (fun other member => typed other (within other member))
      (fun other member => identified other (within other member))
      (fun start member index toolId name tool other inside =>
        inputs start (within start member) index toolId name tool other (within other inside))
    have step : ∃ answer state', transformNativeSseBlockEvent event state thinkingEnabled =
        .ok (answer, state') ∧ Handled thinkingEnabled event state state' (answer.getD []) := by
      rcases read : event.mark? with _ | mark
      · have other : event.isBlockEvent = false := by
          by_contra isBlock
          rw [Bool.not_eq_false] at isBlock
          have readable := readable.2 event List.mem_cons_self isBlock
          rw [read] at readable
          cases readable
        obtain ⟨answer, handled⟩ := @handled_other thinkingEnabled event state other
        exact ⟨_, _, answer, handled⟩
      · cases mark with
        | start index =>
          obtain ⟨_, _, shape⟩ := event_of_mark? read
          rcases shape with ⟨name, -⟩ | ⟨-, other⟩ | ⟨-, other⟩
          · exact handled_start read (typed event atEnd name)
          · cases other
          · cases other
        | delta index =>
          exact handled_delta read
            (ledger.known index (middle.within (opened_of_read stepped read).1))
        | stop index =>
          refine handled_stop read (ledger.known index (middle.within ?_))
          rw [run_marks_singleton _ read] at stepped
          exact (Option.ite_none_right_eq_some.mp stepped).1
    obtain ⟨answer, state', answer_eq, handled⟩ := step
    obtain ⟨owner', keeps, begins⟩ := handled_step ledger stepped ran handled
    refine ⟨_, state', owner', transformNativeSseStream_concat answered answer_eq, keeps.ledger, ?_⟩
    intro start member index toolId name tool
    rcases List.mem_append.mp member with before | last
    · exact keeps.tools index toolId name (kept start before index toolId name tool)
        (inputs start member index toolId name tool event atEnd)
        (identified start member index toolId name tool)
    · obtain rfl := List.mem_singleton.mp last
      exact begins index toolId name tool

/-- Every upstream tool call has its downstream blocks: each of them starts a tool call with its id and
name, their argument texts give, one behind the other, its own argument text, and there is exactly one
of them unless another block starts between the call's start and one of its deltas. -/
structure ToolsSurvive (thinkingEnabled : Bool) (events out : List SseEvent) : Prop where
  distinct : (starts (marks out)).Nodup
  calls : ∃ owner : Int → Int, ∀ start ∈ events, ∀ index toolId name,
    start.StartsTool index toolId name →
      segments owner index out ≠ [] ∧
      (∀ down ∈ segments owner index out, ∃ event ∈ out, event.StartsTool down toolId name) ∧
      Py.join "" ((segments owner index out).map (inputJson out)) = inputJson events index ∧
      ((segments owner index out).length = 1 ↔ ¬Interrupted thinkingEnabled index events)

/-- **Tool calls survive the policy**, for every interleaving of upstream blocks, and with thinking
enabled or not. -/
theorem tool_calls_survive (thinkingEnabled : Bool) (events : List SseEvent)
    (blocks : ToolBlocks events) :
    ∃ out state, transformNativeSseStream thinkingEnabled {} events = .ok (out, state) ∧
      ToolsSurvive thinkingEnabled events out := by
  obtain ⟨⟨readable, up, ran, -⟩, typed, identified, inputs⟩ := blocks
  have named : ∀ event ∈ events, ∀ index toolId name, event.StartsTool index toolId name →
      toolId ≠ "" := by
    intro event member index toolId name tool
    obtain ⟨other, _, known, -, -, sameId, -⟩ := identified event member index tool.1 tool.2.1
    rw [tool.2.2.1, Json.str.injEq] at sameId
    exact sameId ▸ known
  obtain ⟨out, state, owner, answered, ledger, kept⟩ :=
    tool_run thinkingEnabled readable ran typed named inputs
  refine ⟨out, state, answered, ledger.distinct, owner, fun start member index toolId name tool => ?_⟩
  have tool := kept start member index toolId name tool
  obtain ⟨seg, _, found, -⟩ := tool.stored
  refine ⟨List.ne_nil_of_mem (ledger.mem_segments found), tool.identity, ?_, tool.count⟩
  rw [inputJson, ← ledger.payload index seg found, Py.join_flatMap]
  rfl

/-- **So they do in the texts of the frames**, of which the policy decodes those of the blocks. -/
theorem tool_frames_survive {runtime : Runtime} (thinkingEnabled : Bool) {frames : List NativeFrame}
    (fits : ∀ frame ∈ frames, frame.Fits runtime)
    (decoded : ∀ frame ∈ frames, frame.event.isBlockEvent = true → frame.decoded = true)
    (blocks : ToolBlocks (frames.map NativeFrame.event)) :
    ∃ out, Answered runtime thinkingEnabled frames out ∧
      ToolsSurvive thinkingEnabled (frames.map NativeFrame.event) out := by
  obtain ⟨out, state, ran, survive⟩ := tool_calls_survive thinkingEnabled _ blocks
  exact ⟨out, answered_of_stream fits decoded ran, survive⟩

/-- A tool call whose arguments go on behind the start of a text block. -/
def interruptedRead : List SseEvent :=
  [contentBlockStart 0 [("type", .str "tool_use"), ("id", .str "toolu_1"), ("name", .str "Read"),
      ("input", .obj [])],
    contentBlockDelta 0 [("type", .str "input_json_delta"), ("partial_json", .str "\x7b\"path")],
    contentBlockStart 1 [("type", .str "text"), ("text", .str "")],
    contentBlockDelta 0 [("type", .str "input_json_delta"), ("partial_json", .str "\":1\x7d")],
    contentBlockStop 1, contentBlockStop 0]

theorem interruptedRead_blocks : ToolBlocks interruptedRead where
  nested := by decide
  typed event member name := by
    simp only [interruptedRead, List.mem_cons, List.not_mem_nil, or_false] at member
    rcases member with rfl | rfl | rfl | rfl | rfl | rfl
    · exact ⟨_, _, rfl, rfl⟩
    · exact absurd name (by decide)
    · exact ⟨_, _, rfl, rfl⟩
    all_goals exact absurd name (by decide)
  identified event member index read isTool := by
    simp only [interruptedRead, List.mem_cons, List.not_mem_nil, or_false] at member
    rcases member with rfl | rfl | rfl | rfl | rfl | rfl
    · exact ⟨"toolu_1", "Read", by decide, read, isTool, rfl, rfl⟩
    all_goals exact absurd isTool (by decide)
  inputs start member index toolId name tool event inside read := by
    have first : index = 0 := by
      simp only [interruptedRead, List.mem_cons, List.not_mem_nil, or_false] at member
      rcases member with rfl | rfl | rfl | rfl | rfl | rfl
      · exact (Mark.start.inj (Option.some.inj tool.1)).symm
      all_goals exact absurd tool.2.1 (by decide)
    subst first
    simp only [interruptedRead, List.mem_cons, List.not_mem_nil, or_false] at inside
    rcases inside with rfl | rfl | rfl | rfl | rfl | rfl
    · cases read
    · rfl
    · cases read
    · rfl
    all_goals cases read

/-- What the policy answers: the call is closed and goes on in a second block. -/
def interruptedReadAnswer : List SseEvent :=
  [contentBlockStart 0 [("type", .str "tool_use"), ("id", .str "toolu_1"), ("name", .str "Read"),
      ("input", .obj [])],
    contentBlockDelta 0 [("type", .str "input_json_delta"), ("partial_json", .str "\x7b\"path")],
    contentBlockStop 0, contentBlockStart 1 [("type", .str "text"), ("text", .str "")],
    contentBlockStart 2 [("type", .str "tool_use"), ("id", .str "toolu_1"), ("name", .str "Read"),
      ("input", .obj [])],
    contentBlockDelta 2 [("type", .str "input_json_delta"), ("partial_json", .str "\":1\x7d")],
    contentBlockStop 1, contentBlockStop 2]

/-- Its frames, as a server writes them. -/
def interruptedReadSamples : List NativeSample := interruptedRead.map fun event => ⟨event, none⟩

/-- The policy decodes them all. -/
theorem interruptedRead_decoded :
    (∀ frame ∈ interruptedReadSamples.map NativeSample.frame,
      frame.Fits (NativeSample.runtime interruptedReadSamples)) ∧
    ∀ frame ∈ interruptedReadSamples.map NativeSample.frame,
      frame.event.isBlockEvent = true → frame.decoded = true :=
  ⟨NativeSample.fits (by decide +kernel), by decide +kernel⟩

/-- No downstream block with the call's id and name has its whole argument text. -/
theorem interruptedRead_is_split :
    ToolBlocks interruptedRead ∧
    Answered (NativeSample.runtime interruptedReadSamples) true
      (interruptedReadSamples.map NativeSample.frame) interruptedReadAnswer ∧
    ∀ event ∈ interruptedReadAnswer, ∀ down, event.StartsTool down "toolu_1" "Read" →
      inputJson interruptedReadAnswer down ≠ inputJson interruptedRead 0 := by
  have events : (interruptedReadSamples.map NativeSample.frame).map NativeFrame.event =
      interruptedRead := rfl
  have ran : ∃ state, transformNativeSseStream true {} interruptedRead =
      .ok (interruptedReadAnswer, state) := ⟨_, rfl⟩
  obtain ⟨state, ran⟩ := ran
  rw [← events] at ran
  refine ⟨interruptedRead_blocks, answered_of_stream interruptedRead_decoded.1
    interruptedRead_decoded.2 ran, ?_⟩
  intro event member down tool
  simp only [interruptedReadAnswer, List.mem_cons, List.not_mem_nil, or_false] at member
  rcases member with rfl | rfl | rfl | rfl | rfl | rfl | rfl | rfl
  · obtain rfl := Mark.start.inj (Option.some.inj tool.1)
    decide
  all_goals first
    | exact absurd tool.2.1 (by decide)
    | obtain rfl := Mark.start.inj (Option.some.inj tool.1)
      decide

theorem interruptedRead_survives : ∃ out,
    Answered (NativeSample.runtime interruptedReadSamples) true
      (interruptedReadSamples.map NativeSample.frame) out ∧
    ToolsSurvive true interruptedRead out :=
  tool_frames_survive true interruptedRead_decoded.1 interruptedRead_decoded.2 interruptedRead_blocks

end ClaudeProxy
