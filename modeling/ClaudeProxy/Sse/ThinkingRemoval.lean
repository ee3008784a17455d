/-
**Thinking disabled: removing the thinking blocks.**

`removeThinking` is the purpose of the policy on a stream whose blocks come one at a time: drop the
`thinking` and `redacted_thinking` blocks and number the rest `0, 1, 2, …`, every payload otherwise
unchanged. The code reaches it on some streams only. A delta of a type it does not map to a block
kind is returned with its upstream index, a type that merely contains `thinking` is dropped, and a
frame that is not decoded is passed on.

* `RenumbersCleanly` — read off the frames: none of these shows.
* `SequentialBlocks` — the streams; `Begins`, `SequentialFrom.cons` — one event of one.
* `Agrees` — the policy's state, as long as the frames are clean.
* `Departs` — how an unclean frame shows; **`removal_step`** — every frame is clean and answered as the
  reference has it, or departs.
-/

import ClaudeProxy.Sse.PolicyAnswers
import Mathlib.Data.Finset.Card

namespace ClaudeProxy

open Json (getKey)

/-- The two block types of a thinking block. -/
def isThinkingType (blockType : Json) : Bool :=
  blockType = .str "thinking" || blockType = .str "redacted_thinking"

/-! ### The reference -/

/-- Where the reference is in a stream: the next number, and whether the current block is kept (its
number is then the last one given out). -/
structure Numbering where
  next : Int
  kept : Bool

/-- After an event. -/
def Numbering.step (numbering : Numbering) (event : SseEvent) : Numbering :=
  match event.mark? with
  | some (.start _) =>
    if isThinkingType event.blockType then ⟨numbering.next, false⟩
    else ⟨numbering.next + 1, true⟩
  | _ => numbering

/-- What the reference makes of one event. -/
def Numbering.renumber (numbering : Numbering) (event : SseEvent) : List SseEvent :=
  match event.mark? with
  | some (.start _) =>
    if isThinkingType event.blockType then [] else [event.reindex numbering.next]
  | some _ => if numbering.kept then [event.reindex (numbering.next - 1)] else []
  | none => [event]

/-- **The reference**: the stream without its thinking blocks, the other blocks renumbered. -/
def removeThinking : Numbering → List SseEvent → List SseEvent
  | _, [] => []
  | numbering, event :: rest =>
    numbering.renumber event ++ removeThinking (numbering.step event) rest

/-! ### The frames on which the policy reaches it -/

/-- Where the reference is, and what the policy has seen: whether it decoded the start of the current
block, and all starts and stops so far. -/
structure Removal extends Numbering where
  sighted : Bool
  clear : Bool

namespace Removal

/-- After a frame. -/
def step (removal : Removal) (frame : NativeFrame) : Removal where
  toNumbering := removal.toNumbering.step frame.event
  sighted :=
    match frame.event.mark? with
    | some (.start _) => frame.decoded
    | _ => removal.sighted
  clear :=
    match frame.event.mark? with
    | some (.delta _) => removal.clear
    | some _ => removal.clear && frame.decoded
    | none => removal.clear

/-- The frames of which the policy makes what the reference makes of their events.

The frames of a thinking block are decoded, and no other block type is taken for one. A kept block's
frame that is not decoded already carries the block's new number; one that is decoded starts a block
only while the policy has seen all the blocks, stops one only if it has seen its start, and extends it
with a type that is not dropped and that is mapped, or carries the number, and that the policy takes
for the start of no block that it has not seen. -/
def Clean (removal : Removal) (frame : NativeFrame) : Prop :=
  match frame.event.mark? with
  | some (.start index) =>
    if isThinkingType frame.event.blockType then frame.decoded = true
    else if frame.decoded then
      shouldDropBlockType frame.event.blockType false = false ∧ removal.clear = true
    else index = removal.next
  | some (.delta index) =>
    if removal.kept = false then frame.decoded = true
    else if frame.decoded then
      shouldDropBlockType frame.event.deltaType false = false ∧
        (deltaTypeToBlockKind frame.event.deltaType = none → index = removal.next - 1) ∧
        (removal.sighted = true ∨
          ∀ kind ∈ deltaTypeToBlockKind frame.event.deltaType, kind = "thinking")
    else index = removal.next - 1
  | some (.stop index) =>
    if removal.kept = false then frame.decoded = true
    else if frame.decoded then removal.sighted = true
    else index = removal.next - 1
  | none => True

instance (removal : Removal) (frame : NativeFrame) : Decidable (removal.Clean frame) := by
  unfold Clean
  split <;> infer_instance

end Removal

/-- **The frames on which removal is a clean renumbering.** -/
def RenumbersCleanly : Removal → List NativeFrame → Prop
  | _, [] => True
  | removal, frame :: rest => removal.Clean frame ∧ RenumbersCleanly (removal.step frame) rest

instance decidableRenumbersCleanly :
    (removal : Removal) → (frames : List NativeFrame) → Decidable (RenumbersCleanly removal frames)
  | _, [] => isTrue trivial
  | removal, frame :: rest =>
    @instDecidableAnd _ _ _ (decidableRenumbersCleanly (removal.step frame) rest)

/-- The reference starts numbering at `0`. -/
def startRemoval : Removal := ⟨⟨0, false⟩, false, true⟩

/-! ### Blocks one at a time -/

/-- Upstream blocks one at a time: well nested with at most one block open, every content-block
event with an integer index, every start with a typed `content_block`, every delta with a `delta`
object. -/
structure SequentialBlocks (events : List SseEvent) : Prop where
  nested : WellNested events
  oneAtATime : ∀ first, first <+: events → ∀ nest,
    Nest.empty.run (marks first) = some nest → nest.opened.card ≤ 1
  indexed : ∀ event ∈ events, event.isBlockEvent = true →
    ∃ index, getKey event.fields "index" = .int index
  typed : ∀ event ∈ events, event.event = "content_block_start" →
    ∃ block blockType, event.contentBlock = .obj block ∧ getKey block "type" = .str blockType
  extended : ∀ event ∈ events, event.event = "content_block_delta" →
    ∃ delta, event.delta = .obj delta

/-- The rest of such a stream. -/
structure SequentialFrom (up : Nest Int) (events : List SseEvent) : Prop where
  accepted : (up.run (marks events)).isSome = true
  oneAtATime : ∀ first, first <+: events → ∀ nest,
    up.run (marks first) = some nest → nest.opened.card ≤ 1
  readable : Readable events
  indexed : ∀ event ∈ events, event.isBlockEvent = true →
    ∃ index, getKey event.fields "index" = .int index
  typed : ∀ event ∈ events, event.event = "content_block_start" →
    ∃ block blockType, event.contentBlock = .obj block ∧ getKey block "type" = .str blockType
  extended : ∀ event ∈ events, event.event = "content_block_delta" →
    ∃ delta, event.delta = .obj delta

theorem SequentialBlocks.sequentialFrom {events : List SseEvent} (sequential : SequentialBlocks events) :
    SequentialFrom Nest.empty events := by
  obtain ⟨⟨readable, last, ran, -⟩, single, indexed, typed, extended⟩ := sequential
  exact ⟨by rw [ran]; rfl, single, readable, indexed, typed, extended⟩

/-- One event of such a stream, with all that the policy looks at. -/
inductive Begins (up : Nest Int) (event : SseEvent) : Nest Int → Prop
  | other (unread : event.mark? = none) (noBlock : event.isBlockEvent = false) : Begins up event up
  | start {upstream : Int} {block : List (String × Json)} {blockType : String}
      (read : event.mark? = some (.start upstream)) (index : getKey event.fields "index" = .int upstream)
      (isBlock : event.contentBlock = .obj block) (typed : getKey block "type" = .str blockType)
      (fresh : upstream ∉ up.seen) (nothing : up.opened = ∅) : Begins up event (up.start upstream)
  | delta {upstream : Int} {delta : List (String × Json)}
      (read : event.mark? = some (.delta upstream)) (index : getKey event.fields "index" = .int upstream)
      (isDelta : event.delta = .obj delta) (alone : up.opened = {upstream}) : Begins up event up
  | stop {upstream : Int} (read : event.mark? = some (.stop upstream))
      (index : getKey event.fields "index" = .int upstream) (alone : up.opened = {upstream}) :
      Begins up event (up.stop upstream)

/-- **The first event, and the rest.** -/
theorem SequentialFrom.cons {up : Nest Int} {event : SseEvent} {rest : List SseEvent}
    (sequential : SequentialFrom up (event :: rest)) :
    ∃ up', Begins up event up' ∧ SequentialFrom up' rest := by
  obtain ⟨accepted, single, readable, indexed, typed, extended⟩ := sequential
  have isHead : event ∈ event :: rest := List.mem_cons_self
  have few : up.opened.card ≤ 1 := single [] List.nil_prefix up rfl
  -- the rest is sequential from the state behind the first event
  have behind : ∀ up', up.run (marks [event]) = some up' → SequentialFrom up' rest := by
    intro up' ran
    have onward : ∀ events, up.run (marks (event :: events)) = up'.run (marks events) := by
      intro events
      rw [show event :: events = [event] ++ events from rfl, marks_append, Nest.run_append_of ran]
    refine ⟨onward rest ▸ accepted, fun first before nest ran' => ?_,
      fun other member => readable other (List.mem_cons_of_mem _ member),
      fun other member => indexed other (List.mem_cons_of_mem _ member),
      fun other member => typed other (List.mem_cons_of_mem _ member),
      fun other member => extended other (List.mem_cons_of_mem _ member)⟩
    exact single (event :: first) (List.cons_prefix_cons.mpr ⟨rfl, before⟩) nest
      ((onward first).trans ran')
  cases read : event.mark? with
  | none =>
    have noBlock : event.isBlockEvent = false := by
      by_contra block
      have some := readable event isHead ((Bool.not_eq_false _).mp block)
      rw [read] at some
      cases some
    refine ⟨up, .other read noBlock, behind up ?_⟩
    rw [marks_cons_none read, marks_nil, Nest.run_nil]
  | some mark =>
    have one : marks [event] = [mark] := by rw [marks_cons_some read, marks_nil]
    obtain ⟨up', stepped⟩ : ∃ up', up.step mark = some up' := by
      rw [marks_cons_some read, Nest.run_cons] at accepted
      cases stepped : up.step mark with
      | none =>
        rw [stepped] at accepted
        cases accepted
      | some up' => exact ⟨up', rfl⟩
    have ran : up.run (marks [event]) = some up' := by
      rw [one, Nest.run_cons, stepped, Option.bind_some, Nest.run_nil]
    have few' : up'.opened.card ≤ 1 :=
      single [event] (List.cons_prefix_cons.mpr ⟨rfl, List.nil_prefix⟩) up' ran
    obtain ⟨upstream, found, shape⟩ := event_of_mark? read
    obtain ⟨payload, data, fields, key⟩ := data_of_index? found
    have isBlockEvent : event.isBlockEvent = true := by
      rcases shape with ⟨name, -⟩ | ⟨name, -⟩ | ⟨name, -⟩ <;> simp [SseEvent.isBlockEvent, name]
    have index : getKey event.fields "index" = .int upstream := by
      obtain ⟨number, isNumber⟩ := indexed event isHead isBlockEvent
      rw [fields] at isNumber ⊢
      rw [isNumber] at key
      rw [isNumber, Option.some.inj key]
    have alone : upstream ∈ up.opened → up.opened = {upstream} := fun member =>
      Finset.eq_singleton_iff_unique_mem.mpr
        ⟨member, fun other inside => Finset.card_le_one.mp few other inside upstream member⟩
    refine ⟨up', ?_, behind up' ran⟩
    rcases shape with ⟨name, rfl⟩ | ⟨name, rfl⟩ | ⟨name, rfl⟩
    · have fresh : upstream ∉ up.seen := by
        intro member
        rw [Nest.step, if_pos member] at stepped
        cases stepped
      rw [Nest.step_start fresh] at stepped
      obtain rfl := Option.some.inj stepped
      have nothing : up.opened = ∅ := by
        have absent : upstream ∉ up.opened := fun member => fresh (up.within member)
        rw [Nest.opened_start, Finset.card_insert_of_notMem absent] at few'
        exact Finset.card_eq_zero.mp (Nat.le_zero.mp (Nat.le_of_succ_le_succ few'))
      obtain ⟨block, blockType, isBlock, isType⟩ := typed event isHead name
      exact .start read index isBlock isType fresh nothing
    · have isOpen : upstream ∈ up.opened := by
        by_contra absent
        rw [Nest.step, if_neg absent] at stepped
        cases stepped
      rw [Nest.step_delta isOpen] at stepped
      obtain rfl := Option.some.inj stepped
      obtain ⟨delta, isDelta⟩ := extended event isHead name
      exact .delta read index isDelta (alone isOpen)
    · have isOpen : upstream ∈ up.opened := by
        by_contra absent
        rw [Nest.step, if_neg absent] at stepped
        cases stepped
      rw [Nest.step_stop isOpen] at stepped
      obtain rfl := Option.some.inj stepped
      exact .stop read index (alone isOpen)

/-! ### The policy while the frames are clean -/

/-- The policy knows the kept block that is open under its number; or it has not seen its start, which
then carried the number. -/
structure Shows (state : NativeSseBlockPolicyState) (removal : Removal) (upstream : Int) : Prop where
  shown : upstream ∉ state.droppedIndexes
  known : removal.sighted = true → ∃ seg, state.byUpstream.get? upstream = some seg ∧
    seg.isOpen = true ∧ seg.downIndex = removal.next - 1
  unknown : removal.sighted = false → state.byUpstream.get? upstream = none ∧
    upstream = removal.next - 1 ∧ removal.clear = false ∧ state.nextIndex ≤ removal.next - 1

/-- The policy's state, as long as the frames are clean. -/
structure Agrees (up : Nest Int) (state : NativeSseBlockPolicyState) (removal : Removal) : Prop where
  unsuppressed : state.pendingSuppressedStops = ∅
  droppedSeen : ∀ upstream ∈ state.droppedIndexes, upstream ∈ up.seen
  knownSeen : ∀ upstream seg, state.byUpstream.get? upstream = some seg → upstream ∈ up.seen
  apart : ∀ upstream ∈ state.droppedIndexes, state.byUpstream.get? upstream = none
  below : ∀ upstream seg, state.byUpstream.get? upstream = some seg → seg.downIndex < state.nextIndex
  behind : state.nextIndex ≤ removal.next
  keptOpen : removal.kept = true → ∀ upstream ∈ up.opened, Shows state removal upstream
  droppedOpen : removal.kept = false → ∀ upstream ∈ up.opened, upstream ∈ state.droppedIndexes
  clear : removal.clear = true → state.nextIndex = removal.next ∧
    ∀ other seg, state.byUpstream.get? other = some seg → seg.isOpen = true → other ∈ up.opened
  /-- Where it has missed a frame of a kept block, its numbers lag or it takes a block for open. -/
  blind : removal.clear = false → state.nextIndex < removal.next ∨
    ∃ other seg, state.byUpstream.get? other = some seg ∧ seg.isOpen = true ∧ other ∉ up.opened

theorem agrees_init : Agrees Nest.empty {} startRemoval where
  unsuppressed := rfl
  droppedSeen _ member := absurd member (Finset.notMem_empty _)
  knownSeen _ _ found := by cases found
  apart _ _ := rfl
  below _ _ found := by cases found
  behind := le_rfl
  keptOpen kept := by cases kept
  droppedOpen _ _ member := absurd member (Finset.notMem_empty _)
  clear _ := ⟨rfl, fun _ _ found => by cases found⟩
  blind unclear := by cases unclear

/-- A block of this number is over, the policy knows of no open one with it, and has dropped the one
that is open upstream. -/
structure BlockOver (up : Nest Int) (state : NativeSseBlockPolicyState) (number : Int) : Prop where
  seen : number ∈ up.seen
  gone : number ∉ up.opened
  hidden : ∀ upstream ∈ up.opened, upstream ∈ state.droppedIndexes
  others : ∀ upstream seg, state.byUpstream.get? upstream = some seg → seg.isOpen = true →
    seg.downIndex ≠ number

/-- **How an unclean frame shows**: the first event that is sent is another one, or there is one too
many, or one is missing. -/
inductive Departs (up' : Nest Int) (state' : NativeSseBlockPolicyState) (removal : Removal)
    (frame : NativeFrame) : List SseEvent → Prop
  | heads {first other : SseEvent} {rest : List SseEvent} (different : first ≠ other)
      (reference : removal.renumber frame.event = [other]) :
      Departs up' state' removal frame (first :: rest)
  | extra (nothing : removal.renumber frame.event = []) (dropped : (removal.step frame).kept = false)
      (block : frame.event.mark?.isSome = true)
      (thinking : ∀ upstream, frame.event.mark? = some (.start upstream) →
        isThinkingType frame.event.blockType = true) : Departs up' state' removal frame [frame.event]
  | lostStart {upstream : Int} (read : frame.event.mark? = some (.start upstream))
      (drops : shouldDropBlockType frame.event.blockType false = true)
      (keeps : isThinkingType frame.event.blockType = false) : Departs up' state' removal frame []
  | lostDelta {upstream : Int} (read : frame.event.mark? = some (.delta upstream))
      (kept : removal.kept = true) (drops : shouldDropBlockType frame.event.deltaType false = true)
      (alone : up'.opened = {upstream}) (agrees : Agrees up' state' removal) :
      Departs up' state' removal frame []
  | lostStop {upstream : Int} (read : frame.event.mark? = some (.stop upstream))
      (kept : removal.kept = true) (ended : BlockOver up' state' (removal.next - 1)) :
      Departs up' state' removal frame []

/-- What one frame comes to. -/
def FrameOutcome (up' : Nest Int) (state' : NativeSseBlockPolicyState) (removal : Removal)
    (frame : NativeFrame) (out : List SseEvent) : Prop :=
  removal.Clean frame ∧ out = removal.renumber frame.event ∧ Agrees up' state' (removal.step frame) ∨
    ¬ removal.Clean frame ∧ Departs up' state' removal frame out

namespace Removal

variable {removal : Removal} {frame : NativeFrame} {upstream : Int}

theorem clean_start (read : frame.event.mark? = some (.start upstream)) : removal.Clean frame ↔
    if isThinkingType frame.event.blockType then frame.decoded = true
    else if frame.decoded then
      shouldDropBlockType frame.event.blockType false = false ∧ removal.clear = true
    else upstream = removal.next := by
  unfold Removal.Clean
  rw [read]

theorem clean_delta (read : frame.event.mark? = some (.delta upstream)) : removal.Clean frame ↔
    if removal.kept = false then frame.decoded = true
    else if frame.decoded then
      shouldDropBlockType frame.event.deltaType false = false ∧
        (deltaTypeToBlockKind frame.event.deltaType = none → upstream = removal.next - 1) ∧
        (removal.sighted = true ∨
          ∀ kind ∈ deltaTypeToBlockKind frame.event.deltaType, kind = "thinking")
    else upstream = removal.next - 1 := by
  unfold Removal.Clean
  rw [read]

theorem clean_stop (read : frame.event.mark? = some (.stop upstream)) : removal.Clean frame ↔
    if removal.kept = false then frame.decoded = true
    else if frame.decoded then removal.sighted = true
    else upstream = removal.next - 1 := by
  unfold Removal.Clean
  rw [read]

theorem renumber_start (read : frame.event.mark? = some (.start upstream)) :
    removal.renumber frame.event =
      if isThinkingType frame.event.blockType then [] else [frame.event.reindex removal.next] := by
  unfold Numbering.renumber
  rw [read]

theorem renumber_delta (read : frame.event.mark? = some (.delta upstream)) :
    removal.renumber frame.event =
      if removal.kept then [frame.event.reindex (removal.next - 1)] else [] := by
  unfold Numbering.renumber
  rw [read]

theorem renumber_stop (read : frame.event.mark? = some (.stop upstream)) :
    removal.renumber frame.event =
      if removal.kept then [frame.event.reindex (removal.next - 1)] else [] := by
  unfold Numbering.renumber
  rw [read]

theorem step_start (read : frame.event.mark? = some (.start upstream)) : removal.step frame =
    ⟨if isThinkingType frame.event.blockType then ⟨removal.next, false⟩ else ⟨removal.next + 1, true⟩,
      frame.decoded, removal.clear && frame.decoded⟩ := by
  unfold Removal.step Numbering.step
  rw [read]

theorem step_delta (read : frame.event.mark? = some (.delta upstream)) :
    removal.step frame = removal := by
  unfold Removal.step Numbering.step
  rw [read]

theorem step_stop (read : frame.event.mark? = some (.stop upstream)) : removal.step frame =
    { removal with clear := removal.clear && frame.decoded } := by
  unfold Removal.step Numbering.step
  rw [read]

theorem step_other (unread : frame.event.mark? = none) : removal.step frame = removal := by
  unfold Removal.step Numbering.step
  rw [unread]

end Removal

section Undecoded

variable {up up' : Nest Int} {state : NativeSseBlockPolicyState} {removal : Removal}
  {frame : NativeFrame} {upstream : Int}

/-- A kept block starts that the policy does not see. -/
theorem agrees_unseenStart (agrees : Agrees up state removal)
    (read : frame.event.mark? = some (.start (removal.next))) (undecoded : frame.decoded = false)
    (keeps : isThinkingType frame.event.blockType = false) (fresh : removal.next ∉ up.seen)
    (nothing : up.opened = ∅) : Agrees (up.start removal.next) state (removal.step frame) := by
  rw [Removal.step_start read, keeps, undecoded, Bool.and_false, if_neg Bool.false_ne_true]
  have alone : ∀ upstream ∈ (up.start removal.next).opened, upstream = removal.next := by
    intro upstream member
    rw [Nest.opened_start, nothing] at member
    exact (Finset.mem_insert.mp member).resolve_right (Finset.notMem_empty _)
  refine ⟨agrees.unsuppressed, fun other member => ?_, fun other seg found => ?_, agrees.apart,
    agrees.below, ?_, fun _ other member => ?_, nofun, nofun, fun _ => .inl ?_⟩
  · exact Finset.mem_insert_of_mem (agrees.droppedSeen other member)
  · exact Finset.mem_insert_of_mem (agrees.knownSeen other seg found)
  · show state.nextIndex ≤ removal.next + 1
    have behind := agrees.behind
    omega
  · obtain rfl := alone other member
    refine ⟨fun dropped => fresh (agrees.droppedSeen _ dropped), nofun, fun _ => ⟨?_, ?_, rfl, ?_⟩⟩
    · rw [← Option.not_isSome_iff_eq_none, Option.isSome_iff_exists]
      rintro ⟨seg, found⟩
      exact fresh (agrees.knownSeen _ seg found)
    · show removal.next = removal.next + 1 - 1
      omega
    · show state.nextIndex ≤ removal.next + 1 - 1
      have behind := agrees.behind
      omega
  · show state.nextIndex < removal.next + 1
    have behind := agrees.behind
    omega

/-- Nothing is open behind a stop. -/
theorem nothing_open_of_stop (alone : up.opened = {upstream}) : (up.stop upstream).opened = ∅ := by
  rw [Nest.opened_stop, alone]
  simp

/-- A kept block stops, which the policy does not see. -/
theorem agrees_unseenStop (agrees : Agrees up state removal)
    (read : frame.event.mark? = some (.stop upstream)) (undecoded : frame.decoded = false)
    (kept : removal.kept = true) (alone : up.opened = {upstream}) :
    Agrees (up.stop upstream) state (removal.step frame) := by
  rw [Removal.step_stop read, undecoded, Bool.and_false]
  have closed := nothing_open_of_stop alone
  have shows := agrees.keptOpen kept upstream (alone ▸ Finset.mem_singleton_self _)
  refine ⟨agrees.unsuppressed, agrees.droppedSeen, agrees.knownSeen, agrees.apart, agrees.below,
    agrees.behind, fun _ other member => ?_, fun _ other member => ?_, nofun, fun _ => ?_⟩
  · rw [closed] at member
    exact absurd member (Finset.notMem_empty _)
  · rw [closed] at member
    exact absurd member (Finset.notMem_empty _)
  · cases sighted : removal.sighted with
    | true =>
      obtain ⟨seg, found, isOpen, -⟩ := shows.known sighted
      exact .inr ⟨upstream, seg, found, isOpen, by rw [closed]; exact Finset.notMem_empty _⟩
    | false =>
      have lags := (shows.unknown sighted).2.2.2
      refine .inl ?_
      show state.nextIndex < removal.next
      omega

/-- **A frame that is not decoded** is passed on. -/
theorem undecoded_outcome (agrees : Agrees up state removal) (begins : Begins up frame.event up')
    (undecoded : frame.decoded = false) : FrameOutcome up' state removal frame [frame.event] := by
  cases begins with
  | other unread =>
    refine .inl ⟨?_, ?_, ?_⟩
    · unfold Removal.Clean
      rw [unread]
      trivial
    · unfold Numbering.renumber
      rw [unread]
    · rwa [Removal.step_other unread]
  | @start upstream _ _ read index _ _ fresh nothing =>
    unfold FrameOutcome
    rw [Removal.clean_start read, Removal.renumber_start read, undecoded]
    cases thinking : isThinkingType frame.event.blockType with
    | true =>
      refine .inr ⟨by simp, .extra ?_ ?_ (by rw [read]; rfl) fun _ _ => thinking⟩
      · rw [Removal.renumber_start read, thinking, if_pos rfl]
      · rw [Removal.step_start read, thinking, if_pos rfl]
    | false =>
      simp only [Bool.false_eq_true, if_false]
      have same := reindex_eq_iff read index removal.next
      by_cases number : upstream = removal.next
      · subst number
        refine .inl ⟨rfl, congrArg (fun event => [event]) (same.mpr rfl), ?_⟩
        exact agrees_unseenStart agrees read undecoded thinking fresh nothing
      · refine .inr ⟨number, .heads (fun equal => number (same.mp equal)) ?_⟩
        rw [Removal.renumber_start read, thinking]
        rfl
  | @delta upstream _ read index _ alone =>
    unfold FrameOutcome
    rw [Removal.clean_delta read, Removal.renumber_delta read, undecoded, Removal.step_delta read]
    cases kept : removal.kept with
    | false =>
      refine .inr ⟨by simp, .extra ?_ ?_ (by rw [read]; rfl) fun _ start => ?_⟩
      · rw [Removal.renumber_delta read, kept]
        rfl
      · rw [Removal.step_delta read, kept]
      · rw [read] at start
        cases start
    | true =>
      simp only [Bool.true_eq_false, if_false, if_true]
      have same := reindex_eq_iff read index (removal.next - 1)
      by_cases number : upstream = removal.next - 1
      · exact .inl ⟨number, congrArg (fun event => [event]) (same.mpr number), agrees⟩
      · refine .inr ⟨number, .heads (fun equal => number (same.mp equal)) ?_⟩
        rw [Removal.renumber_delta read, kept]
        rfl
  | @stop upstream read index alone =>
    unfold FrameOutcome
    rw [Removal.clean_stop read, Removal.renumber_stop read, undecoded]
    cases kept : removal.kept with
    | false =>
      refine .inr ⟨by simp, .extra ?_ ?_ (by rw [read]; rfl) fun _ start => ?_⟩
      · rw [Removal.renumber_stop read, kept]
        rfl
      · rw [Removal.step_stop read, kept]
      · rw [read] at start
        cases start
    | true =>
      simp only [Bool.true_eq_false, if_false, if_true]
      have same := reindex_eq_iff read index (removal.next - 1)
      by_cases number : upstream = removal.next - 1
      · exact .inl ⟨number, congrArg (fun event => [event]) (same.mpr number),
          agrees_unseenStop agrees read undecoded kept alone⟩
      · refine .inr ⟨number, .heads (fun equal => number (same.mp equal)) ?_⟩
        rw [Removal.renumber_stop read, kept]
        rfl

end Undecoded

section Decoded

variable {up up' : Nest Int} {state : NativeSseBlockPolicyState} {removal : Removal}
  {frame : NativeFrame} {upstream : Int}

theorem only_open_of_start {other : Int} (nothing : up.opened = ∅)
    (member : other ∈ (up.start upstream).opened) : other = upstream := by
  rw [Nest.opened_start, nothing] at member
  exact (Finset.mem_insert.mp member).resolve_right (Finset.notMem_empty _)

theorem Agrees.unknown_of_fresh (agrees : Agrees up state removal) (fresh : upstream ∉ up.seen) :
    state.byUpstream.get? upstream = none := by
  rw [← Option.not_isSome_iff_eq_none, Option.isSome_iff_exists]
  rintro ⟨seg, found⟩
  exact fresh (agrees.knownSeen upstream seg found)

/-- A thinking block starts. -/
theorem agrees_droppedStart (agrees : Agrees up state removal)
    (read : frame.event.mark? = some (.start upstream)) (decoded : frame.decoded = true)
    (thinking : isThinkingType frame.event.blockType = true) (fresh : upstream ∉ up.seen)
    (nothing : up.opened = ∅) :
    Agrees (up.start upstream) { state with droppedIndexes := insert upstream state.droppedIndexes }
      (removal.step frame) := by
  rw [Removal.step_start read, thinking, decoded, Bool.and_true, if_pos rfl]
  refine ⟨agrees.unsuppressed, fun other member => ?_, fun other seg found => ?_,
    fun other member => ?_, agrees.below, agrees.behind, nofun, fun _ other member => ?_,
    fun clear => ⟨(agrees.clear clear).1, fun other seg found isOpen => ?_⟩, fun unclear => ?_⟩
  · rcases Finset.mem_insert.mp member with rfl | earlier
    · exact Finset.mem_insert_self _ _
    · exact Finset.mem_insert_of_mem (agrees.droppedSeen other earlier)
  · exact Finset.mem_insert_of_mem (agrees.knownSeen other seg found)
  · rcases Finset.mem_insert.mp member with rfl | earlier
    · exact agrees.unknown_of_fresh fresh
    · exact agrees.apart other earlier
  · rw [only_open_of_start nothing member]
    exact Finset.mem_insert_self _ _
  · exact Finset.mem_insert_of_mem ((agrees.clear clear).2 other seg found isOpen)
  · refine (agrees.blind unclear).imp_right ?_
    rintro ⟨other, seg, found, isOpen, -⟩
    refine ⟨other, seg, found, isOpen, fun member => fresh ?_⟩
    exact only_open_of_start nothing member ▸ agrees.knownSeen other seg found

/-- A kept block starts. -/
theorem agrees_keptStart (agrees : Agrees up state removal)
    (read : frame.event.mark? = some (.start upstream)) (decoded : frame.decoded = true)
    (keeps : isThinkingType frame.event.blockType = false) (clear : removal.clear = true)
    (fresh : upstream ∉ up.seen) (nothing : up.opened = ∅) (blockType : String)
    (block : List (String × Json)) :
    Agrees (up.start upstream) (allocateNewSegment state upstream blockType (some block)).2
      (removal.step frame) := by
  rw [Removal.step_start read, keeps, decoded, Bool.and_true, if_neg Bool.false_ne_true]
  obtain ⟨number, known⟩ := agrees.clear clear
  have lookup : ∀ other, (allocateNewSegment state upstream blockType (some block)).2.byUpstream.get?
      other = if other = upstream then some ⟨blockType, state.nextIndex, true, some block⟩
        else state.byUpstream.get? other := fun other => Dict.get?_set _ _ _ _
  refine ⟨agrees.unsuppressed, fun other member => ?_, fun other seg found => ?_,
    fun other member => ?_, fun other seg found => ?_, ?_, fun _ other member => ?_, nofun,
    fun _ => ⟨congrArg (· + 1) number, fun other seg found isOpen => ?_⟩,
    fun unclear => absurd (clear.symm.trans unclear) (by decide)⟩
  · exact Finset.mem_insert_of_mem (agrees.droppedSeen other member)
  · rw [lookup] at found
    split_ifs at found with same
    · exact same ▸ Finset.mem_insert_self _ _
    · exact Finset.mem_insert_of_mem (agrees.knownSeen other seg found)
  · rw [lookup, if_neg, agrees.apart other member]
    rintro rfl
    exact fresh (agrees.droppedSeen other member)
  · show seg.downIndex < state.nextIndex + 1
    rw [lookup] at found
    split_ifs at found with same
    · rw [← Option.some.inj found]
      exact Int.lt_succ _
    · exact (agrees.below other seg found).trans (Int.lt_succ _)
  · exact le_of_eq (congrArg (· + 1) number)
  · rw [only_open_of_start nothing member]
    refine ⟨fun dropped => fresh (agrees.droppedSeen _ dropped), fun _ => ?_, nofun⟩
    refine ⟨_, by rw [lookup, if_pos rfl], rfl, ?_⟩
    show state.nextIndex = removal.next + 1 - 1
    omega
  · rw [lookup] at found
    split_ifs at found with same
    · exact same ▸ Finset.mem_insert_self _ _
    · exact Finset.mem_insert_of_mem (known other seg found isOpen)

/-- A block stops that the policy has no open segment for. -/
theorem agrees_closedStop (agrees : Agrees up state removal)
    (read : frame.event.mark? = some (.stop upstream)) (decoded : frame.decoded = true)
    (alone : up.opened = {upstream})
    (closed : ∀ seg, state.byUpstream.get? upstream = some seg → seg.isOpen = false) :
    Agrees (up.stop upstream) state (removal.step frame) := by
  rw [Removal.step_stop read, decoded, Bool.and_true]
  have ended := nothing_open_of_stop alone
  refine ⟨agrees.unsuppressed, agrees.droppedSeen, agrees.knownSeen, agrees.apart, agrees.below,
    agrees.behind, fun _ other member => ?_, fun _ other member => ?_,
    fun clear => ⟨(agrees.clear clear).1, fun other seg found isOpen => ?_⟩, fun unclear => ?_⟩
  · exact absurd (ended ▸ member) (Finset.notMem_empty _)
  · exact absurd (ended ▸ member) (Finset.notMem_empty _)
  · have member := (agrees.clear clear).2 other seg found isOpen
    rw [alone, Finset.mem_singleton] at member
    rw [closed seg (member ▸ found)] at isOpen
    cases isOpen
  · refine (agrees.blind unclear).imp_right ?_
    rintro ⟨other, seg, found, isOpen, -⟩
    exact ⟨other, seg, found, isOpen, ended ▸ Finset.notMem_empty _⟩

/-- A kept block stops. -/
theorem agrees_openStop (agrees : Agrees up state removal)
    (read : frame.event.mark? = some (.stop upstream)) (decoded : frame.decoded = true)
    (alone : up.opened = {upstream}) {seg : UpstreamBlockState}
    (known : state.byUpstream.get? upstream = some seg) :
    Agrees (up.stop upstream)
      { state with byUpstream := state.byUpstream.set upstream { seg with isOpen := false } }
      (removal.step frame) := by
  rw [Removal.step_stop read, decoded, Bool.and_true]
  have ended := nothing_open_of_stop alone
  have lookup : ∀ other, (state.byUpstream.set upstream { seg with isOpen := false }).get? other =
      if other = upstream then some { seg with isOpen := false }
      else state.byUpstream.get? other := fun other => Dict.get?_set _ _ _ _
  have shown : upstream ∉ state.droppedIndexes := fun dropped =>
    nomatch known.symm.trans (agrees.apart upstream dropped)
  refine ⟨agrees.unsuppressed, agrees.droppedSeen, fun other otherSeg found => ?_,
    fun other member => ?_, fun other otherSeg found => ?_, agrees.behind,
    fun _ other member => ?_, fun _ other member => ?_,
    fun clear => ⟨(agrees.clear clear).1, fun other otherSeg found isOpen => ?_⟩, fun unclear => ?_⟩
  · rw [lookup] at found
    split_ifs at found with same
    · exact same ▸ agrees.knownSeen upstream seg known
    · exact agrees.knownSeen other otherSeg found
  · rw [lookup, if_neg, agrees.apart other member]
    rintro rfl
    exact shown member
  · rw [lookup] at found
    split_ifs at found with same
    · rw [← Option.some.inj found]
      exact agrees.below upstream seg known
    · exact agrees.below other otherSeg found
  · exact absurd (ended ▸ member) (Finset.notMem_empty _)
  · exact absurd (ended ▸ member) (Finset.notMem_empty _)
  · rw [lookup] at found
    split_ifs at found with same
    · rw [← Option.some.inj found] at isOpen
      cases isOpen
    · have member := (agrees.clear clear).2 other otherSeg found isOpen
      rw [alone, Finset.mem_singleton] at member
      exact absurd member same
  · refine (agrees.blind unclear).imp_right ?_
    rintro ⟨other, otherSeg, found, isOpen, gone⟩
    refine ⟨other, otherSeg, ?_, isOpen, ended ▸ Finset.notMem_empty _⟩
    rw [lookup, if_neg, found]
    rintro rfl
    exact gone (alone ▸ Finset.mem_singleton_self _)

/-- The types of thinking blocks are dropped. -/
theorem drops_of_thinking {blockType : Json} (thinking : isThinkingType blockType = true) :
    shouldDropBlockType blockType false = true := by
  simp only [isThinkingType, Bool.or_eq_true, decide_eq_true_eq] at thinking
  rcases thinking with rfl | rfl <;> decide

/-- The start of a block that is decoded. -/
theorem decodedStart_outcome (agrees : Agrees up state removal) (decoded : frame.decoded = true)
    (read : frame.event.mark? = some (.start upstream)) {block : List (String × Json)}
    {blockType : String} (isBlock : frame.event.contentBlock = .obj block)
    (typed : getKey block "type" = .str blockType) (fresh : upstream ∉ up.seen)
    (nothing : up.opened = ∅) : ∃ answer state',
    transformNativeSseBlockEvent frame.event state false = .ok (answer, state') ∧
      FrameOutcome (up.start upstream) state' removal frame (answer.getD []) := by
  unfold FrameOutcome
  rw [Removal.clean_start read, Removal.renumber_start read, decoded]
  cases thinking : isThinkingType frame.event.blockType with
  | true =>
    exact ⟨_, _, transform_droppedStart read isBlock (drops_of_thinking thinking),
      .inl ⟨rfl, rfl, agrees_droppedStart agrees read decoded thinking fresh nothing⟩⟩
  | false =>
    simp only [Bool.false_eq_true, if_false, if_true]
    cases drops : shouldDropBlockType frame.event.blockType false with
    | true =>
      exact ⟨_, _, transform_droppedStart read isBlock drops,
        .inr ⟨fun clean => Bool.noConfusion clean.1, .lostStart read drops thinking⟩⟩
    | false =>
      refine ⟨_, _, transform_keptStart read isBlock typed drops, ?_⟩
      have reference : removal.renumber frame.event = [frame.event.reindex removal.next] := by
        rw [Removal.renumber_start read, thinking]
        rfl
      have apart : ∀ {other seg}, state.byUpstream.get? other = some seg → other ≠ upstream :=
        fun found same => fresh (same ▸ agrees.knownSeen _ _ found)
      by_cases missed : ∃ other seg, state.byUpstream.get? other = some seg ∧ seg.isOpen = true
      · -- it closes that block first
        obtain ⟨other, seg, found, isOpen⟩ := missed
        obtain ⟨first, firstSeg, rest, -, -, -, closed⟩ :=
          syntheticClose_of_open found (apart found) isOpen
        refine .inr ⟨fun clean => ?_, ?_⟩
        · have inside := (agrees.clear clean.2).2 other seg found isOpen
          rw [nothing] at inside
          exact absurd inside (Finset.notMem_empty _)
        · rw [Option.getD_some, closed, List.cons_append]
          refine .heads (fun same => ?_) reference
          have marks := congrArg SseEvent.mark? same
          rw [mark?_contentBlockStop, mark?_reindex_start read] at marks
          cases marks
      · have idle : syntheticCloseOtherOpenBlocks state upstream = ([], state) :=
          syntheticClose_of_others fun other seg found _ => by
            by_contra isOpen
            exact missed ⟨other, seg, found, (Bool.not_eq_false _).mp isOpen⟩
        rw [idle, List.nil_append, Option.getD_some]
        cases clear : removal.clear with
        | true =>
          refine .inl ⟨⟨rfl, rfl⟩, ?_,
            agrees_keptStart agrees read decoded thinking clear fresh nothing blockType block⟩
          rw [(agrees.clear clear).1]
        | false =>
          refine .inr ⟨fun clean => Bool.noConfusion clean.2, .heads (fun same => ?_) reference⟩
          obtain lags | ⟨other, seg, found, isOpen, -⟩ := agrees.blind clear
          · exact lags.ne (reindex_inj same)
          · exact missed ⟨other, seg, found, isOpen⟩

/-- A delta that is decoded. -/
theorem decodedDelta_outcome (agrees : Agrees up state removal) (decoded : frame.decoded = true)
    (read : frame.event.mark? = some (.delta upstream))
    (index : getKey frame.event.fields "index" = .int upstream) {delta : List (String × Json)}
    (isDelta : frame.event.delta = .obj delta) (alone : up.opened = {upstream}) : ∃ answer state',
    transformNativeSseBlockEvent frame.event state false = .ok (answer, state') ∧
      FrameOutcome up state' removal frame (answer.getD []) := by
  unfold FrameOutcome
  rw [Removal.clean_delta read, Removal.renumber_delta read, Removal.step_delta read, decoded]
  have isOpen : upstream ∈ up.opened := alone ▸ Finset.mem_singleton_self _
  cases kept : removal.kept with
  | false =>
    exact ⟨_, _, transform_hiddenDelta read isDelta (agrees.droppedOpen kept _ isOpen),
      .inl ⟨rfl, rfl, agrees⟩⟩
  | true =>
    simp only [Bool.true_eq_false, if_false, if_true]
    have shows := agrees.keptOpen kept upstream isOpen
    have reference : removal.renumber frame.event = [frame.event.reindex (removal.next - 1)] := by
      rw [Removal.renumber_delta read, kept]
      rfl
    have raw := reindex_eq_iff read index (removal.next - 1)
    cases drops : shouldDropBlockType frame.event.deltaType false with
    | true =>
      exact ⟨_, _, transform_droppedDelta read isDelta drops,
        .inr ⟨fun clean => Bool.noConfusion clean.1, .lostDelta read kept drops alone agrees⟩⟩
    | false =>
      rcases mapped : deltaTypeToBlockKind frame.event.deltaType with _ | kind
      · -- a type that is not mapped is returned as it came
        refine ⟨_, _, transform_unmappedDelta read isDelta shows.shown drops mapped, ?_⟩
        by_cases number : upstream = removal.next - 1
        · refine .inl ⟨⟨rfl, fun _ => number, .inr nofun⟩, ?_, agrees⟩
          exact congrArg (fun event => [event]) (raw.mpr number)
        · exact .inr ⟨fun clean => number (clean.2.1 rfl),
            .heads (fun same => number (raw.mp same)) reference⟩
      · cases sighted : removal.sighted with
        | true =>
          obtain ⟨seg, found, segOpen, number⟩ := shows.known sighted
          refine ⟨_, _, transform_openDelta read isDelta shows.shown drops mapped found segOpen, ?_⟩
          exact .inl ⟨⟨rfl, nofun, .inl rfl⟩, by rw [number]; rfl, agrees⟩
        | false =>
          obtain ⟨unknown, number, -⟩ := shows.unknown sighted
          by_cases thinking : kind = "thinking"
          · refine ⟨_, _, transform_thinkingDelta read isDelta shows.shown drops mapped unknown
              thinking, .inl ⟨⟨rfl, nofun, .inr fun other same => ?_⟩, ?_, agrees⟩⟩
            · rw [← Option.some.inj same, thinking]
            · exact congrArg (fun event => [event]) (raw.mpr number)
          · obtain ⟨block, state', answer⟩ := transform_startingDelta read isDelta shows.shown drops
              mapped unknown thinking
            refine ⟨_, state', answer, .inr ⟨fun clean => ?_, .heads (fun same => ?_) reference⟩⟩
            · exact thinking ((clean.2.2.resolve_left Bool.false_ne_true) kind rfl)
            · have marks := congrArg SseEvent.mark? same
              rw [mark?_contentBlockStart, mark?_reindex_delta read] at marks
              cases marks

/-- A kept block is over that the policy has never seen. -/
theorem blockOver_of_unseen (agrees : Agrees up state removal) (kept : removal.kept = true)
    (unsighted : removal.sighted = false) (alone : up.opened = {upstream}) :
    BlockOver (up.stop upstream) state (removal.next - 1) := by
  have isOpen : upstream ∈ up.opened := alone ▸ Finset.mem_singleton_self _
  obtain ⟨-, number, -, lags⟩ := (agrees.keptOpen kept upstream isOpen).unknown unsighted
  have ended := nothing_open_of_stop alone
  refine ⟨number ▸ up.within isOpen, ended ▸ Finset.notMem_empty _, fun other member => ?_,
    fun other seg found _ same => ?_⟩
  · exact absurd (ended ▸ member) (Finset.notMem_empty _)
  · have below := agrees.below other seg found
    omega

/-- A stop that is decoded. -/
theorem decodedStop_outcome (agrees : Agrees up state removal) (decoded : frame.decoded = true)
    (read : frame.event.mark? = some (.stop upstream)) (alone : up.opened = {upstream}) :
    ∃ answer state', transformNativeSseBlockEvent frame.event state false = .ok (answer, state') ∧
      FrameOutcome (up.stop upstream) state' removal frame (answer.getD []) := by
  unfold FrameOutcome
  rw [Removal.clean_stop read, Removal.renumber_stop read, decoded]
  have isOpen : upstream ∈ up.opened := alone ▸ Finset.mem_singleton_self _
  have due : upstream ∉ state.pendingSuppressedStops := agrees.unsuppressed ▸ Finset.notMem_empty _
  cases kept : removal.kept with
  | false =>
    have hidden := agrees.droppedOpen kept _ isOpen
    refine ⟨_, _, transform_hiddenStop read hidden, .inl ⟨rfl, rfl, ?_⟩⟩
    exact agrees_closedStop agrees read decoded alone fun seg found =>
      nomatch found.symm.trans (agrees.apart upstream hidden)
  | true =>
    simp only [Bool.true_eq_false, if_false, if_true]
    have shows := agrees.keptOpen kept upstream isOpen
    cases sighted : removal.sighted with
    | true =>
      obtain ⟨seg, found, segOpen, number⟩ := shows.known sighted
      refine ⟨_, _, transform_openStop read shows.shown due found segOpen, .inl ⟨rfl, ?_, ?_⟩⟩
      · rw [number]
        rfl
      · exact agrees_openStop agrees read decoded alone found
    | false =>
      obtain ⟨unknown, -⟩ := shows.unknown sighted
      exact ⟨_, _, transform_unknownStop read shows.shown due unknown,
        .inr ⟨Bool.false_ne_true, .lostStop read kept (blockOver_of_unseen agrees kept sighted alone)⟩⟩

end Decoded

/-- **One frame** of a stream whose blocks come one at a time. -/
theorem removal_step {up up' : Nest Int} {state : NativeSseBlockPolicyState} {removal : Removal}
    {frame : NativeFrame} (agrees : Agrees up state removal) (begins : Begins up frame.event up') :
    ∃ answer state', transformNativeSseFrame frame state false = .ok (answer, state') ∧
      FrameOutcome up' state' removal frame (answer.getD []) := by
  unfold transformNativeSseFrame
  cases decoded : frame.decoded with
  | false =>
    rw [if_neg Bool.false_ne_true]
    exact ⟨_, _, rfl, undecoded_outcome agrees begins decoded⟩
  | true =>
    rw [if_pos rfl]
    cases begins with
    | other unread noBlock =>
      refine ⟨_, _, transform_other noBlock, .inl ⟨?_, ?_, ?_⟩⟩
      · unfold Removal.Clean
        rw [unread]
        trivial
      · unfold Numbering.renumber
        rw [unread]
        rfl
      · rwa [Removal.step_other unread]
    | start read index isBlock typed fresh nothing =>
      exact decodedStart_outcome agrees decoded read isBlock typed fresh nothing
    | delta read index isDelta alone =>
      exact decodedDelta_outcome agrees decoded read index isDelta alone
    | stop read index alone => exact decodedStop_outcome agrees decoded read alone

end ClaudeProxy
