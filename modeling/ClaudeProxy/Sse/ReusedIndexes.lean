/-
**Native blocks that use an index again.**

Upstream blocks come one at a time, but a later block may have the index of an earlier one, behind its
stop or in its place. `Relayed` is what the policy owes a client then: one open block while upstream
has one that is forwarded and none otherwise, rising indexes, deltas of open blocks only, and all of
the text and the tool input.

* `UpstreamBlocks` — what the stream's frames tell: the open block, the indexes at which a block was
  dropped, and what the policy decoded of the others. `Clean` — the frames that the policy relays.
* `relaying` — the policy on a stream; `Tracks` — its invariant as long as the frames are clean.
* `tracks_start`, `tracks_delta`, `tracks_stop` — one frame, by its kind.
* **`reusedIndexes_relayed_iff`** — a stream is relayed exactly when all its frames are clean.
-/

import ClaudeProxy.Library.Transition
import ClaudeProxy.Sse.PolicyAnswers
import Mathlib.Data.Finset.Card

namespace ClaudeProxy

open Json (getKey setKey)

/-! ### The upstream side -/

/-- What a stream has told so far: the index of its open block, whether that block is of a type that is
forwarded, and the indexes at which a block was dropped; and what the policy has seen of it: whether it
decoded the start of the open block, how many starts and at which indexes, and the indexes of those
blocks whose stop it has missed. `last` is the client's index of the block started last. -/
structure UpstreamBlocks where
  current : Option Int := none
  forwards : Bool := false
  dropped : Finset Int := ∅
  sighted : Bool := false
  forwarded : Int := 0
  known : Finset Int := ∅
  stale : Finset Int := ∅
  last : Option Int := none

namespace UpstreamBlocks

/-- A block starts. One that is not decoded goes out at its own index. -/
def start (thinkingEnabled : Bool) (blocks : UpstreamBlocks) (frame : NativeFrame) (index : Int) :
    UpstreamBlocks :=
  if shouldDropBlockType frame.event.blockType thinkingEnabled then
    { blocks with current := some index, forwards := false, dropped := insert index blocks.dropped }
  else if frame.decoded then
    { blocks with
      current := some index
      forwards := true
      sighted := true
      forwarded := blocks.forwarded + 1
      known := insert index blocks.known
      stale := ∅
      last := some blocks.forwarded }
  else { blocks with current := some index, forwards := true, sighted := false, last := some index }

/-- The open block stops. -/
def stop (blocks : UpstreamBlocks) (frame : NativeFrame) (index : Int) : UpstreamBlocks :=
  { blocks with
    current := none
    forwards := false
    stale :=
      if blocks.forwards && blocks.sighted && !frame.decoded then insert index blocks.stale
      else blocks.stale }

/-- One frame of a stream with at most one block open; `none` for any other frame. -/
def step (thinkingEnabled : Bool) (blocks : UpstreamBlocks) (frame : NativeFrame) :
    Option UpstreamBlocks :=
  match frame.event.mark? with
  | some (.start index) =>
    if blocks.current.getD index = index ∧ frame.event.blockType.asStr?.isSome then
      some (blocks.start thinkingEnabled frame index)
    else none
  | some (.delta index) =>
    if blocks.current = some index ∧ frame.event.delta.asObj?.isSome then some blocks else none
  | some (.stop index) =>
    if blocks.current = some index then some (blocks.stop frame index) else none
  | none => if frame.event.isBlockEvent then none else some blocks

end UpstreamBlocks

/-- The payload of a delta of text or of tool input. -/
def SseEvent.contentDelta? (event : SseEvent) : Option Json :=
  if event.event = "content_block_delta" ∧
      (event.deltaType = .str "text_delta" ∨ event.deltaType = .str "input_json_delta") then
    some event.delta
  else none

namespace UpstreamBlocks

/-- A block may start: the forwarded one before it has stopped, and its index at the client is above
that one's; the policy has not missed the stop of a block at another index. One that is to be dropped
is decoded. -/
def StartsCleanly (thinkingEnabled : Bool) (blocks : UpstreamBlocks) (frame : NativeFrame)
    (index : Int) : Prop :=
  blocks.forwards = false ∧
    if shouldDropBlockType frame.event.blockType thinkingEnabled then frame.decoded = true
    else if frame.decoded then
      (∀ last ∈ blocks.last, last < blocks.forwarded) ∧ ∀ missed ∈ blocks.stale, missed = index
    else ∀ last ∈ blocks.last, last < index

/-- Text and tool input come at an index at which nothing was dropped; a delta of a type without a block
kind carries the client's index already; and in a block of which the policy has not seen the start,
only those of the kind of thinking do not start another one. A delta that is not decoded carries the
client's index too. -/
def ExtendsCleanly (thinkingEnabled : Bool) (blocks : UpstreamBlocks) (frame : NativeFrame)
    (index : Int) : Prop :=
  if frame.decoded then
    (frame.event.contentDelta?.isSome = true → index ∉ blocks.dropped) ∧
      (blocks.forwards = true → index ∉ blocks.dropped →
        shouldDropBlockType frame.event.deltaType thinkingEnabled = false →
        (deltaTypeToBlockKind frame.event.deltaType = none → blocks.last = some index) ∧
          (blocks.sighted = true ∨ ∀ kind ∈ deltaTypeToBlockKind frame.event.deltaType,
            kind = "thinking" ∧ index ∉ blocks.known))
  else blocks.forwards = true ∧ blocks.last = some index

/-- The stop of a forwarded block comes at an index at which nothing was dropped, and the policy has
seen its start, or no start at that index and passes it on. -/
def StopsCleanly (thinkingEnabled : Bool) (blocks : UpstreamBlocks) (frame : NativeFrame)
    (index : Int) : Prop :=
  if frame.decoded then
    blocks.forwards = true → index ∉ blocks.dropped ∧
      (blocks.sighted = true ∨ thinkingEnabled = true ∧ index ∉ blocks.known)
  else blocks.forwards = true ∧ blocks.last = some index

/-- **The frames that are relayed.** -/
def Clean (thinkingEnabled : Bool) (blocks : UpstreamBlocks) (frame : NativeFrame) : Prop :=
  match frame.event.mark? with
  | some (.start index) => blocks.StartsCleanly thinkingEnabled frame index
  | some (.delta index) => blocks.ExtendsCleanly thinkingEnabled frame index
  | some (.stop index) => blocks.StopsCleanly thinkingEnabled frame index
  | none => True

/-- The policy has the open block of this index as an open one. -/
structure Shows (blocks : UpstreamBlocks) (index : Int) : Prop where
  forwards : blocks.forwards = true
  sighted : blocks.sighted = true
  current : blocks.current = some index

end UpstreamBlocks

/-! ### The policy on a stream -/

/-- The policy between upstream and client: what it received and what it sent. -/
structure Relay where
  upstream : UpstreamBlocks := {}
  policy : NativeSseBlockPolicyState := {}
  received : List SseEvent := []
  sent : List SseEvent := []

/-- The policy on a stream with at most one block open. -/
def relaying (thinkingEnabled : Bool) : Machine Relay NativeFrame where
  init relay := relay = {}
  step relay frame :=
    (relay.upstream.step thinkingEnabled frame).bind fun upstream =>
      match transformNativeSseFrame frame relay.policy thinkingEnabled with
      | .error _ => none
      | .ok (out, policy) =>
        some ⟨upstream, policy, relay.received ++ [frame.event], relay.sent ++ out.getD []⟩

/-- **What the client gets.** It reads everything, and has one block open while upstream has a
forwarded one and none otherwise; the blocks' indexes rise; no text and no tool input is lost. -/
structure Relayed (relay : Relay) : Prop where
  client : ∃ nest, Reads Nest.empty relay.sent nest ∧
    nest.opened.card = if relay.upstream.forwards then 1 else 0
  rising : (starts (marks relay.sent)).Pairwise (· < ·)
  content : relay.sent.filterMap SseEvent.contentDelta? =
    relay.received.filterMap SseEvent.contentDelta?

/-- What the policy knows of the blocks. -/
structure Knows (blocks : UpstreamBlocks) (policy : NativeSseBlockPolicyState) : Prop where
  next : policy.nextIndex = blocks.forwarded
  dropped : policy.droppedIndexes = blocks.dropped
  unsuppressed : policy.pendingSuppressedStops = ∅
  known : ∀ index, (policy.byUpstream.get? index).isSome = true ↔ index ∈ blocks.known
  shown : ∀ index, blocks.Shows index → ∃ seg, policy.byUpstream.get? index = some seg ∧
    seg.isOpen = true ∧ blocks.last = some seg.downIndex
  unseen : blocks.forwards = true → blocks.sighted = false → blocks.last = blocks.current
  settled : blocks.forwards = true → blocks.sighted = true → blocks.stale = ∅
  onlyOpen : ∀ index seg, policy.byUpstream.get? index = some seg → seg.isOpen = true →
    blocks.Shows index ∨ index ∈ blocks.stale
  stale : ∀ index ∈ blocks.stale, ∃ seg, policy.byUpstream.get? index = some seg ∧ seg.isOpen = true
  hidden : ∀ index, blocks.current = some index → blocks.forwards = false → index ∈ blocks.dropped
  began : blocks.forwards = true → blocks.last.isSome = true

/-- What the client has read, and where it stands. -/
structure Client (relay : Relay) (nest : Nest Int) : Prop where
  reads : Reads Nest.empty relay.sent nest
  opened : ∀ index, index ∈ nest.opened ↔
    relay.upstream.forwards = true ∧ relay.upstream.last = some index
  below : ∀ index ∈ nest.seen, ∃ last ∈ relay.upstream.last, index ≤ last
  started : ∀ last ∈ relay.upstream.last, last ∈ starts (marks relay.sent)
  past : ∀ index seg, relay.policy.byUpstream.get? index = some seg → ¬ relay.upstream.Shows index →
    seg.downIndex ∈ nest.seen ∧ seg.downIndex ∉ nest.opened

theorem hides_of_ended {blocks : UpstreamBlocks} (ended : blocks.forwards = false) (index : Int) :
    ¬ blocks.Shows index :=
  fun shows => Bool.false_ne_true (ended.symm.trans shows.forwards)

/-- The policy's state and the client's, as long as the frames are clean. -/
structure Tracks (relay : Relay) : Prop where
  client : ∃ nest, Client relay nest
  rising : (starts (marks relay.sent)).Pairwise (· < ·)
  content : relay.sent.filterMap SseEvent.contentDelta? =
    relay.received.filterMap SseEvent.contentDelta?
  knows : Knows relay.upstream relay.policy

theorem tracks_init : Tracks {} where
  client := by
    refine ⟨Nest.empty, Reads.nil _, fun index => ?_, fun index member => ?_, nofun, nofun⟩
    · exact iff_of_false (Finset.notMem_empty _) fun both => Bool.false_ne_true both.1
    · exact absurd member (Finset.notMem_empty _)
  rising := List.Pairwise.nil
  content := rfl
  knows := by
    refine ⟨rfl, rfl, rfl, fun index => ?_, fun index shows => ?_, nofun, nofun, nofun, fun index member => ?_,
      nofun, nofun⟩
    · exact iff_of_false Bool.false_ne_true (Finset.notMem_empty _)
    · exact absurd shows.forwards Bool.false_ne_true
    · exact absurd member (Finset.notMem_empty _)

/-- One block is open, or none. -/
theorem Client.card {relay : Relay} {nest : Nest Int} (client : Client relay nest)
    (knows : Knows relay.upstream relay.policy) :
    nest.opened.card = if relay.upstream.forwards then 1 else 0 := by
  cases forwards : relay.upstream.forwards with
  | true =>
    obtain ⟨last, isLast⟩ := Option.isSome_iff_exists.mp (knows.began forwards)
    refine Finset.card_eq_one.mpr ⟨last, Finset.ext fun index => ?_⟩
    rw [client.opened, Finset.mem_singleton, isLast]
    exact ⟨fun both => (Option.some.inj both.2).symm, fun same => ⟨forwards, same ▸ rfl⟩⟩
  | false =>
    refine Finset.card_eq_zero.mpr (Finset.eq_empty_iff_forall_notMem.mpr fun index member => ?_)
    have opens := ((client.opened index).mp member).1
    rw [forwards] at opens
    cases opens

theorem Tracks.relayed {relay : Relay} (tracks : Tracks relay) : Relayed relay := by
  obtain ⟨nest, client⟩ := tracks.client
  exact ⟨⟨nest, client.reads, client.card tracks.knows⟩, tracks.rising, tracks.content⟩

/-! ### What is read of one answer -/

section Content

variable {event : SseEvent}

/-- A text or tool-input delta is not dropped for its type, and its type has a block kind. -/
theorem contentDelta_kind {thinkingEnabled : Bool} (content : event.contentDelta?.isSome = true) :
    shouldDropBlockType event.deltaType thinkingEnabled = false ∧
      deltaTypeToBlockKind event.deltaType ≠ none := by
  unfold SseEvent.contentDelta? at content
  split_ifs at content with known
  · rcases known.2 with type | type <;> rw [type] <;> cases thinkingEnabled <;> decide
  · cases content

theorem contentDelta_of_mark {mark : Mark Int} (read : event.mark? = some mark)
    (other : ∀ index, mark ≠ .delta index) : event.contentDelta? = none := by
  unfold SseEvent.contentDelta?
  rw [if_neg]
  rintro ⟨name, -⟩
  rw [mark?_delta name] at read
  obtain ⟨index, -, rfl⟩ := Option.map_eq_some_iff.mp read
  exact other index rfl

/-- A delta under another index carries what it carried. -/
theorem contentDelta_reindex (event : SseEvent) (other : Int) :
    (event.reindex other).contentDelta? = event.contentDelta? := by
  unfold SseEvent.contentDelta?
  rw [deltaType_reindex, delta_reindex]
  rfl

/-- What is sent of an event that is dropped. -/
theorem filterMap_nothing {sent received : List SseEvent}
    (same : sent.filterMap SseEvent.contentDelta? = received.filterMap SseEvent.contentDelta?) :
    (sent ++ []).filterMap SseEvent.contentDelta? =
        (received ++ [event]).filterMap SseEvent.contentDelta? ↔ event.contentDelta? = none := by
  rw [List.append_nil, List.filterMap_append, same]
  cases content : event.contentDelta? with
  | none => simp [content]
  | some payload =>
    refine iff_of_false (fun equal => ?_) (by simp)
    have lengths := congrArg List.length equal
    simp [content] at lengths

/-- What is sent of an event that is passed on. -/
theorem filterMap_passed {sent received : List SseEvent} {other : SseEvent}
    (same : sent.filterMap SseEvent.contentDelta? = received.filterMap SseEvent.contentDelta?)
    (passed : other.contentDelta? = event.contentDelta?) :
    (sent ++ [other]).filterMap SseEvent.contentDelta? =
      (received ++ [event]).filterMap SseEvent.contentDelta? := by
  rw [List.filterMap_append, List.filterMap_append, same, List.filterMap_cons, passed,
    List.filterMap_cons]

end Content

section Answers

variable {relay : Relay} {nest : Nest Int} {upstream : UpstreamBlocks}
  {policy : NativeSseBlockPolicyState} {received out : List SseEvent} {event : SseEvent}

/-- The client's reading of what was sent, and of one more answer. -/
theorem Client.of_relayed (client : Client relay nest)
    (relayed : Relayed ⟨upstream, policy, received, relay.sent ++ out⟩) :
    ∃ after, Reads nest out after ∧ after.opened.card = if upstream.forwards then 1 else 0 := by
  obtain ⟨after, all, count⟩ := relayed.client
  obtain ⟨middle, before, later⟩ := all.split
  obtain rfl := client.reads.unique before
  exact ⟨after, later, count⟩

/-- An index above the one started last has not been started. -/
theorem Client.fresh (client : Client relay nest) {index : Int}
    (above : ∀ last ∈ relay.upstream.last, last < index) : index ∉ nest.seen := by
  intro member
  obtain ⟨last, isLast, atMost⟩ := client.below index member
  exact absurd (above last isLast) (not_lt.mpr atMost)

/-- What was started is at most the index started last. -/
theorem Client.rising_iff (client : Client relay nest)
    (rising : (starts (marks relay.sent)).Pairwise (· < ·)) {index : Int}
    (one : starts (marks out) = [index]) :
    (starts (marks (relay.sent ++ out))).Pairwise (· < ·) ↔
      ∀ last ∈ relay.upstream.last, last < index := by
  rw [marks_append, starts_append, one]
  constructor
  · intro rises last isLast
    exact (List.pairwise_append.mp rises).2.2 last (client.started last isLast) index
      (List.mem_singleton_self _)
  · intro above
    refine List.pairwise_append.mpr ⟨rising, List.pairwise_singleton _ _, ?_⟩
    intro earlier member later single
    rw [List.mem_singleton.mp single]
    obtain ⟨mark, inside, isStart⟩ := List.mem_filterMap.mp member
    cases mark with
    | start started =>
      obtain rfl := Option.some.inj isStart
      obtain ⟨last, isLast, atMost⟩ := client.below _ (Nest.mem_seen_of_run client.reads.accepted inside)
      exact atMost.trans_lt (above last isLast)
    | delta _ => cases isStart
    | stop _ => cases isStart

/-- Without a start the starts stay as they are. -/
theorem rising_of_silent (rising : (starts (marks relay.sent)).Pairwise (· < ·))
    (silent : starts (marks out) = []) :
    (starts (marks (relay.sent ++ out))).Pairwise (· < ·) := by
  rwa [marks_append, starts_append, silent, List.append_nil]

/-- Nor does the block started last change. -/
theorem Client.startedBefore (client : Client relay nest) (silent : starts (marks out) = []) :
    ∀ last ∈ relay.upstream.last, last ∈ starts (marks (relay.sent ++ out)) := by
  rw [marks_append, starts_append, silent, List.append_nil]
  exact client.started

theorem starts_of_start {index : Int} (read : event.mark? = some (.start index)) :
    starts (marks [event]) = [index] := by
  rw [marks_cons_some read, marks_nil]
  rfl

/-- A second block is not read while one is to be open. -/
theorem Client.not_second (client : Client relay nest) (forwards : relay.upstream.forwards = true)
    (began : relay.upstream.last.isSome = true) (still : upstream.forwards = true) {index : Int}
    (read : event.mark? = some (.start index)) {rest : List SseEvent}
    (silent : ∀ middle after, Reads middle rest after → middle.opened ⊆ after.opened) :
    ¬ Relayed ⟨upstream, policy, received, relay.sent ++ event :: rest⟩ := by
  intro relayed
  obtain ⟨after, reads, count⟩ := client.of_relayed relayed
  obtain ⟨middle, first, later⟩ := reads.uncons
  obtain ⟨fresh, same⟩ := Option.ite_none_left_eq_some.mp ((Reads.single_iff read).mp first)
  obtain ⟨last, isLast⟩ := Option.isSome_iff_exists.mp began
  have isOpen : last ∈ nest.opened := (client.opened last).mpr ⟨forwards, isLast⟩
  have within := silent middle after later
  rw [← Option.some.inj same, Nest.opened_start] at within
  rw [still, if_pos rfl] at count
  have one : index = last := Finset.card_le_one.mp count.le index
    (within (Finset.mem_insert_self _ _)) last (within (Finset.mem_insert_of_mem isOpen))
  exact fresh (one ▸ nest.within isOpen)

/-- Nor is a delta or a stop of a block that is not open. -/
theorem Client.not_past (client : Client relay nest) {index : Int} (gone : index ∉ nest.opened)
    {mark : Mark Int} (read : event.mark? = some mark)
    (shape : mark = .delta index ∨ mark = .stop index) {rest : List SseEvent} :
    ¬ Relayed ⟨upstream, policy, received, relay.sent ++ event :: rest⟩ := by
  intro relayed
  obtain ⟨after, reads, -⟩ := client.of_relayed relayed
  obtain ⟨middle, first, -⟩ := reads.uncons
  have stepped := (Reads.single_iff read).mp first
  rcases shape with rfl | rfl
  · exact gone (Option.ite_none_right_eq_some.mp stepped).1
  · exact gone (Option.ite_none_right_eq_some.mp stepped).1

/-- One block too many or too few is seen at once. -/
theorem Client.not_silent (client : Client relay nest) (knows : Knows relay.upstream relay.policy)
    (moved : relay.upstream.forwards ≠ upstream.forwards) :
    ¬ Relayed ⟨upstream, policy, received, relay.sent ++ []⟩ := by
  intro relayed
  obtain ⟨after, silent, count⟩ := client.of_relayed relayed
  obtain rfl := Reads.nil_iff.mp silent
  rw [client.card knows] at count
  revert count moved
  cases relay.upstream.forwards <;> cases upstream.forwards <;> simp

end Answers

/-! ### One frame -/

section Step

variable {thinkingEnabled : Bool} {relay : Relay} {frame : NativeFrame} {index : Int}

/-- What one frame comes to: clean frames keep the invariant, and only they are relayed. -/
def Accounts (thinkingEnabled : Bool) (relay : Relay) (frame : NativeFrame) (next : Relay) : Prop :=
  (relay.upstream.Clean thinkingEnabled frame → Tracks next) ∧
    (Relayed next → relay.upstream.Clean thinkingEnabled frame)

theorem clean_start (read : frame.event.mark? = some (.start index)) :
    relay.upstream.Clean thinkingEnabled frame ↔
      relay.upstream.StartsCleanly thinkingEnabled frame index := by
  unfold UpstreamBlocks.Clean
  rw [read]

theorem clean_delta (read : frame.event.mark? = some (.delta index)) :
    relay.upstream.Clean thinkingEnabled frame ↔
      relay.upstream.ExtendsCleanly thinkingEnabled frame index := by
  unfold UpstreamBlocks.Clean
  rw [read]

theorem clean_stop (read : frame.event.mark? = some (.stop index)) :
    relay.upstream.Clean thinkingEnabled frame ↔
      relay.upstream.StopsCleanly thinkingEnabled frame index := by
  unfold UpstreamBlocks.Clean
  rw [read]

/-- The step, by its parts. -/
theorem relaying_step {next : Relay} (stepped : (relaying thinkingEnabled).step relay frame = some next) :
    ∃ upstream out policy, relay.upstream.step thinkingEnabled frame = some upstream ∧
      transformNativeSseFrame frame relay.policy thinkingEnabled = .ok (out, policy) ∧
      next = ⟨upstream, policy, relay.received ++ [frame.event], relay.sent ++ out.getD []⟩ := by
  obtain ⟨upstream, tracked, answered⟩ := Option.bind_eq_some_iff.mp stepped
  cases answer : transformNativeSseFrame frame relay.policy thinkingEnabled with
  | error error =>
    rw [answer] at answered
    cases answered
  | ok result =>
    rw [answer] at answered
    exact ⟨upstream, result.1, result.2, tracked, rfl, (Option.some.inj answered).symm⟩

/-- A frame of no block. -/
theorem tracks_other (tracks : Tracks relay) (other : frame.event.isBlockEvent = false) :
    Tracks ⟨relay.upstream, relay.policy, relay.received ++ [frame.event],
      relay.sent ++ [frame.event]⟩ := by
  obtain ⟨nest, client⟩ := tracks.client
  have unread := SseEvent.mark?_eq_none_of_not_block other
  have alone : ∀ each ∈ [frame.event], each.isBlockEvent = false := by simpa using other
  have silent : starts (marks [frame.event]) = [] := by
    rw [marks_cons_none unread, marks_nil]
    rfl
  exact ⟨⟨nest, client.reads.append (Reads.others alone), client.opened, client.below,
    client.startedBefore silent, client.past⟩, rising_of_silent tracks.rising silent,
    filterMap_passed tracks.content rfl, tracks.knows⟩

/-! ### Starts -/

/-- The blocks behind the start of one that is dropped. -/
theorem start_dropped (drops : shouldDropBlockType frame.event.blockType thinkingEnabled = true) :
    relay.upstream.start thinkingEnabled frame index =
      { relay.upstream with
        current := some index, forwards := false, dropped := insert index relay.upstream.dropped } := by
  rw [UpstreamBlocks.start, if_pos drops]

/-- A dropped block: the one before it must have ended. -/
theorem tracks_droppedStart (tracks : Tracks relay)
    (read : frame.event.mark? = some (.start index)) (decoded : frame.decoded = true)
    (drops : shouldDropBlockType frame.event.blockType thinkingEnabled = true) :
    Accounts thinkingEnabled relay frame
      ⟨relay.upstream.start thinkingEnabled frame index,
        { relay.policy with droppedIndexes := insert index relay.policy.droppedIndexes },
        relay.received ++ [frame.event], relay.sent ++ []⟩ := by
  obtain ⟨nest, client⟩ := tracks.client
  have knows := tracks.knows
  have noContent : frame.event.contentDelta? = none := contentDelta_of_mark read nofun
  unfold Accounts
  rw [clean_start read, UpstreamBlocks.StartsCleanly, if_pos drops, start_dropped drops]
  constructor
  · rintro ⟨ended, -⟩
    have hides := hides_of_ended ended
    refine ⟨⟨nest, ?_, fun other => ?_, client.below, client.startedBefore rfl, fun other seg found _ => ?_⟩,
      rising_of_silent tracks.rising rfl, (filterMap_nothing tracks.content).mpr noContent,
      knows.next, congrArg (insert index) knows.dropped, knows.unsuppressed, knows.known,
      fun other shows => ?_, nofun, nofun, fun other seg found isOpen => ?_, knows.stale,
      fun other isCurrent _ => ?_, nofun⟩
    · exact client.reads.append (Reads.nil nest)
    · rw [client.opened, ended]
    · exact client.past other seg found (hides other)
    · exact absurd shows.forwards Bool.false_ne_true
    · exact .inr ((knows.onlyOpen other seg found isOpen).resolve_left (hides other))
    · obtain rfl := Option.some.inj isCurrent
      exact Finset.mem_insert_self _ _
  · intro relayed
    refine ⟨?_, decoded⟩
    by_contra held
    exact client.not_silent knows held relayed

/-- The blocks behind the start of one that is forwarded. -/
theorem start_forwarded (keeps : shouldDropBlockType frame.event.blockType thinkingEnabled = false) :
    relay.upstream.start thinkingEnabled frame index =
      if frame.decoded then
        { relay.upstream with
          current := some index, forwards := true, sighted := true
          forwarded := relay.upstream.forwarded + 1, known := insert index relay.upstream.known
          stale := ∅, last := some relay.upstream.forwarded }
      else { relay.upstream with
        current := some index, forwards := true, sighted := false, last := some index } := by
  rw [UpstreamBlocks.start, if_neg (by rw [keeps]; exact Bool.false_ne_true)]

/-- A block that the policy sees is read at its next index, if the one before it has ended. -/
theorem client_started {nest : Nest Int} (client : Client relay nest)
    (ended : relay.upstream.forwards = false) {other : SseEvent} {number : Int}
    (read : other.mark? = some (.start number)) (above : ∀ last ∈ relay.upstream.last, last < number)
    {upstream : UpstreamBlocks} (forwards : upstream.forwards = true)
    (last : upstream.last = some number) {policy : NativeSseBlockPolicyState}
    {received : List SseEvent}
    (past : ∀ index seg, policy.byUpstream.get? index = some seg → ¬ upstream.Shows index →
      relay.policy.byUpstream.get? index = some seg) :
    Client ⟨upstream, policy, received, relay.sent ++ [other]⟩ (nest.start number) := by
  have fresh := client.fresh above
  have closed : ∀ index, index ∉ nest.opened := fun index member => by
    have opens := ((client.opened index).mp member).1
    rw [ended] at opens
    cases opens
  refine ⟨client.reads.append ((Reads.single_iff read).mpr (Nest.step_start fresh)), fun index => ?_,
    fun index member => ?_, fun each isLast => ?_, fun index seg found hides => ?_⟩
  · rw [Nest.opened_start, Finset.mem_insert]
    constructor
    · intro either
      obtain rfl := either.resolve_right (closed index)
      exact ⟨forwards, last⟩
    · rintro ⟨-, isLast⟩
      exact .inl (Option.some.inj (isLast.symm.trans last))
  · refine ⟨number, last, ?_⟩
    rcases Finset.mem_insert.mp member with rfl | before
    · exact le_rfl
    · obtain ⟨each, isLast, atMost⟩ := client.below index before
      exact atMost.trans (above each isLast).le
  · obtain rfl := Option.some.inj (last.symm.trans isLast)
    show number ∈ starts (marks (relay.sent ++ [other]))
    rw [marks_append, starts_append, starts_of_start read]
    exact List.mem_append_right _ (List.mem_singleton_self _)
  · obtain ⟨isSeen, notOpen⟩ := client.past index seg (past index seg found hides) (hides_of_ended ended index)
    refine ⟨Finset.mem_insert_of_mem isSeen, fun member => ?_⟩
    rcases Finset.mem_insert.mp member with same | inside
    · exact fresh (same ▸ isSeen)
    · exact notOpen inside

/-- A block that the policy forwards. -/
theorem tracks_seenStart (tracks : Tracks relay) (read : frame.event.mark? = some (.start index))
    (decoded : frame.decoded = true)
    (keeps : shouldDropBlockType frame.event.blockType thinkingEnabled = false)
    (current : relay.upstream.current.getD index = index) (blockType : String)
    (block : List (String × Json)) :
    Accounts thinkingEnabled relay frame
      ⟨relay.upstream.start thinkingEnabled frame index,
        (allocateNewSegment (syntheticCloseOtherOpenBlocks relay.policy index).2 index blockType
          (some block)).2,
        relay.received ++ [frame.event],
        relay.sent ++ ((syntheticCloseOtherOpenBlocks relay.policy index).1 ++
          [frame.event.reindex relay.policy.nextIndex])⟩ := by
  obtain ⟨nest, client⟩ := tracks.client
  have knows := tracks.knows
  have keepsNot : ¬ shouldDropBlockType frame.event.blockType thinkingEnabled = true := by
    rw [keeps]
    exact Bool.false_ne_true
  have readNew := mark?_reindex_start read relay.policy.nextIndex
  have notCurrent : ∀ other, other ≠ index → ¬ relay.upstream.Shows other := by
    intro other different shows
    rw [shows.current] at current
    exact different current
  unfold Accounts
  rw [clean_start read, UpstreamBlocks.StartsCleanly, if_neg keepsNot, if_pos decoded,
    start_forwarded keeps, if_pos decoded]
  by_cases missed : ∀ other ∈ relay.upstream.stale, other = index
  · -- no other block is open for the policy
    have idle : syntheticCloseOtherOpenBlocks relay.policy index = ([], relay.policy) := by
      refine syntheticClose_of_others fun other seg found different => ?_
      by_contra isOpen
      rcases knows.onlyOpen other seg found ((Bool.not_eq_false _).mp isOpen) with shows | stale
      · exact notCurrent other different shows
      · exact different (missed other stale)
    rw [idle, List.nil_append]
    have lookup : ∀ other,
        (allocateNewSegment relay.policy index blockType (some block)).2.byUpstream.get? other =
          if other = index then some ⟨blockType, relay.policy.nextIndex, true, some block⟩
          else relay.policy.byUpstream.get? other := fun other => Dict.get?_set _ _ _ _
    constructor
    · rintro ⟨ended, above, -⟩
      have onlyThis : ∀ other, ¬ other = index → ∀ seg,
          (allocateNewSegment relay.policy index blockType (some block)).2.byUpstream.get? other =
            some seg → relay.policy.byUpstream.get? other = some seg := by
        intro other different seg found
        rwa [lookup, if_neg different] at found
      rw [← knows.next] at above
      refine ⟨⟨_, client_started client ended readNew above rfl ?_ fun other seg found hides => ?_⟩,
        (client.rising_iff tracks.rising (starts_of_start readNew)).mpr above,
        filterMap_passed tracks.content ?_, congrArg (· + 1) knows.next, knows.dropped,
        knows.unsuppressed, fun other => ?_, fun other shows => ?_, nofun, fun _ _ => rfl,
        fun other seg found isOpen => ?_, fun other member => absurd member (Finset.notMem_empty _), fun _ _ ended => (nomatch ended),
        fun _ => rfl⟩
      · exact congrArg some knows.next.symm
      · refine onlyThis other (fun same => hides ?_) seg found
        exact ⟨rfl, rfl, congrArg some same.symm⟩
      · have noContent := contentDelta_of_mark read nofun
        rw [noContent]
        exact contentDelta_of_mark readNew nofun
      · show ((allocateNewSegment relay.policy index blockType (some block)).2.byUpstream.get?
          other).isSome = true ↔ other ∈ insert index relay.upstream.known
        rw [lookup, Finset.mem_insert, ← knows.known]
        split_ifs with same
        · exact iff_of_true rfl (.inl same)
        · exact (or_iff_right same).symm
      · obtain rfl := Option.some.inj shows.current
        exact ⟨_, by rw [lookup, if_pos rfl], rfl, congrArg some knows.next.symm⟩
      · by_cases same : other = index
        · exact .inl ⟨rfl, rfl, congrArg some same.symm⟩
        · have before := onlyThis other same seg found
          rcases knows.onlyOpen other seg before isOpen with shows | stale
          · exact absurd shows (notCurrent other same)
          · exact absurd (missed other stale) same
    · intro relayed
      refine ⟨?_, ?_, missed⟩
      · by_contra held
        have forwards := (Bool.not_eq_false _).mp held
        refine client.not_second forwards (knows.began forwards) rfl readNew ?_ relayed
        intro middle after nothing
        rw [Reads.nil_iff.mp nothing]
      · rw [← knows.next]
        exact (client.rising_iff tracks.rising (starts_of_start readNew)).mp relayed.rising
  · -- the stop that the policy has missed is sent again
    refine ⟨fun clean => absurd clean.2.2 missed, fun relayed => ?_⟩
    obtain ⟨other, stale, different⟩ : ∃ other ∈ relay.upstream.stale, other ≠ index := by
      by_contra none
      exact missed fun other stale => by_contra fun different => none ⟨other, stale, different⟩
    obtain ⟨seg, found, isOpen⟩ := knows.stale other stale
    obtain ⟨first, firstSeg, rest, firstFound, apart, -, closes⟩ :=
      syntheticClose_of_open found different isOpen
    rw [closes, List.cons_append] at relayed
    have gone := (client.past first firstSeg firstFound (notCurrent first apart)).2
    exact absurd relayed (client.not_past gone (mark?_contentBlockStop _) (.inr rfl))

/-- A block that the policy does not see. -/
theorem tracks_unseenStart (tracks : Tracks relay) (read : frame.event.mark? = some (.start index))
    (undecoded : frame.decoded = false) :
    Accounts thinkingEnabled relay frame
      ⟨relay.upstream.start thinkingEnabled frame index, relay.policy,
        relay.received ++ [frame.event], relay.sent ++ [frame.event]⟩ := by
  obtain ⟨nest, client⟩ := tracks.client
  have knows := tracks.knows
  have notDecoded : ¬ frame.decoded = true := by
    rw [undecoded]
    exact Bool.false_ne_true
  unfold Accounts
  rw [clean_start read, UpstreamBlocks.StartsCleanly, if_neg notDecoded]
  cases drops : shouldDropBlockType frame.event.blockType thinkingEnabled with
  | true =>
    rw [if_pos rfl, start_dropped drops]
    refine ⟨fun clean => absurd clean.2 notDecoded, fun relayed => ?_⟩
    -- it is open at the client
    obtain ⟨after, reads, count⟩ := client.of_relayed relayed
    obtain ⟨-, same⟩ := Option.ite_none_left_eq_some.mp ((Reads.single_iff read).mp reads)
    have closed := Finset.card_eq_zero.mp count
    have isOpen : index ∈ after.opened := by
      rw [← Option.some.inj same, Nest.opened_start]
      exact Finset.mem_insert_self _ _
    rw [closed] at isOpen
    exact absurd isOpen (Finset.notMem_empty _)
  | false =>
    rw [if_neg Bool.false_ne_true, start_forwarded drops, if_neg notDecoded]
    constructor
    · rintro ⟨ended, above⟩
      refine ⟨⟨_, client_started client ended read above rfl rfl fun _ _ found _ => found⟩,
        (client.rising_iff tracks.rising (starts_of_start read)).mpr above,
        filterMap_passed tracks.content rfl, knows.next, knows.dropped, knows.unsuppressed, knows.known,
        fun other shows => (nomatch shows.sighted), fun _ _ => rfl, nofun,
        fun other seg found isOpen => ?_, knows.stale, fun _ _ ended => (nomatch ended), fun _ => rfl⟩
      exact .inr ((knows.onlyOpen other seg found isOpen).resolve_left (hides_of_ended ended other))
    · intro relayed
      refine ⟨?_, (client.rising_iff tracks.rising (starts_of_start read)).mp relayed.rising⟩
      by_contra held
      have forwards := (Bool.not_eq_false _).mp held
      refine client.not_second forwards (knows.began forwards) rfl read ?_ relayed
      intro middle after nothing
      rw [Reads.nil_iff.mp nothing]

/-- The typed block of a start. -/
theorem block_of_start {event : SseEvent} (typed : event.blockType.asStr?.isSome = true) :
    ∃ block name, event.contentBlock = .obj block ∧ getKey block "type" = .str name := by
  unfold SseEvent.blockType at typed
  cases content : event.contentBlock with
  | obj block =>
    rw [content] at typed
    cases type : getKey block "type" with
    | str name => exact ⟨block, name, rfl, type⟩
    | _ =>
      change (getKey block "type").asStr?.isSome = true at typed
      rw [type] at typed
      cases typed
  | _ =>
    rw [content] at typed
    cases typed

/-- **A block starts.** -/
theorem tracks_start (tracks : Tracks relay) (read : frame.event.mark? = some (.start index))
    {upstream : UpstreamBlocks} (tracked : relay.upstream.step thinkingEnabled frame = some upstream)
    {out : Option (List SseEvent)} {policy : NativeSseBlockPolicyState}
    (answer : transformNativeSseFrame frame relay.policy thinkingEnabled = .ok (out, policy)) :
    Accounts thinkingEnabled relay frame
      ⟨upstream, policy, relay.received ++ [frame.event], relay.sent ++ out.getD []⟩ := by
  unfold UpstreamBlocks.step at tracked
  rw [read] at tracked
  dsimp only at tracked
  split_ifs at tracked with fits
  obtain ⟨current, typed⟩ := fits
  obtain rfl := Option.some.inj tracked
  obtain ⟨block, blockType, isBlock, isType⟩ := block_of_start typed
  unfold transformNativeSseFrame at answer
  cases decoded : frame.decoded with
  | false =>
    rw [decoded, if_neg Bool.false_ne_true] at answer
    obtain ⟨rfl, rfl⟩ := Prod.mk.inj (Except.ok.inj answer)
    exact tracks_unseenStart tracks read decoded
  | true =>
    rw [decoded, if_pos rfl] at answer
    cases drops : shouldDropBlockType frame.event.blockType thinkingEnabled with
    | true =>
      rw [transform_droppedStart read isBlock drops] at answer
      obtain ⟨rfl, rfl⟩ := Prod.mk.inj (Except.ok.inj answer)
      exact tracks_droppedStart tracks read decoded drops
    | false =>
      rw [transform_keptStart read isBlock isType drops] at answer
      obtain ⟨rfl, rfl⟩ := Prod.mk.inj (Except.ok.inj answer)
      exact tracks_seenStart tracks read decoded drops current blockType block

/-! ### Deltas -/

/-- A delta of which nothing is sent. -/
theorem tracks_droppedDelta (tracks : Tracks relay)
    (clean : relay.upstream.Clean thinkingEnabled frame ↔ frame.event.contentDelta? = none) :
    Accounts thinkingEnabled relay frame
      ⟨relay.upstream, relay.policy, relay.received ++ [frame.event], relay.sent ++ []⟩ := by
  obtain ⟨nest, client⟩ := tracks.client
  unfold Accounts
  rw [clean]
  refine ⟨fun silent => ?_, fun relayed => (filterMap_nothing tracks.content).mp relayed.content⟩
  exact ⟨⟨nest, client.reads.append (Reads.nil nest), client.opened, client.below,
    client.startedBefore rfl, client.past⟩, rising_of_silent tracks.rising rfl,
    (filterMap_nothing tracks.content).mpr silent, tracks.knows⟩

/-- A delta that is passed on at an index: that of the client's open block. -/
theorem tracks_passedDelta (tracks : Tracks relay) {other : SseEvent} {down : Int}
    (read : other.mark? = some (.delta down))
    (passed : other.contentDelta? = frame.event.contentDelta?)
    (clean : relay.upstream.Clean thinkingEnabled frame ↔
      relay.upstream.forwards = true ∧ relay.upstream.last = some down) :
    Accounts thinkingEnabled relay frame
      ⟨relay.upstream, relay.policy, relay.received ++ [frame.event], relay.sent ++ [other]⟩ := by
  obtain ⟨nest, client⟩ := tracks.client
  have silent := starts_of_mark read nofun
  unfold Accounts
  rw [clean, ← client.opened]
  constructor
  · intro inside
    exact ⟨⟨nest, client.reads.append ((Reads.single_iff read).mpr (Nest.step_delta inside)),
      client.opened, client.below, client.startedBefore silent, client.past⟩,
      rising_of_silent tracks.rising silent, filterMap_passed tracks.content passed, tracks.knows⟩
  · intro relayed
    by_contra gone
    exact client.not_past gone read (.inl rfl) relayed

/-- A delta that starts another block. -/
theorem tracks_openingDelta (tracks : Tracks relay) (forwards : relay.upstream.forwards = true)
    {other : SseEvent} {number down : Int} {block : List (String × Json)}
    (read : other.mark? = some (.delta down))
    (unclean : ¬ relay.upstream.Clean thinkingEnabled frame) (policy : NativeSseBlockPolicyState) :
    Accounts thinkingEnabled relay frame
      ⟨relay.upstream, policy, relay.received ++ [frame.event],
        relay.sent ++ [contentBlockStart number block, other]⟩ := by
  obtain ⟨nest, client⟩ := tracks.client
  refine ⟨fun clean => absurd clean unclean, fun relayed => absurd relayed ?_⟩
  refine client.not_second forwards (tracks.knows.began forwards) forwards
    (mark?_contentBlockStart number block) fun middle after reads => ?_
  obtain ⟨-, same⟩ := Option.ite_none_right_eq_some.mp ((Reads.single_iff read).mp reads)
  rw [← Option.some.inj same]

/-- A delta that is decoded, at an index at which nothing was dropped. -/
theorem tracks_shownDelta (tracks : Tracks relay) (read : frame.event.mark? = some (.delta index))
    (decoded : frame.decoded = true) {delta : List (String × Json)}
    (isDelta : frame.event.delta = .obj delta) (current : relay.upstream.current = some index)
    (forwards : relay.upstream.forwards = true) (shown : index ∉ relay.upstream.dropped)
    (keeps : shouldDropBlockType frame.event.deltaType thinkingEnabled = false)
    {out : Option (List SseEvent)} {policy : NativeSseBlockPolicyState}
    (answer : transformNativeSseBlockEvent frame.event relay.policy thinkingEnabled = .ok (out, policy)) :
    Accounts thinkingEnabled relay frame
      ⟨relay.upstream, policy, relay.received ++ [frame.event], relay.sent ++ out.getD []⟩ := by
  obtain ⟨nest, client⟩ := tracks.client
  have knows := tracks.knows
  have shown' : index ∉ relay.policy.droppedIndexes := knows.dropped ▸ shown
  have clean : relay.upstream.Clean thinkingEnabled frame ↔
      (deltaTypeToBlockKind frame.event.deltaType = none → relay.upstream.last = some index) ∧
        (relay.upstream.sighted = true ∨ ∀ kind ∈ deltaTypeToBlockKind frame.event.deltaType,
          kind = "thinking" ∧ index ∉ relay.upstream.known) := by
    rw [clean_delta read, UpstreamBlocks.ExtendsCleanly, if_pos decoded]
    exact ⟨fun both => both.2 forwards shown keeps, fun given => ⟨fun _ => shown, fun _ _ _ => given⟩⟩
  cases mapped : deltaTypeToBlockKind frame.event.deltaType with
  | none =>
    rw [mapped] at clean
    rw [transform_unmappedDelta read isDelta shown' keeps mapped] at answer
    obtain ⟨rfl, rfl⟩ := Prod.mk.inj (Except.ok.inj answer)
    refine tracks_passedDelta tracks read rfl (clean.trans ?_)
    exact ⟨fun given => ⟨forwards, given.1 rfl⟩, fun given => ⟨fun _ => given.2, .inr nofun⟩⟩
  | some kind =>
    rw [mapped] at clean
    cases sighted : relay.upstream.sighted with
    | true =>
      obtain ⟨seg, found, isOpen, number⟩ := knows.shown index ⟨forwards, sighted, current⟩
      rw [transform_openDelta read isDelta shown' keeps mapped found isOpen] at answer
      obtain ⟨rfl, rfl⟩ := Prod.mk.inj (Except.ok.inj answer)
      refine tracks_passedDelta tracks (mark?_reindex_delta read _) (contentDelta_reindex _ _)
        (clean.trans ?_)
      exact iff_of_true ⟨nofun, .inl sighted⟩ ⟨forwards, number⟩
    | false =>
      have notSighted : ¬ relay.upstream.sighted = true := by
        rw [sighted]
        exact Bool.false_ne_true
      rcases found : relay.policy.byUpstream.get? index with _ | seg
      · have unknown : index ∉ relay.upstream.known := by
          rw [← knows.known, found]
          exact Bool.false_ne_true
        by_cases thinking : kind = "thinking"
        · rw [transform_thinkingDelta read isDelta shown' keeps mapped found thinking] at answer
          obtain ⟨rfl, rfl⟩ := Prod.mk.inj (Except.ok.inj answer)
          refine tracks_passedDelta tracks read rfl (clean.trans ?_)
          refine iff_of_true ⟨nofun, .inr fun other same => ?_⟩
            ⟨forwards, (knows.unseen forwards sighted).trans current⟩
          exact ⟨(Option.some.inj same) ▸ thinking, unknown⟩
        · obtain ⟨block, state', starting⟩ :=
            transform_startingDelta read isDelta shown' keeps mapped found thinking
          rw [starting] at answer
          obtain ⟨rfl, rfl⟩ := Prod.mk.inj (Except.ok.inj answer)
          refine tracks_openingDelta tracks forwards (mark?_reindex_delta read _) ?_ _
          exact fun given => thinking (((clean.mp given).2.resolve_left notSighted) kind rfl).1
      · have isKnown : index ∈ relay.upstream.known := by
          rw [← knows.known, found]
          rfl
        have unclean : ¬ relay.upstream.Clean thinkingEnabled frame := fun given =>
          (((clean.mp given).2.resolve_left notSighted) kind rfl).2 isKnown
        cases isOpen : seg.isOpen with
        | true =>
          rw [transform_openDelta read isDelta shown' keeps mapped found isOpen] at answer
          obtain ⟨rfl, rfl⟩ := Prod.mk.inj (Except.ok.inj answer)
          have gone := (client.past index seg found fun shows => notSighted shows.sighted).2
          exact ⟨fun given => absurd given unclean, fun relayed =>
            absurd relayed (client.not_past gone (mark?_reindex_delta read _) (.inl rfl))⟩
        | false =>
          rw [transform_reopeningDelta read isDelta shown' keeps mapped found isOpen] at answer
          obtain ⟨rfl, rfl⟩ := Prod.mk.inj (Except.ok.inj answer)
          exact tracks_openingDelta tracks forwards (mark?_reindex_delta read _) unclean _

/-- **A delta.** -/
theorem tracks_delta (tracks : Tracks relay) (read : frame.event.mark? = some (.delta index))
    {upstream : UpstreamBlocks} (tracked : relay.upstream.step thinkingEnabled frame = some upstream)
    {out : Option (List SseEvent)} {policy : NativeSseBlockPolicyState}
    (answer : transformNativeSseFrame frame relay.policy thinkingEnabled = .ok (out, policy)) :
    Accounts thinkingEnabled relay frame
      ⟨upstream, policy, relay.received ++ [frame.event], relay.sent ++ out.getD []⟩ := by
  unfold UpstreamBlocks.step at tracked
  rw [read] at tracked
  dsimp only at tracked
  split_ifs at tracked with fits
  obtain ⟨current, isObject⟩ := fits
  obtain rfl := Option.some.inj tracked
  obtain ⟨delta, isDelta⟩ : ∃ delta, frame.event.delta = .obj delta := by
    cases value : frame.event.delta with
    | obj delta => exact ⟨delta, rfl⟩
    | _ =>
      rw [value] at isObject
      cases isObject
  unfold transformNativeSseFrame at answer
  cases decoded : frame.decoded with
  | false =>
    rw [decoded, if_neg Bool.false_ne_true] at answer
    obtain ⟨rfl, rfl⟩ := Prod.mk.inj (Except.ok.inj answer)
    refine tracks_passedDelta tracks read rfl ?_
    rw [clean_delta read, UpstreamBlocks.ExtendsCleanly, decoded, if_neg Bool.false_ne_true]
  | true =>
    rw [decoded, if_pos rfl] at answer
    have silent : frame.event.contentDelta? = none ↔ ¬ frame.event.contentDelta?.isSome = true := by
      cases frame.event.contentDelta? <;> simp
    by_cases hidden : index ∈ relay.upstream.dropped
    · rw [transform_hiddenDelta read isDelta (tracks.knows.dropped ▸ hidden)] at answer
      obtain ⟨rfl, rfl⟩ := Prod.mk.inj (Except.ok.inj answer)
      refine tracks_droppedDelta tracks ?_
      rw [clean_delta read, UpstreamBlocks.ExtendsCleanly, if_pos decoded, silent]
      exact ⟨fun given content => given.1 content hidden,
        fun none => ⟨fun content => absurd content none, fun _ shown => absurd hidden shown⟩⟩
    · have forwards : relay.upstream.forwards = true := by
        by_contra held
        exact hidden (tracks.knows.hidden index current ((Bool.not_eq_true _).mp held))
      cases drops : shouldDropBlockType frame.event.deltaType thinkingEnabled with
      | true =>
        rw [transform_droppedDelta read isDelta drops] at answer
        obtain ⟨rfl, rfl⟩ := Prod.mk.inj (Except.ok.inj answer)
        refine tracks_droppedDelta tracks ?_
        rw [clean_delta read, UpstreamBlocks.ExtendsCleanly, if_pos decoded, silent, drops]
        refine iff_of_true ⟨fun _ => hidden, fun _ _ kept => nomatch kept⟩ fun content => ?_
        have keeps := (@contentDelta_kind frame.event thinkingEnabled content).1
        rw [drops] at keeps
        cases keeps
      | false =>
        exact tracks_shownDelta tracks read decoded isDelta current forwards hidden drops answer

/-! ### Stops -/

/-- The client's block is stopped. -/
theorem client_stopped {nest : Nest Int} (client : Client relay nest)
    (knows : Knows relay.upstream relay.policy) {other : SseEvent} {down : Int}
    (read : other.mark? = some (.stop down)) (inside : down ∈ nest.opened)
    {policy : NativeSseBlockPolicyState} {received : List SseEvent}
    (same : ∀ each seg, policy.byUpstream.get? each = some seg →
      ∃ old, relay.policy.byUpstream.get? each = some old ∧ old.downIndex = seg.downIndex) :
    Client ⟨relay.upstream.stop frame index, policy, received, relay.sent ++ [other]⟩
      (nest.stop down) := by
  obtain ⟨-, isLast⟩ := (client.opened down).mp inside
  have closed : ∀ each, each ∉ (nest.stop down).opened := by
    intro each member
    rw [Nest.opened_stop, Finset.mem_erase, client.opened] at member
    exact member.1 (Option.some.inj (member.2.2.symm.trans isLast))
  have silent := starts_of_mark read nofun
  refine ⟨client.reads.append ((Reads.single_iff read).mpr (Nest.step_stop inside)), fun each => ?_,
    client.below, client.startedBefore silent, fun each seg found _ => ⟨?_, closed _⟩⟩
  · exact iff_of_false (closed each) fun both => Bool.false_ne_true both.1
  · obtain ⟨old, foundOld, sameIndex⟩ := same each seg found
    rw [← sameIndex]
    by_cases shows : relay.upstream.Shows each
    · obtain ⟨current, foundCurrent, -, number⟩ := knows.shown each shows
      obtain rfl := Option.some.inj (foundOld.symm.trans foundCurrent)
      exact nest.within ((client.opened _).mpr ⟨shows.forwards, number⟩)
    · exact (client.past each old foundOld shows).1

/-- The policy stays as it is. -/
theorem knows_stopped (knows : Knows relay.upstream relay.policy)
    (current : relay.upstream.current = some index)
    (missed : ∀ other, relay.upstream.Shows other → other ∈ (relay.upstream.stop frame index).stale) :
    Knows (relay.upstream.stop frame index) relay.policy := by
  have within : ∀ other ∈ relay.upstream.stale, other ∈ (relay.upstream.stop frame index).stale := by
    intro other member
    unfold UpstreamBlocks.stop
    dsimp only
    split_ifs
    · exact Finset.mem_insert_of_mem member
    · exact member
  refine ⟨knows.next, knows.dropped, knows.unsuppressed, knows.known,
    fun other shows => (nomatch shows.forwards), nofun, nofun, fun other seg found isOpen => .inr ?_,
    fun other member => ?_, nofun, nofun⟩
  · exact (knows.onlyOpen other seg found isOpen).elim (missed other) (within other)
  · unfold UpstreamBlocks.stop at member
    dsimp only at member
    split_ifs at member with seen
    · rcases Finset.mem_insert.mp member with rfl | before
      · rw [Bool.and_eq_true, Bool.and_eq_true] at seen
        obtain ⟨seg, found, isOpen, -⟩ := knows.shown other ⟨seen.1.1, seen.1.2, current⟩
        exact ⟨seg, found, isOpen⟩
      · exact knows.stale other before
    · exact knows.stale other member

/-- The policy's segment is closed. -/
theorem knows_closed (knows : Knows relay.upstream relay.policy) (shows : relay.upstream.Shows index)
    (decoded : frame.decoded = true) {seg : UpstreamBlockState}
    (found : relay.policy.byUpstream.get? index = some seg) :
    Knows (relay.upstream.stop frame index)
      { relay.policy with
        byUpstream := relay.policy.byUpstream.set index { seg with isOpen := false } } := by
  have lookup : ∀ other, (relay.policy.byUpstream.set index { seg with isOpen := false }).get? other =
      if other = index then some { seg with isOpen := false }
      else relay.policy.byUpstream.get? other := fun other => Dict.get?_set _ _ _ _
  have nothing : (relay.upstream.stop frame index).stale = ∅ := by
    unfold UpstreamBlocks.stop
    rw [decoded, Bool.not_true, Bool.and_false]
    exact knows.settled shows.forwards shows.sighted
  refine ⟨knows.next, knows.dropped, knows.unsuppressed, fun other => ?_,
    fun other shows => (nomatch shows.forwards), nofun, nofun, fun other seg' found' isOpen => ?_,
    fun other member => ?_, nofun, nofun⟩
  · show ((relay.policy.byUpstream.set index { seg with isOpen := false }).get? other).isSome = true ↔ _
    rw [lookup]
    split_ifs with same
    · refine iff_of_true rfl ?_
      rw [same]
      exact (knows.known index).mp (found ▸ rfl)
    · exact knows.known other
  · rw [lookup] at found'
    split_ifs at found' with same
    · rw [← Option.some.inj found'] at isOpen
      cases isOpen
    · rcases knows.onlyOpen other seg' found' isOpen with shown | stale
      · exact absurd (Option.some.inj (shown.current.symm.trans shows.current)) same
      · rw [knows.settled shows.forwards shows.sighted] at stale
        exact absurd stale (Finset.notMem_empty _)
  · rw [nothing] at member
    exact absurd member (Finset.notMem_empty _)

/-- The stop goes out at an index: that of the client's open block. -/
theorem tracks_passedStop (tracks : Tracks relay) (read : frame.event.mark? = some (.stop index))
    {other : SseEvent} {down : Int} (readOther : other.mark? = some (.stop down))
    {policy : NativeSseBlockPolicyState}
    (same : ∀ each seg, policy.byUpstream.get? each = some seg →
      ∃ old, relay.policy.byUpstream.get? each = some old ∧ old.downIndex = seg.downIndex)
    (knows : relay.upstream.Clean thinkingEnabled frame →
      Knows (relay.upstream.stop frame index) policy)
    (clean : relay.upstream.Clean thinkingEnabled frame ↔
      relay.upstream.forwards = true ∧ relay.upstream.last = some down) :
    Accounts thinkingEnabled relay frame
      ⟨relay.upstream.stop frame index, policy, relay.received ++ [frame.event],
        relay.sent ++ [other]⟩ := by
  obtain ⟨nest, client⟩ := tracks.client
  constructor
  · intro given
    have inside : down ∈ nest.opened := (client.opened down).mpr (clean.mp given)
    refine ⟨⟨_, client_stopped client tracks.knows readOther inside same⟩,
      rising_of_silent tracks.rising (starts_of_mark readOther nofun),
      filterMap_passed tracks.content ?_, knows given⟩
    have noContent := contentDelta_of_mark read nofun
    rw [noContent]
    exact contentDelta_of_mark readOther nofun
  · intro relayed
    rw [clean, ← client.opened]
    by_contra gone
    exact client.not_past gone readOther (.inr rfl) relayed

/-- A stop of which nothing is sent: there is no forwarded block. -/
theorem tracks_droppedStop (tracks : Tracks relay) (read : frame.event.mark? = some (.stop index))
    (current : relay.upstream.current = some index)
    (clean : relay.upstream.Clean thinkingEnabled frame ↔ relay.upstream.forwards = false) :
    Accounts thinkingEnabled relay frame
      ⟨relay.upstream.stop frame index, relay.policy, relay.received ++ [frame.event],
        relay.sent ++ []⟩ := by
  obtain ⟨nest, client⟩ := tracks.client
  unfold Accounts
  rw [clean]
  constructor
  · intro ended
    have hides := hides_of_ended ended
    refine ⟨⟨nest, client.reads.append (Reads.nil nest), fun other => ?_, client.below,
      client.startedBefore rfl, fun other seg found _ => client.past other seg found (hides other)⟩,
      rising_of_silent tracks.rising rfl,
      (filterMap_nothing tracks.content).mpr (contentDelta_of_mark read nofun),
      knows_stopped tracks.knows current fun other shows => absurd shows (hides other)⟩
    rw [client.opened, ended]
    exact Iff.rfl
  · intro relayed
    by_contra held
    exact client.not_silent tracks.knows held relayed

/-- **A block stops.** -/
theorem tracks_stop (tracks : Tracks relay) (read : frame.event.mark? = some (.stop index))
    {upstream : UpstreamBlocks} (tracked : relay.upstream.step thinkingEnabled frame = some upstream)
    {out : Option (List SseEvent)} {policy : NativeSseBlockPolicyState}
    (answer : transformNativeSseFrame frame relay.policy thinkingEnabled = .ok (out, policy)) :
    Accounts thinkingEnabled relay frame
      ⟨upstream, policy, relay.received ++ [frame.event], relay.sent ++ out.getD []⟩ := by
  have knows := tracks.knows
  unfold UpstreamBlocks.step at tracked
  rw [read] at tracked
  dsimp only at tracked
  split_ifs at tracked with current
  obtain rfl := Option.some.inj tracked
  unfold transformNativeSseFrame at answer
  cases decoded : frame.decoded with
  | false =>
    rw [decoded, if_neg Bool.false_ne_true] at answer
    obtain ⟨rfl, rfl⟩ := Prod.mk.inj (Except.ok.inj answer)
    refine tracks_passedStop tracks read read (fun each seg found => ⟨seg, found, rfl⟩)
      (fun _ => knows_stopped knows current fun other shows => ?_) ?_
    · unfold UpstreamBlocks.stop
      rw [shows.forwards, shows.sighted, decoded, Option.some.inj (shows.current.symm.trans current)]
      exact Finset.mem_insert_self _ _
    · rw [clean_stop read, UpstreamBlocks.StopsCleanly, decoded, if_neg Bool.false_ne_true]
  | true =>
    rw [decoded, if_pos rfl] at answer
    have clean : relay.upstream.Clean thinkingEnabled frame ↔
        (relay.upstream.forwards = true → index ∉ relay.upstream.dropped ∧
          (relay.upstream.sighted = true ∨
            thinkingEnabled = true ∧ index ∉ relay.upstream.known)) := by
      rw [clean_stop read, UpstreamBlocks.StopsCleanly, if_pos decoded]
    have lost : relay.upstream.forwards = true → (¬ relay.upstream.Clean thinkingEnabled frame) →
        (relay.upstream.Clean thinkingEnabled frame ↔ relay.upstream.forwards = false) :=
      fun forwards unclean => iff_of_false unclean fun ended =>
        Bool.false_ne_true (ended.symm.trans forwards)
    by_cases hidden : index ∈ relay.upstream.dropped
    · rw [transform_hiddenStop read (knows.dropped ▸ hidden)] at answer
      obtain ⟨rfl, rfl⟩ := Prod.mk.inj (Except.ok.inj answer)
      refine tracks_droppedStop tracks read current (clean.trans ?_)
      constructor
      · intro given
        by_contra held
        exact (given ((Bool.not_eq_false _).mp held)).1 hidden
      · exact fun ended forwards => absurd (ended.symm.trans forwards) Bool.false_ne_true
    · have shown : index ∉ relay.policy.droppedIndexes := knows.dropped ▸ hidden
      have due : index ∉ relay.policy.pendingSuppressedStops :=
        knows.unsuppressed ▸ Finset.notMem_empty _
      have forwards : relay.upstream.forwards = true := by
        by_contra held
        exact hidden (knows.hidden index current ((Bool.not_eq_true _).mp held))
      cases sighted : relay.upstream.sighted with
      | true =>
        have shows : relay.upstream.Shows index := ⟨forwards, sighted, current⟩
        obtain ⟨seg, found, isOpen, number⟩ := knows.shown index shows
        rw [transform_openStop read shown due found isOpen] at answer
        obtain ⟨rfl, rfl⟩ := Prod.mk.inj (Except.ok.inj answer)
        refine tracks_passedStop tracks read (mark?_reindex_stop read _) (fun each other found' => ?_)
          (fun _ => knows_closed knows shows decoded found) (clean.trans ?_)
        · rw [Dict.get?_set] at found'
          split_ifs at found' with same
          · exact ⟨seg, same ▸ found, by rw [← Option.some.inj found']⟩
          · exact ⟨other, found', rfl⟩
        · exact iff_of_true (fun _ => ⟨hidden, .inl sighted⟩) ⟨forwards, number⟩
      | false =>
        have notSighted : ¬ relay.upstream.sighted = true := by
          rw [sighted]
          exact Bool.false_ne_true
        rcases found : relay.policy.byUpstream.get? index with _ | seg
        · have unknown : index ∉ relay.upstream.known := by
            rw [← knows.known, found]
            exact Bool.false_ne_true
          rw [transform_unknownStop read shown due found] at answer
          cases thinkingEnabled with
          | false =>
            obtain ⟨rfl, rfl⟩ := Prod.mk.inj (Except.ok.inj answer)
            refine tracks_droppedStop tracks read current (lost forwards fun given => ?_)
            exact Bool.false_ne_true ((clean.mp given forwards).2.resolve_left notSighted).1
          | true =>
            obtain ⟨rfl, rfl⟩ := Prod.mk.inj (Except.ok.inj answer)
            refine tracks_passedStop tracks read read (fun each seg found => ⟨seg, found, rfl⟩)
              (fun _ => knows_stopped knows current fun other shows => absurd shows.sighted notSighted)
              (clean.trans ?_)
            exact iff_of_true (fun _ => ⟨hidden, .inr ⟨rfl, unknown⟩⟩)
              ⟨forwards, (knows.unseen forwards sighted).trans current⟩
        · have isKnown : index ∈ relay.upstream.known := by
            rw [← knows.known, found]
            rfl
          have unclean : ¬ relay.upstream.Clean thinkingEnabled frame := fun given =>
            ((clean.mp given forwards).2.resolve_left notSighted).2 isKnown
          cases isOpen : seg.isOpen with
          | true =>
            rw [transform_openStop read shown due found isOpen] at answer
            obtain ⟨rfl, rfl⟩ := Prod.mk.inj (Except.ok.inj answer)
            obtain ⟨nest, client⟩ := tracks.client
            have gone := (client.past index seg found fun shows => notSighted shows.sighted).2
            exact ⟨fun given => absurd given unclean, fun relayed =>
              absurd relayed (client.not_past gone (mark?_reindex_stop read _) (.inr rfl))⟩
          | false =>
            rw [transform_closedStop read shown due found isOpen] at answer
            obtain ⟨rfl, rfl⟩ := Prod.mk.inj (Except.ok.inj answer)
            exact tracks_droppedStop tracks read current (lost forwards unclean)

/-- **One frame**, of any kind. -/
theorem tracks_step {next : Relay} (tracks : Tracks relay)
    (stepped : (relaying thinkingEnabled).step relay frame = some next) :
    Accounts thinkingEnabled relay frame next := by
  obtain ⟨upstream, out, policy, tracked, answer, rfl⟩ := relaying_step stepped
  cases read : frame.event.mark? with
  | none =>
    have clean : relay.upstream.Clean thinkingEnabled frame := by
      unfold UpstreamBlocks.Clean
      rw [read]
      trivial
    unfold UpstreamBlocks.step at tracked
    rw [read] at tracked
    dsimp only at tracked
    split_ifs at tracked with isBlock
    obtain rfl := Option.some.inj tracked
    have other : frame.event.isBlockEvent = false := Bool.eq_false_iff.mpr isBlock
    have passed : transformNativeSseFrame frame relay.policy thinkingEnabled =
        .ok (some [frame.event], relay.policy) := by
      unfold transformNativeSseFrame
      split_ifs
      · exact transform_other other
      · rfl
    obtain ⟨rfl, rfl⟩ := Prod.mk.inj (Except.ok.inj (passed.symm.trans answer))
    exact ⟨fun _ => tracks_other tracks other, fun _ => clean⟩
  | some mark =>
    cases mark with
    | start index => exact tracks_start tracks read tracked answer
    | delta index => exact tracks_delta tracks read tracked answer
    | stop index => exact tracks_stop tracks read tracked answer

end Step

/-! ### Whole streams -/

/-- Upstream blocks one at a time, whatever their indexes. -/
def OneBlockAtATime (thinkingEnabled : Bool) (frames : List NativeFrame) : Prop :=
  (frames.foldlM (UpstreamBlocks.step thinkingEnabled) ({} : UpstreamBlocks)).isSome = true

instance (thinkingEnabled : Bool) (frames : List NativeFrame) :
    Decidable (OneBlockAtATime thinkingEnabled frames) :=
  inferInstanceAs (Decidable (_ = true))

/-- The run of such a stream, and the policy's answer to it. -/
theorem relaying_run {runtime : Runtime} {thinkingEnabled : Bool} {frames : List NativeFrame}
    (fits : ∀ frame ∈ frames, frame.Fits runtime) {relay : Relay}
    (sequential : (frames.foldlM (UpstreamBlocks.step thinkingEnabled) relay.upstream).isSome = true) :
    ∃ last answers, (relaying thinkingEnabled).run relay frames = some last ∧
      transformNativeSseFrames thinkingEnabled relay.policy frames = .ok (answers, last.policy) ∧
      last.sent = relay.sent ++ sentEvents answers := by
  induction frames generalizing relay with
  | nil => exact ⟨relay, [], rfl, rfl, (List.append_nil _).symm⟩
  | cons frame rest ih =>
    rw [List.foldlM_cons] at sequential
    cases tracked : relay.upstream.step thinkingEnabled frame with
    | none =>
      rw [tracked] at sequential
      cases sequential
    | some upstream =>
      rw [tracked] at sequential
      obtain ⟨text, out, policy, -, answer, -⟩ :=
        @rendered_frame runtime thinkingEnabled relay.policy frame (fits frame List.mem_cons_self)
      have stepped : (relaying thinkingEnabled).step relay frame =
          some ⟨upstream, policy, relay.received ++ [frame.event], relay.sent ++ out.getD []⟩ := by
        show (relay.upstream.step thinkingEnabled frame).bind _ = _
        rw [tracked, Option.bind_some, answer]
      obtain ⟨last, answers, ran, answered, sent⟩ :=
        @ih (fun other inside => fits other (List.mem_cons_of_mem _ inside))
          ⟨upstream, policy, relay.received ++ [frame.event], relay.sent ++ out.getD []⟩ sequential
      refine ⟨last, out :: answers, ?_, ?_, ?_⟩
      · rw [Machine.run, List.foldlM_cons, stepped]
        exact ran
      · rw [transformNativeSseFrames, answer]
        dsimp only at answered ⊢
        rw [answered]
      · rw [sent, List.append_assoc]
        rfl

/-- **The streams that are relayed.** On a stream whose blocks come one at a time, whatever their
indexes, the policy answers, and the client gets what it is owed at every moment exactly when all the
frames are clean. -/
theorem reusedIndexes_relayed_iff {runtime : Runtime} {thinkingEnabled : Bool}
    {frames : List NativeFrame} (fits : ∀ frame ∈ frames, frame.Fits runtime)
    (sequential : OneBlockAtATime thinkingEnabled frames) :
    ∃ last, (relaying thinkingEnabled).run {} frames = some last ∧
      Answered runtime thinkingEnabled frames last.sent ∧
      ((relaying thinkingEnabled).Throughout {} frames Relayed ↔
        (relaying thinkingEnabled).Obeys {} frames fun relay frame =>
          relay.upstream.Clean thinkingEnabled frame) := by
  obtain ⟨last, answers, ran, answered, sent⟩ := @relaying_run runtime thinkingEnabled frames fits {} sequential
  refine ⟨last, ran, ?_, ?_⟩
  · rw [sent]
    exact answered_of_frames fits answered
  · refine (Machine.throughout_iff_obeys_while ⟨tracks_init, tracks_init.relayed⟩ ?_ ?_ frames ran).2
    · intro relay frame next tracks stepped clean
      have kept := (tracks_step tracks stepped).1 clean
      exact ⟨kept, kept.relayed⟩
    · exact fun relay frame next tracks stepped => (tracks_step tracks stepped).2

/-- A text block, whose delta is not decoded, and behind its stop a tool call at the same index. -/
def answerThenCall : List NativeSample :=
  [⟨contentBlockStart 0 [("type", .str "text"), ("text", .str "")], none⟩,
    ⟨contentBlockDelta 0 [("type", .str "text_delta"), ("text", .str "a\u2028b")],
      some ("\x7b\"type\": \"content_block_delta\", \"index\": 0, \"delta\": \x7b" ++
        "\"type\": \"text_delta\", \"text\": \"a\u2028b\"\x7d\x7d")⟩,
    ⟨contentBlockStop 0, none⟩,
    ⟨contentBlockStart 0 [("type", .str "tool_use"), ("id", .str "toolu_1"), ("name", .str "Read")],
      none⟩,
    ⟨contentBlockDelta 0 [("type", .str "input_json_delta"), ("partial_json", .str "\x7b\x7d")], none⟩,
    ⟨contentBlockStop 0, none⟩]

theorem answerThenCall_answered : ∃ last,
    (relaying true).run {} (answerThenCall.map NativeSample.frame) = some last ∧
      Answered (NativeSample.runtime answerThenCall) true (answerThenCall.map NativeSample.frame)
        last.sent ∧
      ((relaying true).Throughout {} (answerThenCall.map NativeSample.frame) Relayed ↔
        (relaying true).Obeys {} (answerThenCall.map NativeSample.frame) fun relay frame =>
          relay.upstream.Clean true frame) :=
  have fits := @NativeSample.fits answerThenCall (by decide +kernel)
  reusedIndexes_relayed_iff fits (by decide +kernel)

/-- A thinking block, and behind its stop a text block at the same index. -/
def thoughtThenAnswer : List NativeSample :=
  [⟨contentBlockStart 0 [("type", .str "thinking"), ("thinking", .str "")], none⟩,
    ⟨contentBlockStop 0, none⟩,
    ⟨contentBlockStart 0 [("type", .str "text"), ("text", .str "")], none⟩,
    ⟨contentBlockDelta 0 [("type", .str "text_delta"), ("text", .str "hi")], none⟩,
    ⟨contentBlockStop 0, none⟩]

/-- A text block, and another one in its place. -/
def restartedAnswer : List NativeSample :=
  [⟨contentBlockStart 0 [("type", .str "text"), ("text", .str "")], none⟩,
    ⟨contentBlockStart 0 [("type", .str "text"), ("text", .str "")], none⟩,
    ⟨contentBlockStop 0, none⟩]

/-- Without thinking the text of the one is lost, and with it the first block of the other stays
open. -/
theorem reusedIndexes_fail :
    ((∀ frame ∈ thoughtThenAnswer.map NativeSample.frame,
          frame.Fits (NativeSample.runtime thoughtThenAnswer)) ∧
        OneBlockAtATime false (thoughtThenAnswer.map NativeSample.frame) ∧
        ¬ (relaying false).Throughout {} (thoughtThenAnswer.map NativeSample.frame) Relayed) ∧
      (∀ frame ∈ restartedAnswer.map NativeSample.frame,
          frame.Fits (NativeSample.runtime restartedAnswer)) ∧
        OneBlockAtATime true (restartedAnswer.map NativeSample.frame) ∧
        ¬ (relaying true).Throughout {} (restartedAnswer.map NativeSample.frame) Relayed := by
  refine ⟨⟨NativeSample.fits (by decide +kernel), by decide +kernel, fun all => ?_⟩,
    NativeSample.fits (by decide +kernel), by decide +kernel, fun all => ?_⟩
  · have relayed := all _ List.prefix_rfl _ rfl
    exact absurd relayed.content (by decide)
  · have relayed := all _ List.prefix_rfl _ rfl
    obtain ⟨nest, reads, count⟩ := relayed.client
    have still : Nest.empty.run (marks [contentBlockStart 0 [("type", .str "text"), ("text", .str "")],
        contentBlockStart 1 [("type", .str "text"), ("text", .str "")], contentBlockStop 1]) =
        some ((((Nest.empty : Nest Int).start 0).start 1).stop 1) := by decide
    obtain rfl := Option.some.inj (reads.accepted.symm.trans still)
    exact absurd count (by decide)

end ClaudeProxy
