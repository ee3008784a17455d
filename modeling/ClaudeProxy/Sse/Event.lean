/-
**Server-sent events, after framing.**

An event is its name and its JSON payload. A frame without an event name has name `""`, one whose
data text is empty or not JSON has no payload; every function of the proxy that reads a frame tests
for exactly these.

A client reads a content-block event as a `Mark` on the block its integer `index` names. A list of
events is `WellNested` when every content-block event can be read so and the marks are balanced: a
start is fresh, a delta or stop addresses an open block, and every started block is stopped once.
-/

import ClaudeProxy.Json
import ClaudeProxy.Library.Nesting

namespace ClaudeProxy

open Json (getKey setKey)

/-- One framed event. -/
structure SseEvent where
  event : String
  data : Option Json
  deriving DecidableEq, Repr

/-- `format_sse_event`, before framing: an event with a JSON object as its payload. -/
def formatSseEvent (event : String) (data : List (String × Json)) : SseEvent :=
  ⟨event, some (.obj data)⟩

namespace SseEvent

/-- The payload's members; none when it is not an object. -/
def fields (event : SseEvent) : List (String × Json) :=
  (event.data.bind Json.asObj?).getD []

/-- The block a content-block event is about. -/
def index? (event : SseEvent) : Option Int := (getKey event.fields "index").asInt?

/-- A content-block event, by its name. -/
def isBlockEvent (event : SseEvent) : Bool :=
  event.event = "content_block_start" || event.event = "content_block_delta" ||
    event.event = "content_block_stop"

/-- What the event says about a block. -/
def mark? (event : SseEvent) : Option (Mark Int) :=
  if event.event = "content_block_start" then event.index?.map .start
  else if event.event = "content_block_delta" then event.index?.map .delta
  else if event.event = "content_block_stop" then event.index?.map .stop
  else none

@[simp] theorem fields_formatSseEvent (event : String) (data : List (String × Json)) :
    (formatSseEvent event data).fields = data := rfl

@[simp] theorem event_formatSseEvent (event : String) (data : List (String × Json)) :
    (formatSseEvent event data).event = event := rfl

theorem mark?_eq_none_of_not_block {event : SseEvent} (other : event.isBlockEvent = false) :
    event.mark? = none := by
  simp only [isBlockEvent, Bool.or_eq_false_iff, decide_eq_false_iff_not] at other
  rw [mark?, if_neg other.1.1, if_neg other.1.2, if_neg other.2]

/-- A delta's payload. -/
def delta (event : SseEvent) : Json := getKey event.fields "delta"

/-- A started block's `content_block`. -/
def contentBlock (event : SseEvent) : Json := getKey event.fields "content_block"

end SseEvent

/-- The marks of a list of events. -/
def marks (events : List SseEvent) : List (Mark Int) := events.filterMap SseEvent.mark?

@[simp] theorem marks_nil : marks [] = [] := rfl

@[simp] theorem marks_append (first second : List SseEvent) :
    marks (first ++ second) = marks first ++ marks second :=
  List.filterMap_append

theorem marks_cons_some {event : SseEvent} {mark : Mark Int} (read : event.mark? = some mark)
    (rest : List SseEvent) : marks (event :: rest) = mark :: marks rest := by
  rw [marks, List.filterMap_cons_some read]
  rfl

theorem marks_cons_none {event : SseEvent} (read : event.mark? = none) (rest : List SseEvent) :
    marks (event :: rest) = marks rest := by
  rw [marks, List.filterMap_cons_none read]
  rfl

/-- A content-block event is one step. -/
theorem run_marks_singleton (nest : Nest Int) {event : SseEvent} {mark : Mark Int}
    (read : event.mark? = some mark) : nest.run (marks [event]) = nest.step mark := by
  rw [marks_cons_some read, marks_nil, Nest.run_cons]
  exact Option.bind_fun_some _

/-- Every content-block event names its block. -/
def Readable (events : List SseEvent) : Prop :=
  ∀ event ∈ events, event.isBlockEvent = true → event.mark?.isSome = true

instance (events : List SseEvent) : Decidable (Readable events) :=
  inferInstanceAs (Decidable (∀ event ∈ events, _ → _))

theorem readable_append {first second : List SseEvent} :
    Readable (first ++ second) ↔ Readable first ∧ Readable second := by
  simp only [Readable, List.forall_mem_append]

theorem readable_singleton {event : SseEvent} {mark : Mark Int} (read : event.mark? = some mark) :
    Readable [event] := by
  intro other member _
  rw [List.mem_singleton] at member
  rw [member, read]
  rfl

/-- Blocks started freshly, extended while open, stopped once each. -/
def WellNested (events : List SseEvent) : Prop := Readable events ∧ Balanced (marks events)

instance (events : List SseEvent) : Decidable (WellNested events) :=
  inferInstanceAs (Decidable (_ ∧ _))

/-- The payloads of the deltas addressed to the blocks `mine` selects, in order. -/
def deltaPayloads (mine : Int → Bool) (events : List SseEvent) : List Json :=
  events.filterMap fun event =>
    match event.mark? with
    | some (.delta index) => if mine index then some event.delta else none
    | _ => none

@[simp] theorem deltaPayloads_append (mine : Int → Bool) (first second : List SseEvent) :
    deltaPayloads mine (first ++ second) =
      deltaPayloads mine first ++ deltaPayloads mine second :=
  List.filterMap_append

/-! ### Reading single events -/

/-- An event whose index can be read has an object payload. -/
theorem data_of_index? {event : SseEvent} {index : Int} (read : event.index? = some index) :
    ∃ payload, event.data = some (.obj payload) ∧ event.fields = payload ∧
      (getKey payload "index").asInt? = some index := by
  unfold SseEvent.index? SseEvent.fields at read
  unfold SseEvent.fields
  rcases data : event.data with _ | value
  · rw [data] at read
    cases read
  · cases value with
    | obj payload =>
      rw [data] at read
      exact ⟨payload, rfl, rfl, read⟩
    | _ =>
      rw [data] at read
      cases read

theorem index?_setKey (name : String) (payload : List (String × Json)) (index : Int) :
    (formatSseEvent name (setKey payload "index" (.int index))).index? = some index := by
  rw [SseEvent.index?, SseEvent.fields_formatSseEvent, Json.getKey_setKey_self]
  rfl

theorem mark?_start {event : SseEvent} (name : event.event = "content_block_start") :
    event.mark? = event.index?.map .start := by
  rw [SseEvent.mark?, if_pos name]

theorem mark?_delta {event : SseEvent} (name : event.event = "content_block_delta") :
    event.mark? = event.index?.map .delta := by
  rw [SseEvent.mark?, if_neg (by rw [name]; decide), if_pos name]

theorem mark?_stop {event : SseEvent} (name : event.event = "content_block_stop") :
    event.mark? = event.index?.map .stop := by
  rw [SseEvent.mark?, if_neg (by rw [name]; decide), if_neg (by rw [name]; decide), if_pos name]

/-- The event behind a mark: its name and its index. -/
theorem event_of_mark? {event : SseEvent} {mark : Mark Int} (read : event.mark? = some mark) :
    ∃ index, event.index? = some index ∧
      ((event.event = "content_block_start" ∧ mark = .start index) ∨
        (event.event = "content_block_delta" ∧ mark = .delta index) ∨
        (event.event = "content_block_stop" ∧ mark = .stop index)) := by
  unfold SseEvent.mark? at read
  split_ifs at read with started extended stopped
  · obtain ⟨index, found, rfl⟩ := Option.map_eq_some_iff.mp read
    exact ⟨index, found, Or.inl ⟨started, rfl⟩⟩
  · obtain ⟨index, found, rfl⟩ := Option.map_eq_some_iff.mp read
    exact ⟨index, found, Or.inr (Or.inl ⟨extended, rfl⟩)⟩
  · obtain ⟨index, found, rfl⟩ := Option.map_eq_some_iff.mp read
    exact ⟨index, found, Or.inr (Or.inr ⟨stopped, rfl⟩)⟩

/-! ### The block events the proxy writes itself -/

/-- A `content_block_start`. -/
def contentBlockStart (index : Int) (block : List (String × Json)) : SseEvent :=
  formatSseEvent "content_block_start"
    [("type", .str "content_block_start"), ("index", .int index), ("content_block", .obj block)]

/-- A `content_block_delta`. -/
def contentBlockDelta (index : Int) (delta : List (String × Json)) : SseEvent :=
  formatSseEvent "content_block_delta"
    [("type", .str "content_block_delta"), ("index", .int index), ("delta", .obj delta)]

/-- A `content_block_stop`. -/
def contentBlockStop (index : Int) : SseEvent :=
  formatSseEvent "content_block_stop" [("type", .str "content_block_stop"), ("index", .int index)]

@[simp] theorem mark?_contentBlockStop (index : Int) :
    (contentBlockStop index).mark? = some (.stop index) := rfl

@[simp] theorem mark?_contentBlockStart (index : Int) (block : List (String × Json)) :
    (contentBlockStart index block).mark? = some (.start index) := rfl

@[simp] theorem mark?_contentBlockDelta (index : Int) (delta : List (String × Json)) :
    (contentBlockDelta index delta).mark? = some (.delta index) := rfl

theorem marks_stops (indexes : List Int) :
    marks (indexes.map contentBlockStop) = indexes.map Mark.stop := by
  induction indexes with
  | nil => rfl
  | cons index rest ih =>
    rw [List.map_cons, marks_cons_some (mark?_contentBlockStop index), ih, List.map_cons]

theorem readable_stops (indexes : List Int) : Readable (indexes.map contentBlockStop) := by
  intro event member _
  obtain ⟨index, _, rfl⟩ := List.mem_map.mp member
  rfl

theorem deltaPayloads_stops (mine : Int → Bool) (indexes : List Int) :
    deltaPayloads mine (indexes.map contentBlockStop) = [] := by
  induction indexes with
  | nil => rfl
  | cons index rest ih => exact ih

/-! ### A client's reading -/

/-- A client that has read up to `nest` accepts the events and is then at `next`. -/
structure Reads (nest : Nest Int) (events : List SseEvent) (next : Nest Int) : Prop where
  readable : Readable events
  accepted : nest.run (marks events) = some next

namespace Reads

variable {nest middle next : Nest Int}

theorem nil (nest : Nest Int) : Reads nest [] nest :=
  ⟨fun _ member _ => (List.not_mem_nil member).elim, rfl⟩

theorem append {first second : List SseEvent} (before : Reads nest first middle)
    (after : Reads middle second next) : Reads nest (first ++ second) next :=
  ⟨readable_append.mpr ⟨before.readable, after.readable⟩, by
    rw [marks_append, Nest.run_append_of before.accepted, after.accepted]⟩

/-- A reading of a concatenation passes through a state between its parts. -/
theorem split {first second : List SseEvent} (reads : Reads nest (first ++ second) next) :
    ∃ middle, Reads nest first middle ∧ Reads middle second next := by
  obtain ⟨readable, accepted⟩ := reads
  rw [marks_append, Nest.run_append, Option.bind_eq_some_iff] at accepted
  obtain ⟨middle, before, after⟩ := accepted
  rw [readable_append] at readable
  exact ⟨middle, ⟨readable.1, before⟩, ⟨readable.2, after⟩⟩

theorem uncons {event : SseEvent} {rest : List SseEvent} (reads : Reads nest (event :: rest) next) :
    ∃ middle, Reads nest [event] middle ∧ Reads middle rest next :=
  @split nest next [event] rest reads

/-- A single content-block event. -/
theorem single_iff {event : SseEvent} {mark : Mark Int} (read : event.mark? = some mark) :
    Reads nest [event] next ↔ nest.step mark = some next :=
  ⟨fun reads => (run_marks_singleton nest read).symm.trans reads.accepted,
    fun stepped => ⟨readable_singleton read, (run_marks_singleton nest read).trans stepped⟩⟩

theorem start {index : Int} (fresh : index ∉ nest.seen) (block : List (String × Json)) :
    Reads nest [contentBlockStart index block] (nest.start index) :=
  ⟨readable_singleton (mark?_contentBlockStart index block), by
    rw [marks_cons_some (mark?_contentBlockStart index block), marks_nil, Nest.run_cons,
      Nest.step_start fresh, Option.bind_some, Nest.run_nil]⟩

theorem delta {index : Int} (isOpen : index ∈ nest.opened) (payload : List (String × Json)) :
    Reads nest [contentBlockDelta index payload] nest :=
  ⟨readable_singleton (mark?_contentBlockDelta index payload), by
    rw [marks_cons_some (mark?_contentBlockDelta index payload), marks_nil, Nest.run_cons,
      Nest.step_delta isOpen, Option.bind_some, Nest.run_nil]⟩

theorem stop {index : Int} (isOpen : index ∈ nest.opened) :
    Reads nest [contentBlockStop index] (nest.stop index) :=
  ⟨readable_singleton (mark?_contentBlockStop index), by
    rw [marks_cons_some (mark?_contentBlockStop index), marks_nil, Nest.run_cons,
      Nest.step_stop isOpen, Option.bind_some, Nest.run_nil]⟩

theorem nil_iff : Reads nest [] next ↔ next = nest :=
  ⟨fun reads => (Option.some.inj reads.accepted).symm, fun same => same ▸ nil nest⟩

/-- A client's reading is a function of the events. -/
theorem unique {events : List SseEvent} (first : Reads nest events middle)
    (second : Reads nest events next) : middle = next :=
  Option.some.inj (first.accepted.symm.trans second.accepted)

/-- A delta is read exactly when its block is open. -/
theorem delta_iff {index : Int} {payload : List (String × Json)} :
    Reads nest [contentBlockDelta index payload] next ↔ next = nest ∧ index ∈ nest.opened := by
  refine ⟨fun reads => ?_, fun ⟨same, isOpen⟩ => same ▸ delta isOpen payload⟩
  have accepted := reads.accepted
  rw [marks_cons_some (mark?_contentBlockDelta index payload), marks_nil, Nest.run_cons,
    Option.bind_eq_some_iff] at accepted
  obtain ⟨after, step, last⟩ := accepted
  obtain ⟨isOpen, same⟩ := Option.ite_none_right_eq_some.mp step
  exact ⟨(Option.some.inj last).symm.trans (Option.some.inj same).symm, isOpen⟩

/-- Stopping a list of open blocks, each once. -/
theorem stops {indexes : List Int} (distinct : indexes.Nodup)
    (opened : ∀ index ∈ indexes, index ∈ nest.opened) :
    Reads nest (indexes.map contentBlockStop) (nest.close indexes) :=
  ⟨readable_stops indexes, by rw [marks_stops, Nest.run_stops distinct nest opened]⟩

/-- Events that are no content-block events change nothing. -/
theorem others {events : List SseEvent} (other : ∀ event ∈ events, event.isBlockEvent = false) :
    Reads nest events nest := by
  refine ⟨fun event member isBlock => ?_, ?_⟩
  · rw [other event member] at isBlock
    cases isBlock
  · induction events with
    | nil => rfl
    | cons event rest ih =>
      rw [marks_cons_none
        (SseEvent.mark?_eq_none_of_not_block (other event List.mem_cons_self))]
      exact ih fun event member => other event (List.mem_cons_of_mem _ member)

end Reads

/-- A stream is well nested when a client reads all of it and is left with no open block. -/
theorem wellNested_iff {events : List SseEvent} :
    WellNested events ↔ ∃ last, Reads Nest.empty events last ∧ last.opened = ∅ :=
  ⟨fun ⟨readable, last, accepted, closed⟩ => ⟨last, ⟨readable, accepted⟩, closed⟩,
    fun ⟨last, ⟨readable, accepted⟩, closed⟩ => ⟨readable, last, accepted, closed⟩⟩

end ClaudeProxy
