/-
**The contract of a stream** (`core/anthropic/stream_contracts.py`).

The tests and the smoke runs read the events of a stream in order, with the blocks that are open and
those that have been, and assert at each event that it fits.

* `checkEvent`, `assertAnthropicStreamContract` — the loop, and the assertions around it.
* `textContent`, `thinkingContent`, `hasToolUse` — what the tests read of a stream.
* `Typed` — a block starts with a type that is allowed, and its deltas are of that type.
* `checkEvent_iff` — one event: a client reads it, and its types fit.
* **`contract_iff`** — the assertions hold of a stream just if it has its first and its last event, and
  no error, and its blocks nest and are typed: whatever the order in which its events tell this.
-/

import ClaudeProxy.Messaging.CliEvents
import ClaudeProxy.Sse.Framing

namespace ClaudeProxy

open Json (getKey)

/-- The event as a client reads it. -/
def ParsedSseEvent.sseEvent (event : ParsedSseEvent) : SseEvent := formatSseEvent event.event event.data

/-- What the event says about a block. -/
def ParsedSseEvent.mark? (event : ParsedSseEvent) : Option (Mark Int) := event.sseEvent.mark?

namespace StreamContract

/-! ### The assertions -/

/-- `_NO_DELTA_BLOCK_KINDS`. -/
def noDeltaBlockKinds : List String :=
  ["server_tool_use", "web_search_tool_result", "web_fetch_tool_result", "text_eager",
    "redacted_thinking"]

/-- `_ALLOWED_BLOCK_START_TYPES`. -/
def allowedBlockStartTypes : List String :=
  ["text", "thinking", "tool_use", "redacted_thinking", "server_tool_use", "web_search_tool_result",
    "web_fetch_tool_result"]

/-- The open blocks with their kinds, and the blocks there have been. -/
structure Blocks where
  openBlocks : Dict Int String := ∅
  seenBlocks : Finset Int := ∅

/-- `event_index`. -/
def eventIndex (event : ParsedSseEvent) : Option Int := (getKey event.data "index").asInt?

/-- Whether a block of this kind has deltas of this type. -/
def fits (kind deltaType : String) : Bool :=
  decide (kind ∉ noDeltaBlockKinds) &&
    if kind = "thinking" then decide (deltaType ∈ ["thinking_delta", "signature_delta"])
    else Assoc.get? kind [("text", "text_delta"), ("tool_use", "input_json_delta")] = some deltaType

/-- A delta without a type fits no block. -/
theorem fits_empty (kind : String) : fits kind "" = false := by
  unfold fits
  rw [Bool.and_eq_false_iff]
  right
  rw [Assoc.get?_cons, Assoc.get?_cons, Assoc.get?_nil]
  split_ifs <;> decide

section Assertions

variable (text : CliText) (allowError : Bool)

/-- `str(value.get("type", ""))`. -/
def typeOf (value : List (String × Json)) : String := text.print (getOr value "type" (.str ""))

theorem typeOf_nil : typeOf text [] = "" := rfl

/-- The kind under which a block is open: text that comes with its start has no deltas. -/
def storageOf (block : List (String × Json)) : String :=
  if typeOf text block = "text" ∧ Py.strip (text.print (getOr block "text" (.str ""))) ≠ "" then
    "text_eager"
  else typeOf text block

/-- A `content_block_start`. -/
def startBlock (blocks : Blocks) (event : ParsedSseEvent) : Option Blocks := do
  let index ← eventIndex event
  let block ← (getOr event.data "content_block" (.obj [])).asObj?
  if typeOf text block ∈ allowedBlockStartTypes ∧ blocks.openBlocks.get? index = none ∧
      index ∉ blocks.seenBlocks then
    some ⟨blocks.openBlocks.set index (storageOf text block), insert index blocks.seenBlocks⟩
  else none

/-- A `content_block_delta`. -/
def deltaBlock (blocks : Blocks) (event : ParsedSseEvent) : Option Blocks := do
  let index ← eventIndex event
  let kind ← blocks.openBlocks.get? index
  let delta ← (getOr event.data "delta" (.obj [])).asObj?
  if fits kind (typeOf text delta) then some blocks else none

/-- A `content_block_stop`. -/
def stopBlock (blocks : Blocks) (event : ParsedSseEvent) : Option Blocks := do
  let index ← eventIndex event
  let _ ← blocks.openBlocks.get? index
  some { blocks with openBlocks := blocks.openBlocks.erase index }

/-- One turn of the loop; `none` where an assertion fails. -/
def checkEvent (blocks : Blocks) (event : ParsedSseEvent) : Option Blocks :=
  if event.event = "error" ∧ allowError = false then none
  else if event.event = "content_block_start" then startBlock text blocks event
  else if event.event = "content_block_delta" then deltaBlock text blocks event
  else if event.event = "content_block_stop" then stopBlock blocks event
  else some blocks

/-- `assert_anthropic_stream_contract`. -/
def assertAnthropicStreamContract (events : List ParsedSseEvent) : Option Unit := do
  let eventNames := events.map fun event => event.event
  if events ≠ [] ∧ "message_start" ∈ eventNames ∧ eventNames.getLast? = some "message_stop" then
    let blocks ← events.foldlM (checkEvent text allowError) {}
    if blocks.openBlocks.entries = [] ∧ blocks.seenBlocks ≠ ∅ then some () else none
  else none

/-- `event.data.get(key, {})`, if it is an object. -/
def objectOf (event : ParsedSseEvent) (key : String) : Option (List (String × Json)) :=
  (getOr event.data key (.obj [])).asObj?

/-- The text that comes with the start of a block. -/
def eagerText (event : ParsedSseEvent) : String :=
  if event.event = "content_block_start" then
    match objectOf event "content_block" with
    | some block => if getKey block "type" = .str "text" then text.print (getOr block "text" (.str "")) else ""
    | none => ""
  else ""

/-- The text of a delta of this type, under this key. -/
def deltaText (deltaType key : String) (event : ParsedSseEvent) : String :=
  match objectOf event "delta" with
  | some delta =>
    if getKey delta "type" = .str deltaType then text.print (getOr delta key (.str "")) else ""
  | none => ""

/-- `text_content`. -/
def textContent (events : List ParsedSseEvent) : String :=
  Py.join "" (events.flatMap fun event => [eagerText text event, deltaText text "text_delta" "text" event])

/-- `thinking_content`. -/
def thinkingContent (events : List ParsedSseEvent) : String :=
  Py.join "" (events.map (deltaText text "thinking_delta" "thinking"))

/-- `has_tool_use`. -/
def hasToolUse (events : List ParsedSseEvent) : Bool :=
  events.any fun event =>
    (objectOf event "content_block").any fun block => getKey block "type" = .str "tool_use"

end Assertions

/-! ### Typed blocks -/

section Typed

variable (text : CliText)

/-- A start has a block of a type that is allowed. -/
def Startable (event : ParsedSseEvent) : Prop :=
  ∀ index, event.mark? = some (.start index) →
    ∃ block, getKey event.data "content_block" = .obj block ∧ typeOf text block ∈ allowedBlockStartTypes

/-- A delta is of the type of the block that this starts. -/
def Fits (start delta : ParsedSseEvent) : Prop :=
  ∃ block payload, getKey start.data "content_block" = .obj block ∧
    getKey delta.data "delta" = .obj payload ∧ fits (storageOf text block) (typeOf text payload) = true

/-- **Blocks of types that are allowed, with deltas of their types.** -/
structure Typed (events : List ParsedSseEvent) : Prop where
  startable : ∀ event ∈ events, Startable text event
  fits : ∀ start ∈ events, ∀ delta ∈ events, ∀ index, start.mark? = some (.start index) →
    delta.mark? = some (.delta index) → Fits text start delta

/-- **What the assertions ask of a stream.** -/
structure Contract (allowError : Bool) (events : List ParsedSseEvent) : Prop where
  begins : "message_start" ∈ events.map fun event => event.event
  ends : (events.map fun event => event.event).getLast? = some "message_stop"
  quiet : allowError = false → "error" ∉ events.map fun event => event.event
  nested : WellNested (events.map ParsedSseEvent.sseEvent)
  blocks : ∃ index, Mark.start index ∈ marks (events.map ParsedSseEvent.sseEvent)
  typed : Typed text events

end Typed

/-! ### One event -/

section Step

variable {text : CliText} {allowError : Bool} {events : List ParsedSseEvent} {nest : Nest Int}
  {blocks next : Blocks} {event : ParsedSseEvent}

/-- The kind that a start gives its block. -/
def StartsKind (text : CliText) (start : ParsedSseEvent) (kind : String) : Prop :=
  ∃ block, getKey start.data "content_block" = .obj block ∧ storageOf text block = kind

/-- The variables of the loop behind these events, which a client has read up to `nest`. -/
structure Describes (text : CliText) (events : List ParsedSseEvent) (nest : Nest Int)
    (blocks : Blocks) : Prop where
  isOpen : ∀ index, (blocks.openBlocks.get? index).isSome ↔ index ∈ nest.opened
  seen : blocks.seenBlocks = nest.seen
  started : ∀ index kind, blocks.openBlocks.get? index = some kind →
    ∃ start ∈ events, start.mark? = some (.start index) ∧ StartsKind text start kind
  only : ∀ start ∈ events, ∀ index kind, start.mark? = some (.start index) →
    blocks.openBlocks.get? index = some kind → StartsKind text start kind
  used : ∀ other ∈ events, ∀ index,
    other.mark? = some (.start index) ∨ other.mark? = some (.delta index) → index ∈ nest.seen

theorem describes_nil : Describes text [] Nest.empty {} where
  isOpen index := by simp [Nest.empty]
  seen := rfl
  started index kind found := by cases found
  only start member := by cases member
  used other member := by cases member

theorem mark?_start_iff {index : Int} : event.mark? = some (.start index) ↔
    event.event = "content_block_start" ∧ eventIndex event = some index := by
  constructor
  · intro read
    obtain ⟨other, found, ⟨name, same⟩ | ⟨-, same⟩ | ⟨-, same⟩⟩ := event_of_mark? read
    · cases same
      exact ⟨name, found⟩
    · cases same
    · cases same
  · rintro ⟨name, found⟩
    exact (mark?_start name).trans (congrArg _ found)

theorem mark?_delta_iff {index : Int} : event.mark? = some (.delta index) ↔
    event.event = "content_block_delta" ∧ eventIndex event = some index := by
  constructor
  · intro read
    obtain ⟨other, found, ⟨-, same⟩ | ⟨name, same⟩ | ⟨-, same⟩⟩ := event_of_mark? read
    · cases same
    · cases same
      exact ⟨name, found⟩
    · cases same
  · rintro ⟨name, found⟩
    exact (mark?_delta name).trans (congrArg _ found)

/-- The object that a `get` with an empty object for default reads. -/
theorem asObj?_getOr {fields value : List (String × Json)} {key : String}
    (read : (getOr fields key (.obj [])).asObj? = some value) :
    getKey fields key = .obj value ∨ value = [] := by
  unfold getOr at read
  unfold getKey
  cases found : Assoc.get? key fields with
  | none =>
    rw [found] at read
    exact .inr (Option.some.inj read).symm
  | some member =>
    rw [found, Option.getD_some] at read
    left
    cases member <;> cases read
    rfl

theorem getOr_of_getKey {fields value : List (String × Json)} {key : String}
    (there : getKey fields key = .obj value) : (getOr fields key (.obj [])).asObj? = some value := by
  unfold getKey at there
  unfold getOr
  cases found : Assoc.get? key fields with
  | none => rw [found] at there; cases there
  | some member =>
    rw [found, Option.getD_some] at there
    rw [Option.getD_some, there]
    rfl

/-- **A start**: it is fresh, and of a type that is allowed. -/
theorem startBlock_iff : startBlock text blocks event = some next ↔
    ∃ index block, eventIndex event = some index ∧ getKey event.data "content_block" = .obj block ∧
      typeOf text block ∈ allowedBlockStartTypes ∧ blocks.openBlocks.get? index = none ∧
      index ∉ blocks.seenBlocks ∧
      next = ⟨blocks.openBlocks.set index (storageOf text block), insert index blocks.seenBlocks⟩ := by
  constructor
  · intro accepted
    obtain ⟨index, named, accepted⟩ := Option.bind_eq_some_iff.mp accepted
    obtain ⟨block, read, accepted⟩ := Option.bind_eq_some_iff.mp accepted
    obtain ⟨⟨allowed, closed, fresh⟩, same⟩ := Option.ite_none_right_eq_some.mp accepted
    rcases asObj?_getOr read with there | rfl
    · exact ⟨index, block, named, there, allowed, closed, fresh, (Option.some.inj same).symm⟩
    · rw [typeOf_nil] at allowed
      exact absurd allowed (by decide)
  · rintro ⟨index, block, named, there, allowed, closed, fresh, rfl⟩
    rw [startBlock, named, getOr_of_getKey there]
    exact if_pos ⟨allowed, closed, fresh⟩

/-- **A delta**: its block is open, and of its type. -/
theorem deltaBlock_iff : deltaBlock text blocks event = some next ↔
    ∃ index kind payload, eventIndex event = some index ∧ blocks.openBlocks.get? index = some kind ∧
      getKey event.data "delta" = .obj payload ∧ fits kind (typeOf text payload) = true ∧
      next = blocks := by
  constructor
  · intro accepted
    obtain ⟨index, named, accepted⟩ := Option.bind_eq_some_iff.mp accepted
    obtain ⟨kind, isOpen, accepted⟩ := Option.bind_eq_some_iff.mp accepted
    obtain ⟨payload, read, accepted⟩ := Option.bind_eq_some_iff.mp accepted
    obtain ⟨fitting, same⟩ := Option.ite_none_right_eq_some.mp accepted
    rcases asObj?_getOr read with there | rfl
    · exact ⟨index, kind, payload, named, isOpen, there, fitting, (Option.some.inj same).symm⟩
    · rw [typeOf_nil, fits_empty] at fitting
      cases fitting
  · rintro ⟨index, kind, payload, named, isOpen, there, fitting, rfl⟩
    rw [deltaBlock, named, getOr_of_getKey there]
    simp only [Option.bind_eq_bind, Option.bind_some, isOpen, if_pos fitting]

/-- **A stop**: its block is open. -/
theorem stopBlock_iff : stopBlock blocks event = some next ↔
    ∃ index kind, eventIndex event = some index ∧ blocks.openBlocks.get? index = some kind ∧
      next = { blocks with openBlocks := blocks.openBlocks.erase index } := by
  constructor
  · intro accepted
    obtain ⟨index, named, accepted⟩ := Option.bind_eq_some_iff.mp accepted
    obtain ⟨kind, isOpen, same⟩ := Option.bind_eq_some_iff.mp accepted
    exact ⟨index, kind, named, isOpen, (Option.some.inj same).symm⟩
  · rintro ⟨index, kind, named, isOpen, rfl⟩
    rw [stopBlock, named]
    simp only [Option.bind_eq_bind, Option.bind_some, isOpen]

theorem mark?_stop_of {index : Int} (name : event.event = "content_block_stop")
    (named : eventIndex event = some index) : event.mark? = some (.stop index) :=
  (mark?_stop name).trans (congrArg _ named)

/-- A block event, by its name, or none. -/
theorem name_cases (event : ParsedSseEvent) :
    event.event = "content_block_start" ∨ event.event = "content_block_delta" ∨
      event.event = "content_block_stop" ∨ event.sseEvent.isBlockEvent = false := by
  cases block : event.sseEvent.isBlockEvent with
  | false => exact .inr (.inr (.inr rfl))
  | true =>
    simp only [SseEvent.isBlockEvent, Bool.or_eq_true, decide_eq_true_eq] at block
    rcases block with (started | extended) | stopped
    · exact .inl started
    · exact .inr (.inl extended)
    · exact .inr (.inr (.inl stopped))

/-- What one event is asked for. -/
structure Fitting (text : CliText) (allowError : Bool) (events : List ParsedSseEvent) (nest : Nest Int)
    (event : ParsedSseEvent) : Prop where
  quiet : allowError = false → event.event ≠ "error"
  reads : ∃ after, Reads nest [event.sseEvent] after
  startable : Startable text event
  fits : ∀ start ∈ events, ∀ index, start.mark? = some (.start index) →
    event.mark? = some (.delta index) → Fits text start event

/-- **The start of a block.** -/
theorem Describes.start (described : Describes text events nest blocks)
    (name : event.event = "content_block_start") (started : startBlock text blocks event = some next) :
    Fitting text allowError events nest event ∧ ∃ after, Reads nest [event.sseEvent] after ∧
      Describes text (events ++ [event]) after next := by
  obtain ⟨index, block, named, there, allowed, closed, fresh, rfl⟩ := startBlock_iff.mp started
  have read : event.mark? = some (.start index) := mark?_start_iff.mpr ⟨name, named⟩
  have reads : Reads nest [event.sseEvent] (nest.start index) :=
    (Reads.single_iff read).mpr (Nest.step_start (described.seen ▸ fresh))
  refine ⟨⟨fun _ => by rw [name]; decide, ⟨_, reads⟩, fun other same => ⟨block, there, allowed⟩,
    fun start _ other _ extends_ => ?_⟩, _, reads, ?_⟩
  · rw [read] at extends_
    cases extends_
  constructor
  case isOpen =>
    intro other
    rw [Dict.get?_set, Nest.opened_start, Finset.mem_insert]
    split_ifs with same
    · exact iff_of_true rfl (.inl same)
    · rw [described.isOpen other, or_iff_right same]
  case seen => rw [Nest.seen_start, described.seen]
  case started =>
    intro other kind found
    rw [Dict.get?_set] at found
    split_ifs at found with same
    · subst same
      exact ⟨event, by simp, read, block, there, Option.some.inj found⟩
    · obtain ⟨start, member, starts, isKind⟩ := described.started other kind found
      exact ⟨start, List.mem_append_left _ member, starts, isKind⟩
  case only =>
    intro start member other kind starts found
    rw [Dict.get?_set] at found
    rcases List.mem_append.mp member with before | isLast
    · split_ifs at found with same
      · subst same
        have used := described.used start before other (.inl starts)
        exact absurd (described.seen ▸ used) fresh
      · exact described.only start before other kind starts found
    · cases List.mem_singleton.mp isLast
      cases Option.some.inj (starts.symm.trans read)
      rw [if_pos rfl] at found
      exact ⟨block, there, Option.some.inj found⟩
  case used =>
    intro other member index' about
    rw [Nest.seen_start, Finset.mem_insert]
    rcases List.mem_append.mp member with before | isLast
    · exact .inr (described.used other before index' about)
    · cases List.mem_singleton.mp isLast
      rcases about with starts | extends_
      · cases Option.some.inj (starts.symm.trans read)
        exact .inl rfl
      · cases Option.some.inj (extends_.symm.trans read)

/-- An event that starts no block leaves what is told of the started ones. -/
theorem Describes.beside {after : Nest Int} (described : Describes text events nest blocks)
    (unstarted : ∀ index, event.mark? ≠ some (.start index))
    (known : ∀ index, event.mark? = some (.delta index) → index ∈ nest.seen)
    (seen : after.seen = nest.seen) (same : next.seenBlocks = blocks.seenBlocks)
    (isOpen : ∀ index, (next.openBlocks.get? index).isSome ↔ index ∈ after.opened)
    (kept : ∀ index kind, next.openBlocks.get? index = some kind →
      blocks.openBlocks.get? index = some kind) : Describes text (events ++ [event]) after next where
  isOpen := isOpen
  seen := by rw [same, seen, described.seen]
  started index kind found := by
    obtain ⟨start, member, starts, isKind⟩ := described.started index kind (kept index kind found)
    exact ⟨start, List.mem_append_left _ member, starts, isKind⟩
  only start member index kind starts found := by
    rcases List.mem_append.mp member with before | isLast
    · exact described.only start before index kind starts (kept index kind found)
    · cases List.mem_singleton.mp isLast
      exact absurd starts (unstarted index)
  used other member index about := by
    rw [seen]
    rcases List.mem_append.mp member with before | isLast
    · exact described.used other before index about
    · cases List.mem_singleton.mp isLast
      exact about.elim (fun starts => absurd starts (unstarted index)) (known index)

/-- **A delta of a block.** -/
theorem Describes.delta (described : Describes text events nest blocks)
    (name : event.event = "content_block_delta") (extended : deltaBlock text blocks event = some next) :
    Fitting text allowError events nest event ∧ ∃ after, Reads nest [event.sseEvent] after ∧
      Describes text (events ++ [event]) after next := by
  obtain ⟨index, kind, payload, named, isOpen, there, fitting, rfl⟩ := deltaBlock_iff.mp extended
  have read : event.mark? = some (.delta index) := mark?_delta_iff.mpr ⟨name, named⟩
  have opened : index ∈ nest.opened := (described.isOpen index).mp (by rw [isOpen]; rfl)
  have reads : Reads nest [event.sseEvent] nest := (Reads.single_iff read).mpr (Nest.step_delta opened)
  refine ⟨⟨fun _ => by rw [name]; decide, ⟨_, reads⟩, fun other starts => ?_,
    fun start member other starts extends_ => ?_⟩, _, reads, ?_⟩
  · cases read.symm.trans starts
  · cases Option.some.inj (extends_.symm.trans read)
    obtain ⟨block, isBlock, rfl⟩ := described.only start member index kind starts isOpen
    exact ⟨block, payload, isBlock, there, fitting⟩
  · refine described.beside (fun other starts => ?_) (fun other extends_ => ?_) rfl rfl described.isOpen
      fun _ _ found => found
    · cases read.symm.trans starts
    · cases Option.some.inj (extends_.symm.trans read)
      exact nest.within opened

/-- **The stop of a block.** -/
theorem Describes.stop (described : Describes text events nest blocks)
    (name : event.event = "content_block_stop") (stopped : stopBlock blocks event = some next) :
    Fitting text allowError events nest event ∧ ∃ after, Reads nest [event.sseEvent] after ∧
      Describes text (events ++ [event]) after next := by
  obtain ⟨index, kind, named, isOpen, rfl⟩ := stopBlock_iff.mp stopped
  have read : event.mark? = some (.stop index) := mark?_stop_of name named
  have opened : index ∈ nest.opened := (described.isOpen index).mp (by rw [isOpen]; rfl)
  have reads : Reads nest [event.sseEvent] (nest.stop index) :=
    (Reads.single_iff read).mpr (Nest.step_stop opened)
  refine ⟨⟨fun _ => by rw [name]; decide, ⟨_, reads⟩, fun other starts => ?_,
    fun start member other starts extends_ => ?_⟩, _, reads, ?_⟩
  · cases read.symm.trans starts
  · cases read.symm.trans extends_
  · refine described.beside (fun other starts => ?_) (fun other extends_ => ?_) (Nest.seen_stop nest index)
      rfl (fun other => ?_) fun other kind found => ?_
    · cases read.symm.trans starts
    · cases read.symm.trans extends_
    · rw [Dict.get?_erase, Nest.opened_stop, Finset.mem_erase]
      split_ifs with same
      · exact iff_of_false (by simp) fun both => both.1 same
      · rw [described.isOpen other, and_iff_right same]
    · rw [Dict.get?_erase] at found
      split_ifs at found
      exact found

/-- An event that is about no block. -/
theorem Describes.other (described : Describes text events nest blocks)
    (notBlock : event.sseEvent.isBlockEvent = false) (quiet : allowError = false → event.event ≠ "error") :
    Fitting text allowError events nest event ∧ ∃ after, Reads nest [event.sseEvent] after ∧
      Describes text (events ++ [event]) after blocks := by
  have read : event.mark? = none := SseEvent.mark?_eq_none_of_not_block notBlock
  have reads : Reads nest [event.sseEvent] nest :=
    Reads.others fun other member => by rw [List.mem_singleton.mp member, notBlock]
  refine ⟨⟨quiet, ⟨_, reads⟩, fun other starts => ?_, fun start member other starts extends_ => ?_⟩, _,
    reads, ?_⟩
  · cases read.symm.trans starts
  · cases read.symm.trans extends_
  · refine described.beside (fun other starts => ?_) (fun other extends_ => ?_) rfl rfl described.isOpen
      fun _ _ found => found
    · cases read.symm.trans starts
    · cases read.symm.trans extends_

/-- What the loop does with an event, by its name. -/
theorem checkEvent_of_quiet (quiet : allowError = false → event.event ≠ "error") :
    checkEvent text allowError blocks event =
      if event.event = "content_block_start" then startBlock text blocks event
      else if event.event = "content_block_delta" then deltaBlock text blocks event
      else if event.event = "content_block_stop" then stopBlock blocks event
      else some blocks :=
  if_neg fun both => quiet both.2 both.1

/-- **What the assertions accept is read and typed.** -/
theorem fitting_of_check (described : Describes text events nest blocks)
    (accepted : checkEvent text allowError blocks event = some next) :
    Fitting text allowError events nest event ∧ ∃ after, Reads nest [event.sseEvent] after ∧
      Describes text (events ++ [event]) after next := by
  have quiet : allowError = false → event.event ≠ "error" := fun strict failed => by
    rw [checkEvent, if_pos ⟨failed, strict⟩] at accepted
    cases accepted
  rw [checkEvent_of_quiet quiet] at accepted
  split_ifs at accepted with started extended stopped
  · exact described.start started accepted
  · exact described.delta extended accepted
  · exact described.stop stopped accepted
  · cases Option.some.inj accepted
    rcases name_cases event with isStart | isDelta | isStop | notBlock
    · exact absurd isStart started
    · exact absurd isDelta extended
    · exact absurd isStop stopped
    · exact described.other notBlock quiet

/-- The index of a block event that a client reads. -/
theorem index_of_reads {after : Nest Int} (reads : Reads nest [event.sseEvent] after)
    (block : event.sseEvent.isBlockEvent = true) : ∃ index, eventIndex event = some index := by
  have isMark := reads.readable event.sseEvent List.mem_cons_self block
  obtain ⟨mark, read⟩ := Option.isSome_iff_exists.mp isMark
  obtain ⟨index, named, -⟩ := event_of_mark? read
  exact ⟨index, named⟩

/-- **What is read and typed is accepted.** -/
theorem check_of_fitting (described : Describes text events nest blocks)
    (fitting : Fitting text allowError events nest event) :
    ∃ next, checkEvent text allowError blocks event = some next := by
  obtain ⟨quiet, ⟨after, reads⟩, startable, fits⟩ := fitting
  rw [checkEvent_of_quiet quiet]
  rcases name_cases event with name | name | name | notBlock
  · obtain ⟨index, named⟩ := index_of_reads reads (by simp [SseEvent.isBlockEvent, ParsedSseEvent.sseEvent, name])
    have read : event.mark? = some (.start index) := mark?_start_iff.mpr ⟨name, named⟩
    obtain ⟨fresh, -⟩ := Option.ite_none_left_eq_some.mp ((Reads.single_iff read).mp reads)
    obtain ⟨block, there, allowed⟩ := startable index read
    rw [if_pos name]
    refine ⟨_, startBlock_iff.mpr ⟨index, block, named, there, allowed, ?_, described.seen ▸ fresh, rfl⟩⟩
    by_contra isOpen
    exact fresh (nest.within ((described.isOpen index).mp (Option.isSome_iff_ne_none.mpr isOpen)))
  · obtain ⟨index, named⟩ := index_of_reads reads (by simp [SseEvent.isBlockEvent, ParsedSseEvent.sseEvent, name])
    have read : event.mark? = some (.delta index) := mark?_delta_iff.mpr ⟨name, named⟩
    obtain ⟨opened, -⟩ := Option.ite_none_right_eq_some.mp ((Reads.single_iff read).mp reads)
    obtain ⟨kind, isOpen⟩ := Option.isSome_iff_exists.mp ((described.isOpen index).mpr opened)
    obtain ⟨start, member, starts, block, isBlock, rfl⟩ := described.started index kind isOpen
    obtain ⟨block', payload, isBlock', there, fits⟩ := fits start member index starts read
    cases isBlock.symm.trans isBlock'
    rw [if_neg (by rw [name]; decide), if_pos name]
    exact ⟨_, deltaBlock_iff.mpr ⟨index, _, payload, named, isOpen, there, fits, rfl⟩⟩
  · obtain ⟨index, named⟩ := index_of_reads reads (by simp [SseEvent.isBlockEvent, ParsedSseEvent.sseEvent, name])
    have read : event.mark? = some (.stop index) := mark?_stop_of name named
    obtain ⟨opened, -⟩ := Option.ite_none_right_eq_some.mp ((Reads.single_iff read).mp reads)
    obtain ⟨kind, isOpen⟩ := Option.isSome_iff_exists.mp ((described.isOpen index).mpr opened)
    rw [if_neg (by rw [name]; decide), if_neg (by rw [name]; decide), if_pos name]
    exact ⟨_, stopBlock_iff.mpr ⟨index, kind, named, isOpen, rfl⟩⟩
  · split_ifs with started extended stopped
    · simp [SseEvent.isBlockEvent, ParsedSseEvent.sseEvent, started] at notBlock
    · simp [SseEvent.isBlockEvent, ParsedSseEvent.sseEvent, extended] at notBlock
    · simp [SseEvent.isBlockEvent, ParsedSseEvent.sseEvent, stopped] at notBlock
    · exact ⟨blocks, rfl⟩

end Step

/-! ### The whole stream -/

section Run

variable {text : CliText} {allowError : Bool} {events : List ParsedSseEvent} {nest : Nest Int}
  {blocks : Blocks}

theorem typed_nil : Typed text [] where
  startable event member := by cases member
  fits start member := by cases member

/-- Types, event by event. -/
theorem typed_concat {event : ParsedSseEvent} (typed : Typed text events)
    (startable : Startable text event)
    (fits : ∀ start ∈ events, ∀ index, start.mark? = some (.start index) →
      event.mark? = some (.delta index) → Fits text start event)
    (fresh : ∀ index, event.mark? = some (.start index) → ∀ delta ∈ events,
      delta.mark? ≠ some (.delta index)) : Typed text (events ++ [event]) where
  startable other member := by
    rcases List.mem_append.mp member with before | isLast
    · exact typed.startable other before
    · cases List.mem_singleton.mp isLast
      exact startable
  fits start member delta member' index starts extends_ := by
    rcases List.mem_append.mp member with before | isLast
    · rcases List.mem_append.mp member' with before' | isLast
      · exact typed.fits start before delta before' index starts extends_
      · cases List.mem_singleton.mp isLast
        exact fits start before index starts extends_
    · cases List.mem_singleton.mp isLast
      rcases List.mem_append.mp member' with before' | isLast
      · exact absurd extends_ (fresh index starts delta before')
      · cases List.mem_singleton.mp isLast
        cases starts.symm.trans extends_

/-- Behind events that were accepted: they are read, typed and without an error. -/
theorem accepted_reads (accepted : events.foldlM (checkEvent text allowError) {} = some blocks) :
    ∃ nest, Reads Nest.empty (events.map ParsedSseEvent.sseEvent) nest ∧ Typed text events ∧
      (allowError = false → "error" ∉ events.map fun event => event.event) ∧
      Describes text events nest blocks := by
  induction events using List.reverseRecOn generalizing blocks with
  | nil =>
    cases Option.some.inj accepted
    exact ⟨Nest.empty, Reads.nil _, typed_nil, fun _ => List.not_mem_nil, describes_nil⟩
  | append_singleton events event ih =>
    rw [List.foldlM_append] at accepted
    obtain ⟨before, ran, accepted⟩ := Option.bind_eq_some_iff.mp accepted
    rw [List.foldlM_cons] at accepted
    obtain ⟨next, check, same⟩ := Option.bind_eq_some_iff.mp accepted
    cases Option.some.inj same
    obtain ⟨nest, reads, typed, quiet, described⟩ := ih ran
    obtain ⟨fitting, after, further, described'⟩ := fitting_of_check described check
    refine ⟨after, ?_, ?_, ?_, described'⟩
    · rw [List.map_append]
      exact reads.append further
    · refine typed_concat typed fitting.startable fitting.fits fun index starts delta member extends_ => ?_
      obtain ⟨fresh, -⟩ := Option.ite_none_left_eq_some.mp ((Reads.single_iff starts).mp further)
      exact fresh (described.used delta member index (.inr extends_))
    · intro strict
      rw [List.map_append, List.mem_append, not_or]
      exact ⟨quiet strict, fun isLast => fitting.quiet strict (List.mem_singleton.mp isLast).symm⟩

/-- Events that are read, typed and without an error are accepted. -/
theorem reads_accepted (reads : Reads Nest.empty (events.map ParsedSseEvent.sseEvent) nest)
    (typed : Typed text events)
    (quiet : allowError = false → "error" ∉ events.map fun event => event.event) :
    ∃ blocks, events.foldlM (checkEvent text allowError) {} = some blocks := by
  induction events using List.reverseRecOn generalizing nest with
  | nil => exact ⟨_, rfl⟩
  | append_singleton events event ih =>
    rw [List.map_append] at reads
    obtain ⟨middle, earlier, last⟩ := reads.split
    obtain ⟨blocks, ran⟩ := ih earlier
      ⟨fun other member => typed.startable other (List.mem_append_left _ member),
        fun start member delta member' => typed.fits start (List.mem_append_left _ member) delta
          (List.mem_append_left _ member')⟩
      fun strict member => quiet strict (by rw [List.map_append]; exact List.mem_append_left _ member)
    obtain ⟨nest', earlier', -, -, described⟩ := accepted_reads ran
    cases earlier.unique earlier'
    have isLast : event ∈ events ++ [event] := by simp
    obtain ⟨next, check⟩ := check_of_fitting described
      ⟨fun strict failed => quiet strict (List.mem_map.mpr ⟨event, isLast, failed⟩), ⟨_, last⟩,
        typed.startable event isLast,
        fun start member index => typed.fits start (List.mem_append_left _ member) event isLast index⟩
    refine ⟨next, ?_⟩
    rw [List.foldlM_append, ran, Option.bind_eq_bind, Option.bind_some, List.foldlM_cons, check]
    rfl

/-- No block is open, to the loop and to the client. -/
theorem Describes.closed_iff (described : Describes text events nest blocks) :
    blocks.openBlocks.entries = [] ↔ nest.opened = ∅ := by
  rw [Finset.eq_empty_iff_forall_notMem, List.eq_nil_iff_forall_not_mem]
  constructor
  · intro none_ index isOpen
    obtain ⟨kind, found⟩ := Option.isSome_iff_exists.mp ((described.isOpen index).mpr isOpen)
    exact none_ _ ((Dict.mem_entries_iff _).mpr found)
  · rintro none_ ⟨index, kind⟩ member
    refine none_ index ((described.isOpen index).mp ?_)
    rw [(Dict.mem_entries_iff _).mp member]
    rfl

/-- A loop that has seen a block has read its start. -/
theorem Describes.nonempty_iff (described : Describes text events nest blocks)
    (reads : Reads Nest.empty (events.map ParsedSseEvent.sseEvent) nest) :
    blocks.seenBlocks ≠ ∅ ↔
      ∃ index, Mark.start index ∈ marks (events.map ParsedSseEvent.sseEvent) := by
  rw [described.seen, ← Finset.nonempty_iff_ne_empty]
  constructor
  · rintro ⟨index, isSeen⟩
    exact ⟨index, Nest.mem_start_of_run reads.accepted isSeen (Finset.notMem_empty _)⟩
  · rintro ⟨index, isStart⟩
    exact ⟨index, Nest.mem_seen_of_run reads.accepted isStart⟩

/-- What passes the assertions keeps the contract. -/
theorem contract_of_asserted (asserted : assertAnthropicStreamContract text allowError events = some ()) :
    Contract text allowError events := by
  obtain ⟨⟨-, begins, ends⟩, ran⟩ := Option.ite_none_right_eq_some.mp asserted
  obtain ⟨blocks, accepted, left⟩ := Option.bind_eq_some_iff.mp ran
  obtain ⟨⟨closed, some_⟩, -⟩ := Option.ite_none_right_eq_some.mp left
  obtain ⟨nest, reads, typed, quiet, described⟩ := accepted_reads accepted
  exact ⟨begins, ends, quiet, wellNested_iff.mpr ⟨nest, reads, described.closed_iff.mp closed⟩,
    (described.nonempty_iff reads).mp some_, typed⟩

/-- What keeps the contract passes the assertions. -/
theorem asserted_of_contract (contract : Contract text allowError events) :
    assertAnthropicStreamContract text allowError events = some () := by
  obtain ⟨begins, ends, quiet, nested, some_, typed⟩ := contract
  obtain ⟨nest, reads, closed⟩ := wellNested_iff.mp nested
  obtain ⟨blocks, accepted⟩ := reads_accepted reads typed quiet
  obtain ⟨nest', reads', -, -, described⟩ := accepted_reads accepted
  cases reads.unique reads'
  have nonempty : events ≠ [] := by
    rintro rfl
    cases begins
  rw [assertAnthropicStreamContract, if_pos ⟨nonempty, begins, ends⟩, accepted]
  exact if_pos ⟨described.closed_iff.mpr closed, (described.nonempty_iff reads).mpr some_⟩

/-- **The assertions hold just of the streams that keep the contract.** -/
theorem contract_iff (text : CliText) (allowError : Bool) (events : List ParsedSseEvent) :
    assertAnthropicStreamContract text allowError events = some () ↔
      Contract text allowError events :=
  ⟨contract_of_asserted, asserted_of_contract⟩

end Run

end StreamContract

end ClaudeProxy
