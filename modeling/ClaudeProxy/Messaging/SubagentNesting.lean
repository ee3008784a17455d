/-
**The nesting of subagents** (`_subagent_push`, `_subagent_pop` and `apply` of
`messaging/transcript.py`).

* `apply_cases` — what one event does to the stacks: nothing, a push, or a pop of so many subagents.
* `NestedRun` — a buffer under its events, with a record of the tools that were announced, of the segment
  that each `Task` opened, and of the ids that have received their result.
* `Nests` — the two stacks go together, no `Task` on them has received its result, and a result of
  another tool leaves them as they are.
* `MatchesOwn` — a result matches, of the ids on the stack, only its own one, or at least that one first.
* **`nests_iff_matchesOwn`** — for distinct ids, the subagents nest throughout exactly when every result
  matches its own id; `readResult_closes_task` — a result that matches another one.
-/

import ClaudeProxy.Library.Transition
import ClaudeProxy.Messaging.TranscriptBuffer
import Mathlib.Data.List.Forall2
import Mathlib.Data.List.DropRight

namespace ClaudeProxy

/-! ### Ids -/

/-- What was stripped stays as it is. -/
theorem Py.strip_strip (text : String) : Py.strip (Py.strip text) = Py.strip text := by
  have asTake : ∀ text : String, Py.strip text =
      String.ofList ((text.toList.dropWhile Py.isSpace).rdropWhile Py.isSpace) := fun _ => rfl
  have inside := List.rdropWhile_prefix Py.isSpace (text.toList.dropWhile Py.isSpace)
  rw [asTake, asTake, String.toList_ofList]
  generalize isFront : text.toList.dropWhile Py.isSpace = front at inside ⊢
  -- The rest begins as the front does, which begins visibly.
  have visible : (front.rdropWhile Py.isSpace).dropWhile Py.isSpace =
      front.rdropWhile Py.isSpace := by
    cases same : front.rdropWhile Py.isSpace with
    | nil => rfl
    | cons first rest =>
      rw [same] at inside
      obtain ⟨back, rfl⟩ := inside
      refine List.dropWhile_cons_of_neg fun blank => ?_
      have begins := List.head_dropWhile_not Py.isSpace
        (show text.toList.dropWhile Py.isSpace ≠ [] by rw [isFront]; exact List.cons_ne_nil _ _)
      simp only [isFront, List.cons_append, List.head_cons] at begins
      rw [begins] at blank
      cases blank
  rw [visible, List.rdropWhile_idempotent]

theorem CliText.strip_printId (text : CliText) (value : Json) :
    Py.strip (text.printId value) = text.printId value := by
  unfold CliText.printId
  split_ifs
  · exact Py.strip_strip _
  · rfl

namespace Transcript

/-- An id matches itself. -/
theorem idsRoughlyMatch_self {id : String} (filled : id ≠ "") : idsRoughlyMatch id id = true := by
  unfold idsRoughlyMatch
  rw [if_neg (by simp [filled]), if_pos rfl]

namespace TranscriptBuffer

variable {buffer next : TranscriptBuffer}

/-! ### What an event does to the stacks -/

/-- A place of the transcript holds a subagent. -/
def HoldsSubagent (segments : List Segment) (place : Nat) : Prop :=
  ∃ segment, segments[place]? = some (.subagent segment)

/-- Subagents stay where they are. -/
def KeepsSubagents (buffer next : TranscriptBuffer) : Prop :=
  ∀ place, HoldsSubagent buffer.segments place → HoldsSubagent next.segments place

/-- The stacks and the names stay. -/
structure Quiet (buffer next : TranscriptBuffer) : Prop where
  stack : next.subagentStack = buffer.subagentStack
  places : next.subagentSegments = buffer.subagentSegments
  names : next.toolNameById = buffer.toolNameById
  keeps : KeepsSubagents buffer next

namespace Quiet

theorem refl (buffer : TranscriptBuffer) : Quiet buffer buffer := ⟨rfl, rfl, rfl, fun _ held => held⟩

theorem trans {middle : TranscriptBuffer} (first : Quiet buffer middle) (second : Quiet middle next) :
    Quiet buffer next :=
  ⟨second.stack.trans first.stack, second.places.trans first.places, second.names.trans first.names,
    fun place held => second.keeps place (first.keeps place held)⟩

theorem addSegment (buffer : TranscriptBuffer) (segment : Segment) :
    Quiet buffer (buffer.addSegment segment) := by
  refine ⟨rfl, rfl, rfl, fun place held => ?_⟩
  obtain ⟨subagent, found⟩ := held
  exact ⟨subagent, List.getElem?_append_left (List.getElem?_eq_some_iff.mp found).1 ▸ found⟩

/-- A change that makes a subagent of a subagent. -/
theorem changeSegment (buffer : TranscriptBuffer) (place : Nat) {change : Segment → Segment}
    (subagents : ∀ segment, ∃ changed, change (.subagent segment) = .subagent changed) :
    Quiet buffer (buffer.changeSegment place change) := by
  refine ⟨rfl, rfl, rfl, fun other held => ?_⟩
  obtain ⟨subagent, found⟩ := held
  show HoldsSubagent (buffer.segments.modify place change) other
  unfold HoldsSubagent
  rw [List.getElem?_modify, found]
  split_ifs
  · obtain ⟨changed, same⟩ := subagents subagent
    exact ⟨changed, congrArg some same⟩
  · exact ⟨subagent, rfl⟩

theorem stopBlock (buffer : TranscriptBuffer) (index : Int) : Quiet buffer (buffer.stopBlock index) := by
  unfold TranscriptBuffer.stopBlock stopThinking stopText stopToolUse
  split_ifs <;> exact ⟨rfl, rfl, rfl, fun _ held => held⟩

theorem stopThinking (buffer : TranscriptBuffer) (index : Int) :
    Quiet buffer (buffer.stopThinking index) := by
  unfold TranscriptBuffer.stopThinking
  split_ifs <;> exact ⟨rfl, rfl, rfl, fun _ held => held⟩

theorem stopText (buffer : TranscriptBuffer) (index : Int) : Quiet buffer (buffer.stopText index) := by
  unfold TranscriptBuffer.stopText
  split_ifs <;> exact ⟨rfl, rfl, rfl, fun _ held => held⟩

theorem reuseIndex (buffer : TranscriptBuffer) (index : Int) :
    Quiet buffer (buffer.reuseIndex index) := by
  unfold TranscriptBuffer.reuseIndex
  split_ifs
  · exact stopBlock buffer index
  · exact refl buffer

theorem startThinking (buffer : TranscriptBuffer) (index : Int) :
    Quiet buffer (buffer.startThinking index) := by
  have added := addSegment buffer (.thinking "")
  unfold TranscriptBuffer.startThinking
  dsimp only
  split_ifs
  · exact ⟨rfl, rfl, rfl, added.keeps⟩
  · exact added

theorem startText (buffer : TranscriptBuffer) (index : Int) : Quiet buffer (buffer.startText index) := by
  have added := addSegment buffer (.text "")
  unfold TranscriptBuffer.startText
  dsimp only
  split_ifs
  · exact ⟨rfl, rfl, rfl, added.keeps⟩
  · exact added

theorem addThinking (buffer : TranscriptBuffer) (index : Int) (more : String) :
    Quiet buffer (buffer.addThinking index more) := by
  unfold TranscriptBuffer.addThinking
  split
  · exact changeSegment buffer _ fun segment => ⟨segment, rfl⟩
  · exact (startThinking buffer index).trans (changeSegment _ _ fun segment => ⟨segment, rfl⟩)

theorem addText (buffer : TranscriptBuffer) (index : Int) (more : String) :
    Quiet buffer (buffer.addText index more) := by
  unfold TranscriptBuffer.addText
  split
  · exact changeSegment buffer _ fun segment => ⟨segment, rfl⟩
  · exact (startText buffer index).trans (changeSegment _ _ fun segment => ⟨segment, rfl⟩)

theorem showToolCall (buffer : TranscriptBuffer) (name : String) :
    Quiet buffer (buffer.showToolCall name) := by
  unfold TranscriptBuffer.showToolCall
  split
  · exact changeSegment buffer _ fun segment => ⟨_, rfl⟩
  · exact addSegment buffer _

end Quiet

/-- An announced tool, under its id. -/
structure Names (buffer next : TranscriptBuffer) (id name : String) : Prop where
  names : id ≠ "" → next.toolNameById = buffer.toolNameById.set id name
  keeps : KeepsSubagents buffer next
  other : name ≠ "Task" → next.subagentStack = buffer.subagentStack ∧
    next.subagentSegments = buffer.subagentSegments
  task : id ≠ "" → name = "Task" → next.subagentStack = id :: buffer.subagentStack ∧
    next.subagentSegments = buffer.segments.length :: buffer.subagentSegments ∧
    HoldsSubagent next.segments buffer.segments.length

/-- Some subagents are closed. -/
structure Closes (buffer next : TranscriptBuffer) (id : String) (count : Nat) : Prop where
  stack : next.subagentStack = buffer.subagentStack.drop count
  places : next.subagentSegments = buffer.subagentSegments.drop count
  names : next.toolNameById = buffer.toolNameById
  keeps : KeepsSubagents buffer next
  matching : id ≠ "" → ∀ depth, buffer.subagentStack.findIdx? (idsRoughlyMatch · id) = some depth →
    count = depth + 1
  unmatched : id ≠ "" → buffer.subagentStack.findIdx? (idsRoughlyMatch · id) = none →
    ∀ name, buffer.toolNameById.get? id = some name → name ≠ "Task" → count = 0

variable (py : TranscriptText)

theorem segments_reuseIndex (buffer : TranscriptBuffer) (index : Int) :
    (buffer.reuseIndex index).segments = buffer.segments := by
  unfold reuseIndex stopBlock stopThinking stopText stopToolUse
  split_ifs <;> rfl

/-- **A tool is announced**: `tool_use` and the part that `tool_use_start` has in common with it. -/
theorem useTool_names (buffer : TranscriptBuffer) (id name input : Json) :
    Names buffer (useTool py buffer id name input) (py.printId id) (toolName py name) := by
  generalize isId : py.printId id = toolId
  have named : ∀ other : TranscriptBuffer, Quiet (buffer.nameTool toolId (toolName py name)) other →
      (toolId ≠ "" → other.toolNameById = buffer.toolNameById.set toolId (toolName py name)) ∧
      KeepsSubagents buffer other ∧ other.subagentStack = buffer.subagentStack ∧
      other.subagentSegments = buffer.subagentSegments := by
    intro other quiet
    unfold nameTool at quiet
    split_ifs at quiet with filled
    · exact ⟨fun _ => quiet.names, quiet.keeps, quiet.stack, quiet.places⟩
    · exact ⟨fun other => absurd other filled, quiet.keeps, quiet.stack, quiet.places⟩
  have stripped : Py.strip toolId = toolId := isId ▸ py.strip_printId id
  have places : (buffer.nameTool toolId (toolName py name)).segments = buffer.segments := by
    unfold nameTool
    split_ifs <;> rfl
  unfold useTool
  dsimp only
  rw [isId]
  split_ifs with isTask
  · obtain ⟨names, keeps, stack, segments⟩ := named _ (Quiet.addSegment _
      (.subagent { description := taskHeadingFromInput py input }))
    unfold startSubagent subagentPush
    dsimp only
    rw [stripped]
    refine ⟨names, keeps, fun other => absurd isTask other, fun filled _ => ⟨?_, ?_, ?_⟩⟩
    · rw [if_neg filled, stack]
    · rw [places, segments]
    · refine ⟨{ description := taskHeadingFromInput py input }, ?_⟩
      show ((buffer.nameTool toolId (toolName py name)).segments ++ [_])[_]? = _
      rw [places, List.getElem?_append_right (Nat.le_refl _), Nat.sub_self]
      rfl
  · obtain ⟨names, keeps, stack, segments⟩ := named _ (Quiet.showToolCall _ (toolName py name))
    exact ⟨names, keeps, fun _ => ⟨stack, segments⟩, fun _ task => absurd task isTask⟩

/-- `tool_use_start` does so behind the stop of a block, and opens its own. -/
theorem startToolUse_eq (buffer : TranscriptBuffer) (index : Int) (id name input : Json) :
    ∃ indexes, startToolUse py buffer index id name input =
      { useTool py (buffer.reuseIndex index) id name input with openToolsByIndex := indexes } := by
  unfold startToolUse useTool
  dsimp only
  split_ifs
  · exact ⟨_, rfl⟩
  · exact ⟨_, rfl⟩
  · exact ⟨_, rfl⟩

theorem startToolUse_names (buffer : TranscriptBuffer) (index : Int) (id name input : Json) :
    Names buffer (startToolUse py buffer index id name input) (py.printId id) (toolName py name) := by
  have reused := Quiet.reuseIndex buffer index
  have used := useTool_names py (buffer.reuseIndex index) id name input
  obtain ⟨indexes, same⟩ := startToolUse_eq py buffer index id name input
  rw [same]
  refine ⟨fun filled => reused.names ▸ used.names filled,
    fun place held => used.keeps place (reused.keeps place held), fun other => ?_, fun filled task => ?_⟩
  · rw [← reused.stack, ← reused.places]
    exact used.other other
  · rw [← reused.stack, ← reused.places, ← segments_reuseIndex buffer index]
    exact used.task filled task

/-! ### A result -/

/-- A pop takes the stack down to the first id that matches. -/
theorem subagentPop_eq (buffer : TranscriptBuffer) {id : String} (filled : id ≠ "")
    (stripped : Py.strip id = id) : buffer.subagentPop id =
      match buffer.subagentStack.findIdx? (idsRoughlyMatch · id) with
      | none => (buffer, false)
      | some depth => (buffer.popped (depth + 1), true) := by
  unfold subagentPop
  rw [stripped]
  cases buffer.subagentStack with
  | nil => rfl
  | cons top rest =>
    dsimp only
    rw [if_pos filled]
    split_ifs with first
    · rw [List.findIdx?_cons, first]
      rfl
    · rfl

/-- A result without an id closes a synthetic subagent, if any. -/
theorem subagentPop_empty (buffer : TranscriptBuffer) :
    ∃ count, (buffer.subagentPop "").1 = buffer.popped count := by
  unfold subagentPop
  split
  · exact ⟨0, rfl⟩
  · rw [if_neg (by decide)]
    split_ifs
    · exact ⟨1, rfl⟩
    · exact ⟨0, rfl⟩

/-- **What a result closes.** -/
theorem closeSubagent_closes (buffer : TranscriptBuffer) {id : String} (stripped : Py.strip id = id) :
    ∃ count, Closes buffer (closeSubagent py buffer id) id count := by
  have closes : ∀ count, (id ≠ "" → ∀ depth,
        buffer.subagentStack.findIdx? (idsRoughlyMatch · id) = some depth → count = depth + 1) →
      (id ≠ "" → buffer.subagentStack.findIdx? (idsRoughlyMatch · id) = none →
        ∀ name, buffer.toolNameById.get? id = some name → name ≠ "Task" → count = 0) →
      Closes buffer (buffer.popped count) id count :=
    fun count matching unmatched => ⟨rfl, rfl, rfl, fun _ held => held, matching, unmatched⟩
  unfold closeSubagent
  split
  · rename_i empty
    refine ⟨0, closes 0 (fun _ depth found => ?_) fun _ _ _ _ _ => rfl⟩
    rw [empty] at found
    cases found
  · dsimp only
    by_cases filled : id = ""
    · subst filled
      obtain ⟨count, same⟩ := subagentPop_empty buffer
      refine ⟨count, ?_⟩
      rw [if_neg (by simp), same]
      exact closes count (fun other => absurd rfl other) fun other => absurd rfl other
    · rw [subagentPop_eq buffer filled stripped]
      cases found : buffer.subagentStack.findIdx? (idsRoughlyMatch · id) with
      | some depth =>
        refine ⟨depth + 1, ?_⟩
        dsimp only
        rw [if_neg (by simp)]
        refine closes _ (fun _ other same => ?_) fun _ none_ => ?_
        · rw [← Option.some.inj (found.symm.trans same)]
        · rw [found] at none_
          cases none_
      | none =>
        have unmatched : ∀ depth, buffer.subagentStack.findIdx? (idsRoughlyMatch · id) = some depth →
            False := fun depth same => by rw [found] at same; cases same
        dsimp only
        split
        · rename_i synthetic
          obtain ⟨count, same⟩ := subagentPop_empty buffer
          refine ⟨count, ?_⟩
          rw [same]
          refine closes count (fun _ depth same => (unmatched depth same).elim)
            fun _ _ name known other => ?_
          rw [known] at synthetic
          rcases synthetic.2.2.2.1 with absent | task
          · cases absent
          · exact absurd (Option.some.inj task) other
        · exact ⟨0, closes 0 (fun _ depth same => (unmatched depth same).elim) fun _ _ _ _ _ => rfl⟩

theorem showResult_closes (buffer : TranscriptBuffer) (toolUseId content isError : Json) :
    ∃ count, Closes buffer (showResult py buffer toolUseId content isError) (py.printId toolUseId)
      count := by
  obtain ⟨count, closes⟩ := closeSubagent_closes py buffer (py.strip_printId toolUseId)
  refine ⟨count, ?_⟩
  unfold showResult
  dsimp only
  split_ifs
  · have added := Quiet.addSegment (closeSubagent py buffer (py.printId toolUseId))
      (.toolResult (buffer.toolNameById.get? (py.printId toolUseId)) (contentText py content)
        (py.truthy isError))
    exact ⟨closes.stack, closes.places, closes.names,
      fun place held => added.keeps place (closes.keeps place held), closes.matching, closes.unmatched⟩
  · exact closes

end TranscriptBuffer

/-! ### Every event -/

section Events

variable (py : TranscriptText)

/-- The id and the name of the tool that an event announces. -/
def TranscriptEvent.announces : TranscriptEvent → Option (String × String)
  | .toolUseStart _ id name _ => some (py.printId id, TranscriptBuffer.toolName py name)
  | .toolUse id name _ => some (py.printId id, TranscriptBuffer.toolName py name)
  | _ => none

/-- The id whose result an event is. -/
def TranscriptEvent.answers : TranscriptEvent → Option String
  | .toolResult toolUseId _ _ => some (py.printId toolUseId)
  | _ => none

/-- **What one event does to the stacks.** -/
theorem TranscriptBuffer.apply_cases (buffer : TranscriptBuffer) (event : TranscriptEvent) :
    (event.announces py = none ∧ event.answers py = none ∧ Quiet buffer (buffer.apply py event)) ∨
    (∃ id name, event.announces py = some (id, name) ∧ Names buffer (buffer.apply py event) id name) ∨
    ∃ id count, event.announces py = none ∧ event.answers py = some id ∧
      Closes buffer (buffer.apply py event) id count := by
  have shown : ∀ next, Quiet buffer next →
      Quiet buffer (if buffer.subagentStack ≠ [] then buffer else next) := by
    intro next quiet
    split_ifs
    · exact Quiet.refl buffer
    · exact quiet
  cases event with
  | thinkingStart index =>
    exact .inl ⟨rfl, rfl, shown _ ((Quiet.reuseIndex buffer index).trans (Quiet.startThinking _ index))⟩
  | thinking index text => exact .inl ⟨rfl, rfl, shown _ (Quiet.addThinking buffer index _)⟩
  | thinkingStop index => exact .inl ⟨rfl, rfl, Quiet.stopThinking buffer index⟩
  | textStart index =>
    exact .inl ⟨rfl, rfl, shown _ ((Quiet.reuseIndex buffer index).trans (Quiet.startText _ index))⟩
  | text index text => exact .inl ⟨rfl, rfl, shown _ (Quiet.addText buffer index _)⟩
  | textStop index => exact .inl ⟨rfl, rfl, Quiet.stopText buffer index⟩
  | toolUseStop index => exact .inl ⟨rfl, rfl, rfl, rfl, rfl, fun _ held => held⟩
  | blockStop index => exact .inl ⟨rfl, rfl, Quiet.stopBlock buffer index⟩
  | toolUseDelta | other => exact .inl ⟨rfl, rfl, Quiet.refl buffer⟩
  | error message => exact .inl ⟨rfl, rfl, Quiet.addSegment buffer _⟩
  | toolUseStart index id name input =>
    exact .inr (.inl ⟨_, _, rfl, startToolUse_names py buffer index id name input⟩)
  | toolUse id name input => exact .inr (.inl ⟨_, _, rfl, useTool_names py buffer id name input⟩)
  | toolResult toolUseId content isError =>
    obtain ⟨count, closes⟩ := showResult_closes py buffer toolUseId content isError
    exact .inr (.inr ⟨_, count, rfl, rfl, closes⟩)

end Events

/-! ### Runs -/

/-- A buffer; the ids and names that were announced; the ids of each `Task` with the place of its
segment; the ids that have received a result since they were announced; and whether the last event, if
it was the result of another tool, left the stack as it was. -/
structure NestedRun where
  buffer : TranscriptBuffer
  announced : List (String × String) := []
  opened : List (String × Nat) := []
  answered : List String := []
  kept : Bool := true

namespace NestedRun

/-- A tool other than `Task` has announced the id. -/
def OfOther (run : NestedRun) (id : String) : Prop :=
  ∃ entry ∈ run.announced, entry.1 = id ∧ entry.2 ≠ "Task"

instance (run : NestedRun) (id : String) : Decidable (run.OfOther id) :=
  inferInstanceAs (Decidable (∃ entry ∈ run.announced, entry.1 = id ∧ entry.2 ≠ "Task"))

/-- A buffer without events. -/
def start (showToolResults : Bool) : NestedRun := { buffer := { showToolResults } }

def step (py : TranscriptText) (run : NestedRun) (event : TranscriptEvent) : NestedRun :=
  let buffer := run.buffer.apply py event
  match event.announces py, event.answers py with
  | some (id, name), _ =>
    { buffer
      announced := run.announced ++ [(id, name)]
      opened := if name = "Task" then run.opened ++ [(id, run.buffer.segments.length)] else run.opened
      answered := run.answered.filter (· ≠ id)
      kept := true }
  | none, some id =>
    { run with
      buffer
      answered := id :: run.answered
      kept := decide (run.OfOther id → buffer.subagentStack = run.buffer.subagentStack) }
  | none, none => { run with buffer, kept := true }

end NestedRun

def nestingMachine (py : TranscriptText) : Machine NestedRun TranscriptEvent where
  init run := ∃ showToolResults, run = NestedRun.start showToolResults
  step run event := some (run.step py event)

/-- The announced ids are distinct, and none is empty. -/
structure DistinctIds (py : TranscriptText) (events : List TranscriptEvent) : Prop where
  distinct : ((events.filterMap (·.announces py)).map Prod.fst).Nodup
  filled : "" ∉ (events.filterMap (·.announces py)).map Prod.fst

/-! ### What is asked -/

namespace NestedRun

/-- A segment is the one of an id: that id's `Task` has opened it. -/
def Belongs (run : NestedRun) (id : String) (place : Nat) : Prop :=
  (id, place) ∈ run.opened ∧ TranscriptBuffer.HoldsSubagent run.buffer.segments place

/-- **The subagents nest**: the stacks go together, segment by id; no `Task` on the stack has received
its result, so that behind the results of all of them the stack is empty; and the result of another tool
has left the stack as it was. -/
structure Nests (run : NestedRun) : Prop where
  parallel : List.Forall₂ run.Belongs run.buffer.subagentStack run.buffer.subagentSegments
  sameLength : run.buffer.subagentStack.length = run.buffer.subagentSegments.length
  unanswered : ∀ id ∈ run.buffer.subagentStack, id ∉ run.answered
  closes : (∀ id ∈ run.buffer.subagentStack, id ∈ run.answered) → run.buffer.subagentStack = []
  kept : run.kept = true

/-- **A result matches its own id**: if another tool has announced it, it matches no id on the stack; if
it is on the stack, it matches none above itself. -/
structure MatchesOwn (py : TranscriptText) (run : NestedRun) (event : TranscriptEvent) : Prop where
  ofOther : ∀ id, event.answers py = some id → run.OfOther id →
    ∀ other ∈ run.buffer.subagentStack, idsRoughlyMatch other id = false
  ownFirst : ∀ id, event.answers py = some id →
    ∀ above below, run.buffer.subagentStack = above ++ id :: below →
      ∀ other ∈ above, idsRoughlyMatch other id = false

/-! ### One event -/

/-- What a run of distinct ids knows. -/
structure Known (run : NestedRun) : Prop where
  names : ∀ entry ∈ run.announced, run.buffer.toolNameById.get? entry.1 = some entry.2
  filled : ∀ entry ∈ run.announced, entry.1 ≠ ""
  tasks : ∀ id ∈ run.buffer.subagentStack, (id, "Task") ∈ run.announced
  distinct : run.buffer.subagentStack.Nodup
  parallel : List.Forall₂ run.Belongs run.buffer.subagentStack run.buffer.subagentSegments

/-- The event announces no empty id, and none that was announced before. -/
def Announces (py : TranscriptText) (run : NestedRun) (event : TranscriptEvent) : Prop :=
  ∀ id name, event.announces py = some (id, name) → id ≠ "" ∧ id ∉ run.announced.map Prod.fst

variable {py : TranscriptText} {run : NestedRun} {event : TranscriptEvent}

/-- Segments that stay belong to their ids. -/
theorem belongs_of_keeps (run : NestedRun) {next : NestedRun}
    (keeps : run.buffer.KeepsSubagents next.buffer)
    (more : ∀ entry ∈ run.opened, entry ∈ next.opened) {ids : List String} {places : List Nat}
    (parallel : List.Forall₂ run.Belongs ids places) : List.Forall₂ next.Belongs ids places :=
  parallel.imp fun _ place belongs => ⟨more _ belongs.1, keeps place belongs.2⟩

theorem step_quiet (announces : event.announces py = none) (answers : event.answers py = none) :
    run.step py event = { run with buffer := run.buffer.apply py event, kept := true } := by
  unfold step
  rw [announces, answers]

theorem step_announces {id name : String} (announces : event.announces py = some (id, name)) :
    run.step py event =
      { buffer := run.buffer.apply py event
        announced := run.announced ++ [(id, name)]
        opened := if name = "Task" then run.opened ++ [(id, run.buffer.segments.length)] else run.opened
        answered := run.answered.filter (· ≠ id)
        kept := true } := by
  unfold step
  rw [announces]

theorem step_answers {id : String} (announces : event.announces py = none)
    (answers : event.answers py = some id) : run.step py event =
      { run with
        buffer := run.buffer.apply py event
        answered := id :: run.answered
        kept := decide (run.OfOther id →
          (run.buffer.apply py event).subagentStack = run.buffer.subagentStack) } := by
  unfold step
  rw [announces, answers]

/-- Behind an event that leaves the stacks. -/
theorem Known.quiet {buffer : TranscriptBuffer} (known : run.Known)
    (quiet : TranscriptBuffer.Quiet run.buffer buffer) : Known { run with buffer, kept := true } := by
  refine ⟨quiet.names.symm ▸ known.names, known.filled, quiet.stack.symm ▸ known.tasks,
    quiet.stack.symm ▸ known.distinct, ?_⟩
  show List.Forall₂ _ buffer.subagentStack buffer.subagentSegments
  rw [quiet.stack, quiet.places]
  refine belongs_of_keeps run ?_ ?_ known.parallel
  · exact quiet.keeps
  · exact fun _ member => member

/-- Behind a tool whose id is new. -/
theorem Known.announced {buffer : TranscriptBuffer} {id name : String} (known : run.Known)
    (filled : id ≠ "") (fresh : id ∉ run.announced.map Prod.fst)
    (named : TranscriptBuffer.Names run.buffer buffer id name) (answered : List String) :
    Known
      { buffer
        announced := run.announced ++ [(id, name)]
        opened := if name = "Task" then run.opened ++ [(id, run.buffer.segments.length)] else run.opened
        answered } := by
  have names : ∀ entry ∈ run.announced ++ [(id, name)],
      buffer.toolNameById.get? entry.1 = some entry.2 := by
    rw [named.names filled]
    refine List.forall_mem_append.mpr ⟨fun entry member => ?_, fun entry last => ?_⟩
    · have other : entry.1 ≠ id := fun same => fresh (List.mem_map.mpr ⟨entry, member, same⟩)
      rw [Dict.get?_set_ne _ other]
      exact known.names entry member
    · rw [List.mem_singleton.mp last, Dict.get?_set_self]
  have allFilled : ∀ entry ∈ run.announced ++ [(id, name)], entry.1 ≠ "" :=
    List.forall_mem_append.mpr ⟨known.filled, fun entry last => List.mem_singleton.mp last ▸ filled⟩
  have earlier : ∀ other ∈ run.buffer.subagentStack, (other, "Task") ∈ run.announced ++ [(id, name)] :=
    fun other inside => List.mem_append_left _ (known.tasks other inside)
  by_cases isTask : name = "Task"
  · obtain ⟨stack, places, holds⟩ := named.task filled isTask
    have notYet : id ∉ run.buffer.subagentStack := fun inside =>
      fresh (List.mem_map_of_mem (known.tasks id inside))
    refine ⟨names, allFilled, ?_, ?_, ?_⟩
    · show ∀ other ∈ buffer.subagentStack, _
      rw [stack]
      refine List.forall_mem_cons.mpr ⟨List.mem_append_right _ ?_, earlier⟩
      rw [isTask]
      exact List.mem_cons_self
    · show buffer.subagentStack.Nodup
      rw [stack]
      exact List.nodup_cons.mpr ⟨notYet, known.distinct⟩
    · show List.Forall₂ _ buffer.subagentStack buffer.subagentSegments
      rw [stack, places, if_pos isTask]
      refine .cons ⟨List.mem_append_right _ List.mem_cons_self, holds⟩ ?_
      exact belongs_of_keeps run named.keeps (fun _ member => List.mem_append_left _ member)
        known.parallel
  · obtain ⟨stack, places⟩ := named.other isTask
    refine ⟨names, allFilled, stack.symm ▸ earlier, stack.symm ▸ known.distinct, ?_⟩
    show List.Forall₂ _ buffer.subagentStack buffer.subagentSegments
    rw [stack, places, if_neg isTask]
    refine belongs_of_keeps run ?_ ?_ known.parallel
    · exact named.keeps
    · exact fun _ member => member

/-- Behind a result. -/
theorem Known.answered {buffer : TranscriptBuffer} {id : String} {count : Nat} (known : run.Known)
    (closes : TranscriptBuffer.Closes run.buffer buffer id count) (answered : List String)
    (kept : Bool) : Known { run with buffer, answered, kept } := by
  refine ⟨closes.names.symm ▸ known.names, known.filled, ?_, ?_, ?_⟩
  · show ∀ other ∈ buffer.subagentStack, _
    rw [closes.stack]
    exact fun other inside => known.tasks other (List.mem_of_mem_drop inside)
  · show buffer.subagentStack.Nodup
    rw [closes.stack]
    exact known.distinct.sublist (List.drop_sublist _ _)
  · show List.Forall₂ _ buffer.subagentStack buffer.subagentSegments
    rw [closes.stack, closes.places]
    refine belongs_of_keeps run ?_ ?_ (List.forall₂_drop count known.parallel)
    · exact closes.keeps
    · exact fun _ member => member

/-- **Every event keeps what is known.** -/
theorem Known.step (known : run.Known) (promised : run.Announces py event) :
    (run.step py event).Known := by
  rcases run.buffer.apply_cases py event with ⟨announces, answers, quiet⟩ |
    ⟨id, name, announces, named⟩ | ⟨id, count, announces, answers, closes⟩
  · rw [step_quiet announces answers]
    exact known.quiet quiet
  · obtain ⟨filled, fresh⟩ := promised id name announces
    rw [step_announces announces]
    exact known.announced filled fresh named _
  · rw [step_answers announces answers]
    exact known.answered closes _ _

/-- What nests is known but for two things. -/
theorem Known.nests_iff (known : run.Known) :
    run.Nests ↔ (∀ id ∈ run.buffer.subagentStack, id ∉ run.answered) ∧ run.kept = true := by
  constructor
  · exact fun nests => ⟨nests.unanswered, nests.kept⟩
  · rintro ⟨unanswered, kept⟩
    refine ⟨known.parallel, known.parallel.length_eq, unanswered, fun all => ?_, kept⟩
    exact List.eq_nil_iff_forall_not_mem.mpr fun id inside => unanswered id inside (all id inside)

/-- A result that closes no subagent but its own. -/
theorem matchesOwn_of_unasked (answers : event.answers py = none) : run.MatchesOwn py event := by
  constructor
  · intro id found
    rw [answers] at found
    cases found
  · intro id found
    rw [answers] at found
    cases found

/-- The first id of a stack that matches, if it stands behind some that do not. -/
theorem findIdx?_own {above : List String} (below : List String) {id : String} (filled : id ≠ "")
    (none_ : ∀ other ∈ above, idsRoughlyMatch other id = false) :
    (above ++ id :: below).findIdx? (idsRoughlyMatch · id) = some above.length := by
  induction above with
  | nil => rw [List.nil_append, List.findIdx?_cons, idsRoughlyMatch_self filled]; rfl
  | cons first rest ih =>
    obtain ⟨here, later⟩ := List.forall_mem_cons.mp none_
    rw [List.cons_append, List.findIdx?_cons, here, ih later]
    rfl

/-- **A result** closes its own subagent and leaves the others, exactly if it matches its own id. -/
theorem answers_iff (known : run.Known) {id : String} {count : Nat}
    (answers : event.answers py = some id)
    (closes : run.buffer.Closes (run.buffer.apply py event) id count) :
    (id ∉ run.buffer.subagentStack.drop count ∧
      (run.OfOther id → run.buffer.subagentStack.drop count = run.buffer.subagentStack)) ↔
      run.MatchesOwn py event := by
  have filledOther : run.OfOther id → id ≠ "" := by
    rintro ⟨entry, member, rfl, -⟩
    exact known.filled entry member
  constructor
  · rintro ⟨gone, stays⟩
    refine ⟨fun other same ofOther => ?_, fun other same above below split => ?_⟩
    · obtain rfl := Option.some.inj (same.symm.trans answers)
      have filled := filledOther ofOther
      cases found : run.buffer.subagentStack.findIdx? (idsRoughlyMatch · other) with
      | none => exact List.findIdx?_eq_none_iff.mp found
      | some depth =>
        -- Whatever matches would be closed, and the stack be shorter.
        have shorter := congrArg List.length (stays ofOther)
        obtain ⟨within, -⟩ := List.findIdx?_eq_some_iff_getElem.mp found
        rw [closes.matching filled depth found, List.length_drop] at shorter
        omega
    · obtain rfl := Option.some.inj (same.symm.trans answers)
      have inside : other ∈ run.buffer.subagentStack := by
        rw [split]
        exact List.mem_append_right _ List.mem_cons_self
      have filled : other ≠ "" := known.filled _ (known.tasks other inside)
      cases found : above.findIdx? (idsRoughlyMatch · other) with
      | none => exact List.findIdx?_eq_none_iff.mp found
      | some depth =>
        -- What matches above is closed, and the id itself stays.
        have first : run.buffer.subagentStack.findIdx? (idsRoughlyMatch · other) = some depth := by
          rw [split, List.findIdx?_append, found]
          rfl
        obtain ⟨within, -⟩ := List.findIdx?_eq_some_iff_getElem.mp found
        refine absurd ?_ gone
        rw [closes.matching filled depth first, split, List.drop_append_of_le_length within]
        exact List.mem_append_right _ List.mem_cons_self
  · intro matchesOwn
    constructor
    · intro remains
      have inside := List.mem_of_mem_drop remains
      have filled : id ≠ "" := known.filled _ (known.tasks id inside)
      obtain ⟨above, below, split⟩ := List.append_of_mem inside
      have own := findIdx?_own below filled (matchesOwn.ownFirst id answers above below split)
      rw [← split] at own
      have distinct := known.distinct
      rw [closes.matching filled above.length own, split] at remains
      rw [split, List.nodup_append, List.nodup_cons] at distinct
      rw [List.drop_append, List.drop_of_length_le (by omega), List.nil_append,
        show above.length + 1 - above.length = 1 by omega] at remains
      exact distinct.2.1.1 remains
    · intro ofOther
      have filled := filledOther ofOther
      have unmatched := List.findIdx?_eq_none_iff.mpr (matchesOwn.ofOther id answers ofOther)
      obtain ⟨entry, member, rfl, other⟩ := ofOther
      rw [closes.unmatched filled unmatched entry.2 (known.names entry member) other, List.drop_zero]

/-- **One event** of a run that nests goes on nesting exactly if it matches its own id. -/
theorem nests_step_iff (known : run.Known) (nests : run.Nests) (promised : run.Announces py event) :
    (run.step py event).Nests ↔ run.MatchesOwn py event := by
  rw [(known.step promised).nests_iff]
  rcases run.buffer.apply_cases py event with ⟨announces, answers, quiet⟩ |
    ⟨id, name, announces, named⟩ | ⟨id, count, announces, answers, closes⟩
  · refine iff_of_true ?_ (matchesOwn_of_unasked answers)
    rw [step_quiet announces answers]
    exact ⟨quiet.stack.symm ▸ nests.unanswered, rfl⟩
  · obtain ⟨filled, fresh⟩ := promised id name announces
    have answers : event.answers py = none := by
      cases event <;> first | rfl | cases announces
    refine iff_of_true ?_ (matchesOwn_of_unasked answers)
    rw [step_announces announces]
    have before : ∀ other ∈ run.buffer.subagentStack, other ∉ run.answered.filter (· ≠ id) :=
      fun other inside again => nests.unanswered other inside (List.mem_of_mem_filter again)
    refine ⟨?_, rfl⟩
    show ∀ other ∈ (run.buffer.apply py event).subagentStack, other ∉ run.answered.filter (· ≠ id)
    by_cases isTask : name = "Task"
    · rw [(named.task filled isTask).1]
      refine List.forall_mem_cons.mpr ⟨fun again => ?_, before⟩
      exact absurd rfl (of_decide_eq_true (List.mem_filter.mp again).2)
    · rw [(named.other isTask).1]
      exact before
  · rw [step_answers announces answers, ← answers_iff known answers closes]
    show (∀ other ∈ (run.buffer.apply py event).subagentStack, other ∉ id :: run.answered) ∧
      decide (run.OfOther id → (run.buffer.apply py event).subagentStack = run.buffer.subagentStack) =
        true ↔ _
    rw [closes.stack, decide_eq_true_iff]
    refine and_congr_left fun _ => ⟨fun unanswered remains => ?_, fun gone other inside again => ?_⟩
    · exact unanswered id remains List.mem_cons_self
    · rcases List.mem_cons.mp again with rfl | earlier
      · exact gone inside
      · exact nests.unanswered other (List.mem_of_mem_drop inside) earlier

end NestedRun

open NestedRun (Nests MatchesOwn)

/-! ### Whole runs -/

/-- What a run has announced. -/
theorem announced_of_run (py : TranscriptText) (showToolResults : Bool) (events : List TranscriptEvent) :
    ∃ run, (nestingMachine py).run (NestedRun.start showToolResults) events = some run ∧
      run.announced = events.filterMap (·.announces py) := by
  induction events using List.reverseRecOn with
  | nil => exact ⟨_, rfl, rfl⟩
  | append_singleton past event ih =>
    obtain ⟨run, ran, announced⟩ := ih
    refine ⟨run.step py event, by rw [Machine.run_concat, ran]; rfl, ?_⟩
    rw [List.filterMap_append, ← announced]
    unfold NestedRun.step
    cases announces : event.announces py with
    | none =>
      rw [List.filterMap_cons_none announces, List.filterMap_nil, List.append_nil]
      cases event.answers py <;> rfl
    | some entry => rw [List.filterMap_cons_some announces, List.filterMap_nil]

/-- Distinct ids are announced as such. -/
theorem announces_of_distinctIds {py : TranscriptText} (showToolResults : Bool)
    {events : List TranscriptEvent} (ids : DistinctIds py events) :
    (nestingMachine py).Obeys (NestedRun.start showToolResults) events (NestedRun.Announces py) := by
  intro before event inside run ran id name announces
  obtain ⟨other, same, announced⟩ := announced_of_run py showToolResults before
  obtain rfl := Option.some.inj (ran.symm.trans same)
  obtain ⟨after, rfl⟩ := inside
  have distinct := ids.distinct
  have filled := ids.filled
  rw [List.filterMap_append, List.filterMap_append, List.filterMap_cons_some announces,
    List.filterMap_nil, ← announced] at distinct filled
  rw [List.map_append, List.map_append] at distinct filled
  constructor
  · rintro rfl
    exact filled (List.mem_append_left _ (List.mem_append_right _ List.mem_cons_self))
  · intro again
    have apart := (List.nodup_append.mp (List.nodup_append.mp distinct).1).2.2
    exact apart id again id List.mem_cons_self rfl

/-- **Where the subagents nest.** In a run with distinct ids that are not empty: in every state, exactly
if every result matches its own id. -/
theorem nests_iff_matchesOwn (py : TranscriptText) (showToolResults : Bool)
    {events : List TranscriptEvent} (ids : DistinctIds py events) :
    (nestingMachine py).Throughout (NestedRun.start showToolResults) events Nests ↔
      (nestingMachine py).Obeys (NestedRun.start showToolResults) events (MatchesOwn py) := by
  obtain ⟨last, ran, -⟩ := announced_of_run py showToolResults events
  have known : (NestedRun.start showToolResults).Known :=
    ⟨fun _ member => (List.not_mem_nil member).elim, fun _ member => (List.not_mem_nil member).elim,
      fun _ member => (List.not_mem_nil member).elim, List.nodup_nil, .nil⟩
  have starts : (NestedRun.start showToolResults).Nests :=
    known.nests_iff.mpr ⟨fun _ member => (List.not_mem_nil member).elim, rfl⟩
  refine (Machine.throughout_iff_obeys_of ⟨known, starts⟩ ?_ ?_ events ran
    (announces_of_distinctIds showToolResults ids)).2
  · intro run event next known promised stepped
    obtain rfl := Option.some.inj stepped
    exact known.step promised
  · intro run event next known nests promised stepped
    obtain rfl := Option.some.inj stepped
    exact NestedRun.nests_step_iff known nests promised

/-- Python on plain texts in lower case. -/
def plainPython : TranscriptText where
  str _ := ""
  isZero _ := false
  lower text := text
  safeJsonDumps _ := ""

/-- A `Task`, and inside it a tool whose id begins with the one of the `Task`. -/
def readResult : List TranscriptEvent :=
  [.toolUse (.str "call_1") (.str "Task") .null, .toolUse (.str "call_10") (.str "Read") .null,
    .toolResult (.str "call_10") (.str "text") (.bool false)]

theorem readResult_distinct : DistinctIds plainPython readResult := ⟨by decide +kernel, by decide +kernel⟩

theorem readResult_nests_iff :
    (nestingMachine plainPython).Throughout (NestedRun.start true) readResult Nests ↔
      (nestingMachine plainPython).Obeys (NestedRun.start true) readResult (MatchesOwn plainPython) :=
  nests_iff_matchesOwn plainPython true readResult_distinct

/-- **The tool's result closes the subagent.** -/
theorem readResult_closes_task : ¬ ∀ events, DistinctIds plainPython events →
    (nestingMachine plainPython).Throughout (NestedRun.start true) events Nests := by
  intro claimed
  have shape : ((nestingMachine plainPython).run (NestedRun.start true) readResult).map (·.kept) =
      some false := by
    decide +kernel
  obtain ⟨run, ran, kept⟩ := Option.map_eq_some_iff.mp shape
  have nests := claimed readResult readResult_distinct readResult List.prefix_rfl run ran
  rw [nests.kept] at kept
  cases kept

end Transcript

end ClaudeProxy
