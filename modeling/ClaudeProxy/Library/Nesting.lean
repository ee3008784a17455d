/-
**Indexed blocks in a stream.**

A stream of marks starts, extends and stops blocks, each named by an index; blocks may overlap. A
`Nest` is what a reader knows after a prefix: the indexes started so far and those still open. It
accepts a mark only if a start is fresh and every delta and stop addresses an open block, so that a
stream is `Balanced` when a reader accepts all of it and ends with nothing open: then every started
index was started once and stopped once, and deltas lie between.

* `Nest.run_append` — reading is compositional;
* `Nest.run_stops` — stopping a duplicate-free list of open blocks.
-/

import Mathlib.Data.Finset.Basic
import Mathlib.Data.Finset.SDiff
import Mathlib.Data.List.Basic

namespace ClaudeProxy

variable {ι : Type}

/-- What one stream event says about a block. -/
inductive Mark (ι : Type) where
  | start (index : ι)
  | delta (index : ι)
  | stop (index : ι)
  deriving DecidableEq

/-- The started indexes, in stream order. -/
def starts (marks : List (Mark ι)) : List ι :=
  marks.filterMap fun
    | .start index => some index
    | _ => none

@[simp] theorem starts_nil : starts ([] : List (Mark ι)) = [] := rfl

@[simp] theorem starts_append (first second : List (Mark ι)) :
    starts (first ++ second) = starts first ++ starts second :=
  List.filterMap_append

@[simp] theorem starts_map_stop (indexes : List ι) : starts (indexes.map Mark.stop) = [] := by
  induction indexes with
  | nil => rfl
  | cons index rest ih => exact ih

/-- What a reader knows after a prefix. -/
structure Nest (ι : Type) where
  opened : Finset ι
  seen : Finset ι
  within : opened ⊆ seen
  deriving DecidableEq

namespace Nest

/-- Before the first event. -/
def empty : Nest ι := ⟨∅, ∅, Finset.Subset.refl _⟩

@[ext] theorem ext {first second : Nest ι} (opened : first.opened = second.opened)
    (seen : first.seen = second.seen) : first = second := by
  cases first
  cases second
  subst opened
  subst seen
  rfl

variable [DecidableEq ι]

/-- One block started. -/
def start (nest : Nest ι) (index : ι) : Nest ι :=
  ⟨insert index nest.opened, insert index nest.seen, Finset.insert_subset_insert _ nest.within⟩

/-- One block stopped. -/
def stop (nest : Nest ι) (index : ι) : Nest ι :=
  ⟨nest.opened.erase index, nest.seen, (Finset.erase_subset _ _).trans nest.within⟩

/-- A list of blocks stopped. -/
def close (nest : Nest ι) (indexes : List ι) : Nest ι :=
  ⟨nest.opened \ indexes.toFinset, nest.seen, Finset.sdiff_subset.trans nest.within⟩

@[simp] theorem opened_start (nest : Nest ι) (index : ι) :
    (nest.start index).opened = insert index nest.opened := rfl

@[simp] theorem seen_start (nest : Nest ι) (index : ι) :
    (nest.start index).seen = insert index nest.seen := rfl

@[simp] theorem opened_stop (nest : Nest ι) (index : ι) :
    (nest.stop index).opened = nest.opened.erase index := rfl

@[simp] theorem seen_stop (nest : Nest ι) (index : ι) : (nest.stop index).seen = nest.seen := rfl

@[simp] theorem opened_close (nest : Nest ι) (indexes : List ι) :
    (nest.close indexes).opened = nest.opened \ indexes.toFinset := rfl

@[simp] theorem seen_close (nest : Nest ι) (indexes : List ι) :
    (nest.close indexes).seen = nest.seen := rfl

@[simp] theorem close_nil (nest : Nest ι) : nest.close [] = nest := by
  apply ext
  · simp
  · rfl

/-- Read one mark; `none` when the reader rejects it. -/
def step (nest : Nest ι) : Mark ι → Option (Nest ι)
  | .start index => if index ∈ nest.seen then none else some (nest.start index)
  | .delta index => if index ∈ nest.opened then some nest else none
  | .stop index => if index ∈ nest.opened then some (nest.stop index) else none

/-- Read a stream. -/
def run (nest : Nest ι) : List (Mark ι) → Option (Nest ι)
  | [] => some nest
  | mark :: rest => (nest.step mark).bind fun next => next.run rest

theorem step_start {nest : Nest ι} {index : ι} (fresh : index ∉ nest.seen) :
    nest.step (.start index) = some (nest.start index) := if_neg fresh

theorem step_delta {nest : Nest ι} {index : ι} (isOpen : index ∈ nest.opened) :
    nest.step (.delta index) = some nest := if_pos isOpen

theorem step_stop {nest : Nest ι} {index : ι} (isOpen : index ∈ nest.opened) :
    nest.step (.stop index) = some (nest.stop index) := if_pos isOpen

@[simp] theorem run_nil (nest : Nest ι) : nest.run [] = some nest := rfl

theorem run_cons (nest : Nest ι) (mark : Mark ι) (rest : List (Mark ι)) :
    nest.run (mark :: rest) = (nest.step mark).bind fun next => next.run rest := rfl

theorem run_append (nest : Nest ι) (first second : List (Mark ι)) :
    nest.run (first ++ second) = (nest.run first).bind fun middle => middle.run second := by
  induction first generalizing nest with
  | nil => rfl
  | cons mark rest ih =>
    rw [List.cons_append, run_cons, run_cons, Option.bind_assoc]
    exact congrArg _ (funext fun next => ih next)

/-- A run that is accepted extends by an accepted continuation. -/
theorem run_append_of {nest middle : Nest ι} {first : List (Mark ι)}
    (accepted : nest.run first = some middle) (second : List (Mark ι)) :
    nest.run (first ++ second) = middle.run second := by
  rw [run_append, accepted, Option.bind_some]

theorem seen_subset_of_step {nest next : Nest ι} {mark : Mark ι}
    (accepted : nest.step mark = some next) : nest.seen ⊆ next.seen := by
  cases mark with
  | start index =>
    obtain ⟨-, same⟩ := Option.ite_none_left_eq_some.mp accepted
    rw [← Option.some.inj same]
    exact Finset.subset_insert _ _
  | delta index =>
    obtain ⟨-, same⟩ := Option.ite_none_right_eq_some.mp accepted
    rw [← Option.some.inj same]
  | stop index =>
    obtain ⟨-, same⟩ := Option.ite_none_right_eq_some.mp accepted
    rw [← Option.some.inj same]
    exact Finset.Subset.refl _

theorem seen_subset_of_run {nest last : Nest ι} {marks : List (Mark ι)}
    (accepted : nest.run marks = some last) : nest.seen ⊆ last.seen := by
  induction marks generalizing nest with
  | nil => rw [Option.some.inj accepted]
  | cons mark rest ih =>
    obtain ⟨next, step, later⟩ := Option.bind_eq_some_iff.mp accepted
    exact (seen_subset_of_step step).trans (ih later)

/-- What was started has been seen. -/
theorem mem_seen_of_run {nest last : Nest ι} {marks : List (Mark ι)} {index : ι}
    (accepted : nest.run marks = some last) (member : Mark.start index ∈ marks) :
    index ∈ last.seen := by
  induction marks generalizing nest with
  | nil => cases member
  | cons mark rest ih =>
    obtain ⟨next, step, later⟩ := Option.bind_eq_some_iff.mp accepted
    rcases List.mem_cons.mp member with rfl | member
    · obtain ⟨-, same⟩ := Option.ite_none_left_eq_some.mp step
      apply seen_subset_of_run later
      rw [← Option.some.inj same]
      exact Finset.mem_insert_self _ _
    · exact ih later member

/-- What has been seen was seen before, or is started. -/
theorem mem_start_of_run {nest last : Nest ι} {marks : List (Mark ι)} {index : ι}
    (accepted : nest.run marks = some last) (isSeen : index ∈ last.seen) (fresh : index ∉ nest.seen) :
    Mark.start index ∈ marks := by
  induction marks generalizing nest with
  | nil => exact absurd (Option.some.inj accepted ▸ isSeen) fresh
  | cons mark rest ih =>
    obtain ⟨next, step, later⟩ := Option.bind_eq_some_iff.mp accepted
    by_cases now : index ∈ next.seen
    · cases mark with
      | start other =>
        obtain ⟨-, same⟩ := Option.ite_none_left_eq_some.mp step
        rw [← Option.some.inj same, seen_start, Finset.mem_insert] at now
        rw [now.resolve_right fresh]
        exact List.mem_cons_self
      | delta other =>
        obtain ⟨-, same⟩ := Option.ite_none_right_eq_some.mp step
        exact absurd (Option.some.inj same ▸ now) fresh
      | stop other =>
        obtain ⟨-, same⟩ := Option.ite_none_right_eq_some.mp step
        rw [← Option.some.inj same, seen_stop] at now
        exact absurd now fresh
    · exact List.mem_cons_of_mem _ (ih later now)

/-- A block that is not stopped stays open. -/
theorem opened_of_run {nest last : Nest ι} {marks : List (Mark ι)} {index : ι}
    (accepted : nest.run marks = some last) (isOpen : index ∈ nest.opened)
    (unstopped : Mark.stop index ∉ marks) : index ∈ last.opened := by
  induction marks generalizing nest with
  | nil => exact Option.some.inj accepted ▸ isOpen
  | cons mark rest ih =>
    obtain ⟨next, step, later⟩ := Option.bind_eq_some_iff.mp accepted
    rw [List.mem_cons, not_or] at unstopped
    refine ih later ?_ unstopped.2
    cases mark with
    | start other =>
      obtain ⟨-, same⟩ := Option.ite_none_left_eq_some.mp step
      exact Option.some.inj same ▸ Finset.mem_insert_of_mem isOpen
    | delta other =>
      obtain ⟨-, same⟩ := Option.ite_none_right_eq_some.mp step
      exact Option.some.inj same ▸ isOpen
    | stop other =>
      obtain ⟨-, same⟩ := Option.ite_none_right_eq_some.mp step
      have away : index ≠ other := fun equal => unstopped.1 (congrArg Mark.stop equal)
      exact Option.some.inj same ▸ Finset.mem_erase.mpr ⟨away, isOpen⟩

/-- **Stopping a list of open blocks**, each once. -/
theorem run_stops {indexes : List ι} (distinct : indexes.Nodup) (nest : Nest ι)
    (opened : ∀ index ∈ indexes, index ∈ nest.opened) :
    nest.run (indexes.map Mark.stop) = some (nest.close indexes) := by
  induction indexes generalizing nest with
  | nil => rw [List.map_nil, run_nil, close_nil]
  | cons index rest ih =>
    rw [List.nodup_cons] at distinct
    have head : index ∈ nest.opened := opened index List.mem_cons_self
    have tail : ∀ other ∈ rest, other ∈ (nest.stop index).opened := by
      intro other member
      have different : other ≠ index := fun same => distinct.1 (same ▸ member)
      exact Finset.mem_erase.mpr ⟨different, opened other (List.mem_cons_of_mem _ member)⟩
    rw [List.map_cons, run_cons, step_stop head, Option.bind_some, ih distinct.2 _ tail]
    refine congrArg some (ext ?_ rfl)
    simp only [opened_close, opened_stop, List.toFinset_cons]
    rw [Finset.erase_sdiff_comm, Finset.sdiff_insert]

end Nest

/-- **A well nested stream**: accepted from the start, with nothing open at the end. -/
def Balanced [DecidableEq ι] (marks : List (Mark ι)) : Prop :=
  ∃ last, Nest.empty.run marks = some last ∧ last.opened = ∅

instance [DecidableEq ι] (marks : List (Mark ι)) : Decidable (Balanced marks) :=
  match accepted : Nest.empty.run marks with
  | none => isFalse fun ⟨_, other, _⟩ => by rw [accepted] at other; cases other
  | some last => decidable_of_iff (last.opened = ∅) <| by
      unfold Balanced
      rw [accepted]
      exact ⟨fun closed => ⟨last, rfl, closed⟩, fun ⟨_, same, closed⟩ =>
        (Option.some.inj same).symm ▸ closed⟩

end ClaudeProxy
