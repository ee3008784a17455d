/-
**Runs that stand in for each other.**

* `Output` — what a generator yielded, and how it ended: it completed, failed with an error that a
  caller may catch, or was aborted.
* `orElse`, `firstOf` — one run after another until one does not fail; nothing that was yielded is
  taken back.
* `Isolated` — no two of the runs that are made yield a chunk.
* **`firstOf_isOneRun_iff`** — the chunks of `firstOf` come from one single run exactly when the
  runs are isolated.
-/

import Mathlib.Data.List.Basic
import Mathlib.Data.List.Nodup

namespace ClaudeProxy

variable {α β ι : Type*}

/-- How a generator ends. -/
inductive Ending where
  | completes
  | fails
  | aborts
  deriving DecidableEq, Repr

/-- What a generator yields, and how it ends. -/
structure Output (α : Type*) where
  chunks : List α
  ending : Ending
  deriving DecidableEq, Repr

namespace Output

/-- The generator that yields nothing and fails. -/
def failed : Output α := ⟨[], .fails⟩

/-- The same run with its chunks rewritten. -/
def map (change : α → β) (output : Output α) : Output β :=
  ⟨output.chunks.map change, output.ending⟩

/-- Runs `second` behind `first` when that one fails; its chunks stay yielded. -/
def orElse (first second : Output α) : Output α :=
  match first.ending with
  | .fails => ⟨first.chunks ++ second.chunks, second.ending⟩
  | .completes | .aborts => first

/-- Runs one after the other until one does not fail. -/
def firstOf (runs : List (Output α)) : Output α :=
  runs.foldr orElse failed

@[simp]
theorem failed_chunks : (failed : Output α).chunks = [] := rfl

@[simp]
theorem failed_ending : (failed : Output α).ending = .fails := rfl

@[simp]
theorem map_chunks (change : α → β) (output : Output α) :
    (output.map change).chunks = output.chunks.map change := rfl

@[simp]
theorem map_ending (change : α → β) (output : Output α) :
    (output.map change).ending = output.ending := rfl

theorem orElse_of_fails {first : Output α} (second : Output α) (fails : first.ending = .fails) :
    first.orElse second = ⟨first.chunks ++ second.chunks, second.ending⟩ := by
  rw [orElse, fails]

theorem orElse_of_settled {first : Output α} (second : Output α) (settled : first.ending ≠ .fails) :
    first.orElse second = first := by
  unfold orElse
  split
  · exact absurd ‹_› settled
  all_goals rfl

@[simp]
theorem failed_orElse (output : Output α) : failed.orElse output = output := rfl

@[simp]
theorem orElse_failed (output : Output α) : output.orElse failed = output := by
  obtain ⟨chunks, ending⟩ := output
  cases ending <;> simp [orElse]

theorem orElse_assoc (first second third : Output α) :
    (first.orElse second).orElse third = first.orElse (second.orElse third) := by
  by_cases fails : first.ending = .fails
  · by_cases fails' : second.ending = .fails
    · simp [orElse, fails, fails']
    · rw [orElse_of_settled third fails', orElse_of_fails second fails, orElse_of_settled]
      exact fails'
  · rw [orElse_of_settled second fails, orElse_of_settled third fails, orElse_of_settled _ fails]

@[simp]
theorem firstOf_nil : firstOf ([] : List (Output α)) = failed := rfl

@[simp]
theorem firstOf_cons (run : Output α) (runs : List (Output α)) :
    firstOf (run :: runs) = run.orElse (firstOf runs) := rfl

theorem firstOf_append (runs rest : List (Output α)) :
    firstOf (runs ++ rest) = (firstOf runs).orElse (firstOf rest) := by
  induction runs with
  | nil => rfl
  | cons run runs ih => rw [List.cons_append, firstOf_cons, firstOf_cons, ih, orElse_assoc]

theorem eq_failed_of_orElse_eq_failed {first second : Output α}
    (fails : first.orElse second = failed) : first = failed ∧ second = failed := by
  by_cases ends : first.ending = .fails
  · obtain ⟨chunks, ending⟩ := first
    obtain ⟨chunks', ending'⟩ := second
    cases ends
    obtain ⟨empty, rfl⟩ := Output.mk.inj ((orElse_of_fails _ rfl).symm.trans fails)
    obtain ⟨rfl, rfl⟩ := List.append_eq_nil_iff.mp empty
    exact ⟨rfl, rfl⟩
  · rw [orElse_of_settled _ ends] at fails
    exact absurd (fails ▸ failed_ending) ends

/-- Where nothing was yielded and the last run failed, every run was silent. -/
theorem eq_failed_of_firstOf_eq_failed {runs : List (Output α)} (fails : firstOf runs = failed) :
    ∀ run ∈ runs, run = failed := by
  induction runs with
  | nil =>
    intro run member
    cases member
  | cons run runs ih =>
    obtain ⟨here, below⟩ := eq_failed_of_orElse_eq_failed (firstOf_cons run runs ▸ fails)
    intro other member
    rcases List.mem_cons.mp member with rfl | member
    · exact here
    · exact ih below other member

theorem firstOf_silent {runs : List (Output α)} (silent : ∀ run ∈ runs, run.chunks = []) :
    (firstOf runs).chunks = [] := by
  induction runs with
  | nil => rfl
  | cons run runs ih =>
    have here := silent run (List.mem_cons_self ..)
    have below := ih fun other member => silent other (List.mem_cons_of_mem _ member)
    rw [firstOf_cons]
    unfold orElse
    split
    · rw [here, below]
      rfl
    all_goals exact here

/-- A run that completes has a chunk, if each of the runs has one when it completes. -/
theorem firstOf_completes {runs : List (Output α)}
    (yields : ∀ run ∈ runs, run.ending = .completes → run.chunks ≠ [])
    (completes : (firstOf runs).ending = .completes) : (firstOf runs).chunks ≠ [] := by
  induction runs with
  | nil => cases completes
  | cons run runs ih =>
    have below := ih fun other member => yields other (List.mem_cons_of_mem _ member)
    rw [firstOf_cons] at completes ⊢
    by_cases fails : run.ending = .fails
    · rw [orElse_of_fails _ fails] at completes ⊢
      exact List.append_ne_nil_of_right_ne_nil _ (below completes)
    · rw [orElse_of_settled _ fails] at completes ⊢
      exact yields run (List.mem_cons_self ..) completes

/-- **The run that answers**: if not every run fails, there is a first one that does not, and
`firstOf` ends as it does, with the chunks of the runs before it in front of its own. -/
theorem exists_answer {runs : List (Output α)} (settles : (firstOf runs).ending ≠ .fails) :
    ∃ earlier answer later, runs = earlier ++ answer :: later ∧
      (∀ run ∈ earlier, run.ending = .fails) ∧ answer.ending ≠ .fails := by
  induction runs with
  | nil => exact absurd rfl settles
  | cons run runs ih =>
    by_cases fails : run.ending = .fails
    · rw [firstOf_cons, orElse_of_fails _ fails] at settles
      obtain ⟨earlier, answer, later, rfl, before, ends⟩ := ih settles
      refine ⟨run :: earlier, answer, later, rfl, ?_, ends⟩
      rw [List.forall_mem_cons]
      exact ⟨fails, before⟩
    · exact ⟨[], run, runs, rfl, nofun, fails⟩

theorem firstOf_of_answer {earlier later : List (Output α)} {answer : Output α}
    (fails : ∀ run ∈ earlier, run.ending = .fails) (settles : answer.ending ≠ .fails) :
    firstOf (earlier ++ answer :: later) =
      ⟨earlier.flatMap Output.chunks ++ answer.chunks, answer.ending⟩ := by
  induction earlier with
  | nil =>
    rw [List.nil_append, firstOf_cons, orElse_of_settled _ settles]
    rfl
  | cons run earlier ih =>
    rw [List.forall_mem_cons] at fails
    rw [List.cons_append, firstOf_cons, orElse_of_fails _ fails.1, ih fails.2, List.flatMap_cons,
      List.append_assoc]

/-! ### Chunks of one run -/

/-- Every chunk a run yields comes behind a run that does not fail: `firstOf` never gets to it. -/
def Unreached (runs : List (Output α)) : Prop :=
  ∀ earlier run later, runs = earlier ++ run :: later → run.chunks ≠ [] →
    ∃ settled ∈ earlier, settled.ending ≠ .fails

/-- Of any two runs that yield a chunk, the later one comes behind a run that does not fail. -/
def Isolated (runs : List (Output α)) : Prop :=
  ∀ earlier first between second later, runs = earlier ++ first :: between ++ second :: later →
    first.chunks ≠ [] → second.chunks ≠ [] →
    ∃ settled ∈ earlier ++ first :: between, settled.ending ≠ .fails

/-- A run that fails settles nothing. -/
theorem settled_cons_iff {run : Output α} (fails : run.ending = .fails) (runs : List (Output α)) :
    (∃ settled ∈ run :: runs, settled.ending ≠ .fails) ↔ ∃ settled ∈ runs, settled.ending ≠ .fails := by
  simp [fails]

theorem unreached_cons_of_fails {run : Output α} {runs : List (Output α)}
    (fails : run.ending = .fails) (silent : run.chunks = []) :
    Unreached (run :: runs) ↔ Unreached runs := by
  constructor
  · intro unreached earlier other later split yields
    exact (settled_cons_iff fails _).mp
      (unreached (run :: earlier) other later (by rw [split]; rfl) yields)
  · intro unreached earlier other later split yields
    cases earlier with
    | nil =>
      obtain ⟨rfl, -⟩ := List.cons_eq_cons.mp split
      exact absurd silent yields
    | cons head earlier =>
      obtain ⟨rfl, rest⟩ := List.cons_eq_cons.mp split
      exact (settled_cons_iff fails _).mpr (unreached earlier other later rest yields)

theorem firstOf_eq_nil_iff (runs : List (Output α)) :
    (firstOf runs).chunks = [] ↔ Unreached runs := by
  induction runs with
  | nil =>
    refine ⟨fun _ earlier run later split => ?_, fun _ => rfl⟩
    simp at split
  | cons run runs ih =>
    by_cases silent : run.chunks = []
    · by_cases fails : run.ending = .fails
      · rw [firstOf_cons, orElse_of_fails _ fails, unreached_cons_of_fails fails silent, ← ih, silent,
          List.nil_append]
      · rw [firstOf_cons, orElse_of_settled _ fails]
        refine iff_of_true silent fun earlier other later split yields => ?_
        cases earlier with
        | nil =>
          obtain ⟨rfl, -⟩ := List.cons_eq_cons.mp split
          exact absurd silent yields
        | cons head earlier =>
          obtain ⟨rfl, -⟩ := List.cons_eq_cons.mp split
          exact ⟨run, List.mem_cons_self .., fails⟩
    · refine iff_of_false (fun empty => silent ?_) fun unreached => ?_
      · rw [firstOf_cons] at empty
        unfold orElse at empty
        split at empty
        · exact (List.append_eq_nil_iff.mp empty).1
        all_goals exact empty
      · obtain ⟨settled, member, -⟩ := unreached [] run runs rfl silent
        cases member

theorem isolated_nil : Isolated ([] : List (Output α)) := by
  intro earlier first between second later split
  simp at split

/-- A run that does not fail is the last one made. -/
theorem isolated_of_settled {run : Output α} (runs : List (Output α))
    (settled : run.ending ≠ .fails) : Isolated (run :: runs) := by
  intro earlier first between second later split _ _
  refine ⟨run, ?_, settled⟩
  cases earlier with
  | nil =>
    obtain ⟨rfl, -⟩ := List.cons_eq_cons.mp split
    exact List.mem_cons_self ..
  | cons head earlier =>
    obtain ⟨rfl, -⟩ := List.cons_eq_cons.mp split
    exact List.mem_cons_self ..

/-- Behind a run that fails silently nothing changes. -/
theorem isolated_cons_of_silent {run : Output α} {runs : List (Output α)}
    (fails : run.ending = .fails) (silent : run.chunks = []) :
    Isolated (run :: runs) ↔ Isolated runs := by
  constructor
  · intro isolated earlier first between second later split yields yields'
    exact (settled_cons_iff fails _).mp
      (isolated (run :: earlier) first between second later (by rw [split]; rfl) yields yields')
  · intro isolated earlier first between second later split yields yields'
    cases earlier with
    | nil =>
      obtain ⟨rfl, -⟩ := List.cons_eq_cons.mp split
      exact absurd silent yields
    | cons head earlier =>
      obtain ⟨rfl, rest⟩ := List.cons_eq_cons.mp split
      exact (settled_cons_iff fails _).mpr
        (isolated earlier first between second later rest yields yields')

/-- Behind a run that yields and fails, no chunk may be reached. -/
theorem isolated_cons_of_yields {run : Output α} {runs : List (Output α)}
    (fails : run.ending = .fails) (yields : run.chunks ≠ []) :
    Isolated (run :: runs) ↔ Unreached runs := by
  constructor
  · intro isolated between second later split yields'
    exact (settled_cons_iff fails _).mp
      (isolated [] run between second later (by rw [split]; rfl) yields yields')
  · intro unreached earlier first between second later split _ yields'
    cases earlier with
    | nil =>
      obtain ⟨rfl, rest⟩ := List.cons_eq_cons.mp split
      exact (settled_cons_iff fails _).mpr (unreached between second later rest yields')
    | cons head earlier =>
      obtain ⟨rfl, rest⟩ := List.cons_eq_cons.mp split
      exact (settled_cons_iff fails _).mpr
        (unreached (earlier ++ first :: between) second later rest yields')

/-- A run whose chunks carry its name. -/
def label (run : ι × Output α) : Output (ι × α) :=
  run.2.map (run.1, ·)

/-- The chunks are a prefix of what one source yields (or there are none). -/
def IsOneRun (source : ι → List α) (chunks : List (ι × α)) : Prop :=
  chunks = [] ∨ ∃ name, chunks <+: (source name).map (name, ·)

theorem label_chunks_eq_nil {run : ι × Output α} :
    (label run).chunks = [] ↔ run.2.chunks = [] :=
  List.map_eq_nil_iff

/-- A chunk of `firstOf` carries the name of one of the runs. -/
theorem name_of_mem_firstOf {runs : List (ι × Output α)} {chunk : ι × α}
    (member : chunk ∈ (firstOf (runs.map label)).chunks) : chunk.1 ∈ runs.map Prod.fst := by
  induction runs with
  | nil => cases member
  | cons run runs ih =>
    rw [List.map_cons, firstOf_cons] at member
    rw [List.map_cons, List.mem_cons]
    have named : chunk ∈ (label run).chunks → chunk.1 = run.1 := by
      intro member
      obtain ⟨text, -, rfl⟩ := List.mem_map.mp member
      rfl
    unfold orElse at member
    split at member
    · rcases List.mem_append.mp member with member | member
      · exact Or.inl (named member)
      · exact Or.inr (ih member)
    all_goals exact Or.inl (named member)

/-- Chunks of a run, and behind them one of another name, are not chunks of one source. -/
theorem not_isOneRun_append {source : ι → List α} {run : ι × Output α} {chunks : List (ι × α)}
    (yields : run.2.chunks ≠ []) (more : chunks ≠ [])
    (apart : ∀ chunk ∈ chunks, chunk.1 ≠ run.1) :
    ¬IsOneRun source ((label run).chunks ++ chunks) := by
  rintro (empty | ⟨name, isPrefix⟩)
  · exact yields (label_chunks_eq_nil.mp (List.append_eq_nil_iff.mp empty).1)
  · obtain ⟨mine, memberMine⟩ := List.exists_mem_of_ne_nil _ yields
    obtain ⟨theirs, memberTheirs⟩ := List.exists_mem_of_ne_nil _ more
    have memberMine : (run.1, mine) ∈ (label run).chunks := List.mem_map_of_mem memberMine
    obtain ⟨_, -, same⟩ := List.mem_map.mp (isPrefix.subset (List.mem_append_left _ memberMine))
    obtain ⟨_, -, same'⟩ := List.mem_map.mp (isPrefix.subset (List.mem_append_right _ memberTheirs))
    apply apart theirs memberTheirs
    rw [← same', ← (Prod.mk.inj same).1]

/-- Names do not change what is delivered. -/
theorem firstOf_map_label_eq_nil {runs : List (ι × Output α)} :
    (firstOf (runs.map Prod.snd)).chunks = [] ↔ (firstOf (runs.map label)).chunks = [] := by
  induction runs with
  | nil => exact iff_of_true rfl rfl
  | cons run runs ih =>
    rw [List.map_cons, List.map_cons, firstOf_cons, firstOf_cons]
    by_cases fails : run.2.ending = .fails
    · rw [orElse_of_fails _ fails, orElse_of_fails _ (show (label run).ending = .fails from fails),
        List.append_eq_nil_iff, List.append_eq_nil_iff, ih, label_chunks_eq_nil]
    · rw [orElse_of_settled _ fails,
        orElse_of_settled _ (show (label run).ending ≠ .fails from fails), label_chunks_eq_nil]

/-- What a run yields is one source's. -/
theorem isOneRun_label {source : ι → List α} {run : ι × Output α}
    (sourced : run.2.chunks <+: source run.1) : IsOneRun source (label run).chunks :=
  Or.inr ⟨run.1, sourced.map _⟩

/-- **The chunks delivered come from one single run exactly when the runs are isolated.** -/
theorem firstOf_isOneRun_iff {source : ι → List α} {runs : List (ι × Output α)}
    (distinct : (runs.map Prod.fst).Nodup)
    (sourced : ∀ run ∈ runs, run.2.chunks <+: source run.1) :
    IsOneRun source (firstOf (runs.map label)).chunks ↔ Isolated (runs.map Prod.snd) := by
  induction runs with
  | nil => exact iff_of_true (Or.inl rfl) isolated_nil
  | cons run runs ih =>
    rw [List.map_cons, List.nodup_cons] at distinct
    have here := isOneRun_label (sourced run (List.mem_cons_self ..))
    have ih := ih distinct.2 fun other member => sourced other (List.mem_cons_of_mem _ member)
    rw [List.map_cons, List.map_cons, firstOf_cons]
    by_cases fails : run.2.ending = .fails
    · rw [orElse_of_fails _ (show (label run).ending = .fails from fails)]
      by_cases silent : run.2.chunks = []
      · rw [label_chunks_eq_nil.mpr silent, List.nil_append, isolated_cons_of_silent fails silent]
        exact ih
      · rw [isolated_cons_of_yields fails silent, ← firstOf_eq_nil_iff, firstOf_map_label_eq_nil]
        by_cases more : (firstOf (runs.map label)).chunks = []
        · refine iff_of_true ?_ more
          rw [more, List.append_nil]
          exact here
        · refine iff_of_false (not_isOneRun_append silent more fun chunk member same => ?_) more
          exact distinct.1 (same ▸ name_of_mem_firstOf member)
    · rw [orElse_of_settled _ (show (label run).ending ≠ .fails from fails)]
      exact iff_of_true here (isolated_of_settled _ fails)

end Output

end ClaudeProxy
