/-
**Runs of a state machine under a guard.**

* `Machine` — initial states and a partial step; `Machine.Reachable guard` — the states of the runs
  whose every step meets the guard.
* `Reachable.invariant` — the invariant rule.
* `Machine.run` — a list of actions; `reachable_of_run`; `history` — the invariant rule with the past.
* `Throughout`, `Obeys` — every state, every step of a run; **`throughout_iff_obeys`** — the rule of
  exactness, `throughout_iff_obeys_of` — the rule for runs whose steps keep a promise, and
  `throughout_iff_obeys_while` — the rule up to the first fault.
* `Machine.Steps` — guarded steps from any state; `reachable_parts` — the rule of composition: if
  every step of a composite machine moves each of its parts by guarded steps of the part's machine,
  the parts of its reachable states are reachable.
-/

import Mathlib.Data.List.Induction
import Mathlib.Logic.Basic

namespace ClaudeProxy

/-- A machine with states `σ` and actions `ι`; an action that cannot be taken has no step. -/
structure Machine (σ ι : Type) where
  init : σ → Prop
  step : σ → ι → Option σ

namespace Machine

variable {σ ι : Type} (machine : Machine σ ι)

/-- The states reached by runs whose every step meets the guard. -/
inductive Reachable (guard : σ → ι → Prop) : σ → Prop
  | init {state : σ} : machine.init state → Reachable guard state
  | step {state next : σ} {action : ι} : Reachable guard state → guard state action →
      machine.step state action = some next → Reachable guard next

/-- Every action is allowed. -/
def unguarded : σ → ι → Prop := fun _ _ => True

variable {machine}

namespace Reachable

variable {guard : σ → ι → Prop}

/-- **The invariant rule.** -/
theorem invariant {holds : σ → Prop} (starts : ∀ state, machine.init state → holds state)
    (preserved : ∀ state action next, holds state → guard state action →
      machine.step state action = some next → holds next)
    {state : σ} (reached : machine.Reachable guard state) : holds state := by
  induction reached with
  | init start => exact starts _ start
  | step _ allowed stepped ih => exact preserved _ _ _ ih allowed stepped

end Reachable

/-- The state after a list of actions. -/
def run (machine : Machine σ ι) (state : σ) (actions : List ι) : Option σ :=
  actions.foldlM machine.step state

/-- **The end of a run whose steps all meet the guard is reachable.** -/
theorem reachable_of_run {guard : σ → ι → Prop} (actions : List ι) {state last : σ}
    (reached : machine.Reachable guard state)
    (allowed : ∀ before action after middle, actions = before ++ action :: after →
      machine.run state before = some middle → guard middle action)
    (ran : machine.run state actions = some last) : machine.Reachable guard last := by
  induction actions generalizing state with
  | nil =>
    obtain rfl := Option.some.inj ran
    exact reached
  | cons action rest ih =>
    rw [run, List.foldlM_cons] at ran
    cases stepped : machine.step state action with
    | none =>
      rw [stepped] at ran
      exact nomatch ran
    | some next =>
      rw [stepped] at ran
      refine ih (.step reached (allowed [] action rest state rfl rfl) stepped) ?_ ran
      intro before other after middle split ranBefore
      refine allowed (action :: before) other after middle (by rw [split]; rfl) ?_
      rw [run, List.foldlM_cons, stepped]
      exact ranBefore

/-- Without a guard, the end of every run is reachable. -/
theorem reachable_of_run_unguarded (actions : List ι) {state last : σ}
    (start : machine.init state) (ran : machine.run state actions = some last) :
    machine.Reachable unguarded last :=
  reachable_of_run actions (.init start) (fun _ _ _ _ _ _ => trivial) ran

/-- A run and one more action. -/
theorem run_concat (actions : List ι) (action : ι) (state : σ) :
    machine.run state (actions ++ [action]) =
      (machine.run state actions).bind (machine.step · action) := by
  unfold run
  rw [List.foldlM_append]
  cases List.foldlM machine.step state actions with
  | none => rfl
  | some middle =>
    show (List.foldlM machine.step middle [action] : Option σ) = machine.step middle action
    rw [List.foldlM_cons]
    cases machine.step middle action <;> rfl

/-- **The invariant rule with the past.** What is said of a state may speak of the actions so far. -/
theorem history {holds : List ι → σ → Prop} {first : σ} (starts : holds [] first)
    (preserved : ∀ past state action next, machine.run first past = some state → holds past state →
      machine.step state action = some next → holds (past ++ [action]) next)
    (actions : List ι) : ∀ {last : σ}, machine.run first actions = some last → holds actions last := by
  induction actions using List.reverseRecOn with
  | nil =>
    intro last ran
    obtain rfl := Option.some.inj ran
    exact starts
  | append_singleton past action ih =>
    intro last ran
    rw [run_concat, Option.bind_eq_some_iff] at ran
    obtain ⟨state, before, stepped⟩ := ran
    exact preserved past state action last before (ih before) stepped

/-- The property holds in every state that the run passes through. -/
def Throughout (machine : Machine σ ι) (first : σ) (actions : List ι) (holds : σ → Prop) : Prop :=
  ∀ before, before <+: actions → ∀ state, machine.run first before = some state → holds state

/-- Every step of the run meets the guard. -/
def Obeys (machine : Machine σ ι) (first : σ) (actions : List ι) (guard : σ → ι → Prop) : Prop :=
  ∀ before action, before ++ [action] <+: actions →
    ∀ state, machine.run first before = some state → guard state action

theorem throughout_nil {first : σ} {holds : σ → Prop} :
    machine.Throughout first [] holds ↔ holds first := by
  constructor
  · intro all
    exact all [] List.prefix_rfl first rfl
  · intro here before inside state ran
    obtain rfl := List.prefix_nil.mp inside
    obtain rfl := Option.some.inj ran
    exact here

theorem obeys_nil {first : σ} {guard : σ → ι → Prop} : machine.Obeys first [] guard := by
  intro before action inside
  have nothing := List.prefix_nil.mp inside
  exact absurd nothing (List.append_ne_nil_of_right_ne_nil _ (List.cons_ne_nil _ _))

/-- A run meets the guard step by step. -/
theorem obeys_cons {first next : σ} {action : ι} {rest : List ι} {guard : σ → ι → Prop}
    (stepped : machine.step first action = some next) (here : guard first action)
    (later : machine.Obeys next rest guard) : machine.Obeys first (action :: rest) guard := by
  intro before other inside state ran
  cases before with
  | nil =>
    obtain rfl := Option.some.inj ran
    obtain ⟨rfl, -⟩ := List.cons_prefix_cons.mp inside
    exact here
  | cons head more =>
    obtain ⟨rfl, within⟩ := List.cons_prefix_cons.mp inside
    apply later more other within state
    rw [run, List.foldlM_cons, stepped] at ran
    exact ran

theorem throughout_concat {first last : σ} {past : List ι} {action : ι} {holds : σ → Prop}
    (ran : machine.run first (past ++ [action]) = some last) :
    machine.Throughout first (past ++ [action]) holds ↔
      machine.Throughout first past holds ∧ holds last := by
  constructor
  · intro all
    refine ⟨fun before inside => all before (inside.trans (List.prefix_append _ _)), ?_⟩
    exact all _ List.prefix_rfl last ran
  · rintro ⟨earlier, here⟩ before inside state middle
    rcases List.prefix_concat_iff.mp inside with rfl | inside
    · rw [ran] at middle
      obtain rfl := Option.some.inj middle
      exact here
    · exact earlier before inside state middle

theorem obeys_concat {first state : σ} {past : List ι} {action : ι} {guard : σ → ι → Prop}
    (ran : machine.run first past = some state) :
    machine.Obeys first (past ++ [action]) guard ↔
      machine.Obeys first past guard ∧ guard state action := by
  constructor
  · intro all
    refine ⟨fun before other inside => all before other (inside.trans (List.prefix_append _ _)), ?_⟩
    exact all past action List.prefix_rfl state ran
  · rintro ⟨earlier, here⟩ before other inside middle ranBefore
    rcases List.prefix_concat_iff.mp inside with same | inside
    · obtain ⟨rfl, single⟩ := List.append_inj' same rfl
      obtain rfl := List.singleton_inj.mp single
      rw [ran] at ranBefore
      obtain rfl := Option.some.inj ranBefore
      exact here
    · exact earlier before other inside middle ranBefore

/-- Two runs in a row. -/
theorem run_append (before after : List ι) (first : σ) :
    machine.run first (before ++ after) =
      (machine.run first before).bind (machine.run · after) := by
  unfold run
  exact List.foldlM_append

/-- The beginning of a run meets the guard if the run does. -/
theorem Obeys.initial {guard : σ → ι → Prop} {first : σ} {before actions : List ι}
    (all : machine.Obeys first actions guard) (inside : before <+: actions) :
    machine.Obeys first before guard :=
  fun earlier action within => all earlier action (within.trans inside)

/-- So does its end. -/
theorem Obeys.later {guard : σ → ι → Prop} {first state : σ} {before after : List ι}
    (all : machine.Obeys first (before ++ after) guard)
    (ran : machine.run first before = some state) : machine.Obeys state after guard := by
  intro middle action inside here arrived
  apply all (before ++ middle) action
  · rw [List.append_assoc]
    exact List.prefix_append_right_inj before |>.mpr inside
  · rw [run_append, ran]
    exact arrived

/-- **The rule of exactness, under a promise.** If every promised step keeps the property exactly when
it meets the guard, a run of promised steps has the property throughout exactly when all its steps
meet the guard. -/
theorem throughout_iff_obeys_of {known holds : σ → Prop} {promise guard : σ → ι → Prop} {first : σ}
    (starts : known first ∧ holds first)
    (kept : ∀ state action next, known state → promise state action →
      machine.step state action = some next → known next)
    (exact_ : ∀ state action next, known state → holds state → promise state action →
      machine.step state action = some next → (holds next ↔ guard state action))
    (actions : List ι) : ∀ {last : σ}, machine.run first actions = some last →
      machine.Obeys first actions promise →
      known last ∧ (machine.Throughout first actions holds ↔ machine.Obeys first actions guard) := by
  induction actions using List.reverseRecOn with
  | nil =>
    intro last ran _
    obtain rfl := Option.some.inj ran
    exact ⟨starts.1, iff_of_true (throughout_nil.mpr starts.2) obeys_nil⟩
  | append_singleton past action ih =>
    intro last ran promised
    have split := ran
    rw [run_concat, Option.bind_eq_some_iff] at split
    obtain ⟨state, before, stepped⟩ := split
    obtain ⟨earlier, now⟩ := (obeys_concat before).mp promised
    obtain ⟨here, same⟩ := ih before earlier
    refine ⟨kept state action last here now stepped, ?_⟩
    rw [throughout_concat ran, obeys_concat before, ← same]
    apply and_congr_right
    intro all
    exact exact_ state action last here (all past List.prefix_rfl state before) now stepped

/-- **The rule of exactness.** If a step keeps the property exactly when it meets the guard, a run has
the property throughout exactly when all its steps meet the guard. -/
theorem throughout_iff_obeys {known holds : σ → Prop} {guard : σ → ι → Prop} {first : σ}
    (starts : known first ∧ holds first)
    (kept : ∀ state action next, known state → machine.step state action = some next → known next)
    (exact_ : ∀ state action next, known state → holds state →
      machine.step state action = some next → (holds next ↔ guard state action))
    (actions : List ι) {last : σ} (ran : machine.run first actions = some last) :
    known last ∧ (machine.Throughout first actions holds ↔ machine.Obeys first actions guard) :=
  throughout_iff_obeys_of starts (fun state action next here _ => kept state action next here)
    (fun state action next here good _ => exact_ state action next here good) actions ran
    (fun _ _ _ _ _ => trivial : machine.Obeys first actions unguarded)

/-- **The rule of exactness, up to the first fault.** If a step from a known state leads to a known
state with the property when it meets the guard, and only then to the property, a run has the property
throughout exactly when all its steps meet the guard. -/
theorem throughout_iff_obeys_while {known holds : σ → Prop} {guard : σ → ι → Prop} {first : σ}
    (starts : known first ∧ holds first)
    (meets : ∀ state action next, known state → machine.step state action = some next →
      guard state action → known next ∧ holds next)
    (needs : ∀ state action next, known state → machine.step state action = some next →
      holds next → guard state action)
    (actions : List ι) : ∀ {last : σ}, machine.run first actions = some last →
      (machine.Obeys first actions guard → known last) ∧
        (machine.Throughout first actions holds ↔ machine.Obeys first actions guard) := by
  induction actions using List.reverseRecOn with
  | nil =>
    intro last ran
    obtain rfl := Option.some.inj ran
    exact ⟨fun _ => starts.1, iff_of_true (throughout_nil.mpr starts.2) obeys_nil⟩
  | append_singleton past action ih =>
    intro last ran
    have split := ran
    rw [run_concat, Option.bind_eq_some_iff] at split
    obtain ⟨state, before, stepped⟩ := split
    obtain ⟨here, same⟩ := ih before
    rw [throughout_concat ran, obeys_concat before]
    constructor
    · rintro ⟨earlier, now⟩
      exact (meets state action last (here earlier) stepped now).1
    · rw [← same]
      apply and_congr_right
      intro all
      have reached := here (same.mp all)
      exact ⟨needs state action last reached stepped,
        fun now => (meets state action last reached stepped now).2⟩

/-! ### Composition -/

/-- Guarded steps from one state to another. -/
inductive Steps (machine : Machine σ ι) (guard : σ → ι → Prop) (start : σ) : σ → Prop
  | refl : Steps machine guard start start
  | tail {state next : σ} {action : ι} : Steps machine guard start state → guard state action →
      machine.step state action = some next → Steps machine guard start next

theorem Steps.single {guard : σ → ι → Prop} {state next : σ} {action : ι}
    (allowed : guard state action) (stepped : machine.step state action = some next) :
    machine.Steps guard state next :=
  .tail .refl allowed stepped

/-- One more step, by that action. -/
theorem Steps.by_ {guard : σ → ι → Prop} {start state next : σ} (steps : machine.Steps guard start state)
    (action : ι) (allowed : guard state action) (stepped : machine.step state action = some next) :
    machine.Steps guard start next :=
  .tail steps allowed stepped

/-- A preserved property holds along guarded steps. -/
theorem Steps.preserves {guard : σ → ι → Prop} {holds : σ → Prop}
    (preserved : ∀ state action next, holds state → guard state action →
      machine.step state action = some next → holds next)
    {start last : σ} (steps : machine.Steps guard start last) (here : holds start) : holds last := by
  induction steps with
  | refl => exact here
  | tail _ allowed stepped ih => exact preserved _ _ _ ih allowed stepped

theorem Reachable.steps {guard : σ → ι → Prop} {state last : σ}
    (reached : machine.Reachable guard state) (steps : machine.Steps guard state last) :
    machine.Reachable guard last :=
  steps.preserves (fun _ _ _ => .step) reached

theorem Steps.trans {guard : σ → ι → Prop} {first second third : σ}
    (one : machine.Steps guard first second) (two : machine.Steps guard second third) :
    machine.Steps guard first third :=
  two.preserves (fun _ _ _ => .tail) one

/-- A run that meets the guard takes guarded steps. -/
theorem steps_of_obeys {guard : σ → ι → Prop} {first : σ} (actions : List ι) :
    ∀ {last : σ}, machine.Obeys first actions guard → machine.run first actions = some last →
      machine.Steps guard first last := by
  induction actions using List.reverseRecOn with
  | nil =>
    intro last _ ran
    obtain rfl := Option.some.inj ran
    exact .refl
  | append_singleton past action ih =>
    intro last all ran
    rw [run_concat, Option.bind_eq_some_iff] at ran
    obtain ⟨state, before, stepped⟩ := ran
    obtain ⟨earlier, here⟩ := (obeys_concat before).mp all
    exact .tail (ih earlier before) here stepped

/-- It ends in a reachable state. -/
theorem reachable_of_obeys {guard : σ → ι → Prop} {first last : σ} (start : machine.init first)
    (actions : List ι) (all : machine.Obeys first actions guard)
    (ran : machine.run first actions = some last) : machine.Reachable guard last :=
  (Reachable.init start).steps (steps_of_obeys actions all ran)

/-- **The rule of composition.** A part of the composite state was moved there by guarded steps, from
an earlier part or from an initial state. -/
theorem reachable_parts {τ κ : Type} {composite : Machine τ κ} {compositeGuard : τ → κ → Prop}
    {guard : σ → ι → Prop} (parts : τ → List σ)
    (starts : ∀ state, composite.init state → ∀ part ∈ parts state, machine.init part)
    (moves : ∀ state action next, compositeGuard state action →
      composite.step state action = some next → ∀ part ∈ parts next,
        ∃ earlier, (machine.init earlier ∨ earlier ∈ parts state) ∧
          machine.Steps guard earlier part)
    {state : τ} (reached : composite.Reachable compositeGuard state) :
    ∀ part ∈ parts state, machine.Reachable guard part := by
  refine @Reachable.invariant _ _ composite compositeGuard
    (fun state => ∀ part ∈ parts state, machine.Reachable guard part) ?_ ?_ state reached
  · intro state start part member
    exact .init (starts state start part member)
  · intro state action next ih allowed stepped part member
    obtain ⟨earlier, fresh | old, steps⟩ := moves state action next allowed stepped part member
    · exact (Reachable.init fresh).steps steps
    · exact (ih earlier old).steps steps

end Machine

end ClaudeProxy
