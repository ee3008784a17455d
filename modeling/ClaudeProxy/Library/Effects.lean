/-
**Programs that raise.**

An `EStateM` program changes a state and may raise; the state it had reached then stays, which is how
an object looks after one of its methods raised.

* `Ensures before program after raised` — from a state with `before`, the program returns in `after`
  or raises in `raised`.
* `Keeps` — a property that the program keeps, whether it returns or raises; closed under sequencing,
  branching and loops.
* `Returns` — a property that it keeps, and it does not raise.
* `bind_eq_ok`, `get_bind_eq_ok`, `set_bind_eq_ok` — what a program that returned has run through.
-/

import Mathlib.Logic.Basic

namespace ClaudeProxy

variable {ε σ α β : Type}

/-- From a state with `before`, the program returns in `after` or raises in `raised`. -/
def Ensures (before : σ → Prop) (program : EStateM ε σ α) (after : α → σ → Prop)
    (raised : ε → σ → Prop) : Prop :=
  ∀ state, before state →
    match program state with
    | .ok value next => after value next
    | .error error next => raised error next

/-- The program keeps the property, whether it returns or raises. -/
def Keeps (holds : σ → Prop) (program : EStateM ε σ α) : Prop :=
  Ensures holds program (fun _ => holds) (fun _ => holds)

/-- The program keeps the property, and does not raise. -/
def Returns (holds : σ → Prop) (program : EStateM ε σ α) : Prop :=
  Ensures holds program (fun _ => holds) (fun _ _ => False)

namespace Ensures

variable {before : σ → Prop} {program : EStateM ε σ α} {after : α → σ → Prop}
  {raised : ε → σ → Prop}

theorem of_ok (ensured : Ensures before program after raised) {state next : σ} {value : α}
    (here : before state) (ran : program state = .ok value next) : after value next := by
  have known := ensured state here
  rw [ran] at known
  exact known

theorem of_error (ensured : Ensures before program after raised) {state next : σ} {error : ε}
    (here : before state) (ran : program state = .error error next) : raised error next := by
  have known := ensured state here
  rw [ran] at known
  exact known

theorem weaken {after' : α → σ → Prop} {raised' : ε → σ → Prop}
    (ensured : Ensures before program after raised)
    (returns : ∀ value state, after value state → after' value state)
    (raises : ∀ error state, raised error state → raised' error state) :
    Ensures before program after' raised' := by
  intro state here
  have known := ensured state here
  cases ran : program state with
  | ok value next =>
    rw [ran] at known
    exact returns value next known
  | error error next =>
    rw [ran] at known
    exact raises error next known

theorem pure {value : α} (here : ∀ state, before state → after value state) :
    Ensures before (Pure.pure value : EStateM ε σ α) after raised :=
  here

theorem throw {error : ε} (here : ∀ state, before state → raised error state) :
    Ensures before (MonadExcept.throw error : EStateM ε σ α) after raised :=
  here

theorem modify {change : σ → σ} {after : Unit → σ → Prop}
    (here : ∀ state, before state → after () (change state)) :
    Ensures before (modify change : EStateM ε σ Unit) after raised :=
  here

/-- **Sequencing.** -/
theorem bind {next : α → EStateM ε σ β} {last : β → σ → Prop}
    (first : Ensures before program after raised)
    (second : ∀ value, Ensures (after value) (next value) last raised) :
    Ensures before (program >>= next) last raised := by
  intro state here
  have known := first state here
  show match EStateM.bind program next state with
    | .ok value next => last value next
    | .error error next => raised error next
  unfold EStateM.bind
  cases ran : program state with
  | ok value middle =>
    rw [ran] at known
    exact second value middle known
  | error error middle =>
    rw [ran] at known
    exact known

/-- Reading the state. -/
theorem get {next : σ → EStateM ε σ β} {last : β → σ → Prop}
    (here : ∀ state, before state → Ensures (fun now => now = state) (next state) last raised) :
    Ensures before (MonadState.get >>= next) last raised :=
  fun state known => here state known state rfl

/-- Writing it. -/
theorem set {new : σ} {rest : EStateM ε σ β} {last : β → σ → Prop}
    (here : Ensures (fun now => now = new) rest last raised) :
    Ensures before (MonadStateOf.set new >>= fun _ => rest) last raised :=
  fun _ _ => here new rfl

/-- Branching. -/
theorem ite {condition : Prop} [Decidable condition] {other : EStateM ε σ α}
    (yes : Ensures before program after raised) (no : Ensures before other after raised) :
    Ensures before (if condition then program else other) after raised := by
  split
  · exact yes
  · exact no

/-- A loop. -/
theorem forM {holds : σ → Prop} {items : List β} {body : β → EStateM ε σ PUnit}
    (each : ∀ item ∈ items, Ensures holds (body item) (fun _ => holds) raised) :
    Ensures holds (items.forM body) (fun _ => holds) raised := by
  induction items with
  | nil => exact pure fun _ here => here
  | cons item rest ih =>
    refine bind (each item List.mem_cons_self) fun _ => ih fun other member => ?_
    exact each other (List.mem_cons_of_mem _ member)

/-- A program, run where the state is known. -/
theorem at_ (ensured : Ensures before program after raised) {known : σ} (here : before known) :
    Ensures (fun now => now = known) program after raised := by
  rintro state rfl
  exact ensured state here

end Ensures

namespace Keeps

variable {holds : σ → Prop} {program : EStateM ε σ α}

theorem of_ok (keeps : Keeps holds program) {state next : σ} {value : α} (here : holds state)
    (ran : program state = .ok value next) : holds next :=
  Ensures.of_ok keeps here ran

theorem of_error (keeps : Keeps holds program) {state next : σ} {error : ε} (here : holds state)
    (ran : program state = .error error next) : holds next :=
  Ensures.of_error keeps here ran

theorem pure (value : α) : Keeps holds (Pure.pure value : EStateM ε σ α) :=
  Ensures.pure fun _ here => here

theorem throw (error : ε) : Keeps holds (MonadExcept.throw error : EStateM ε σ α) :=
  Ensures.throw fun _ here => here

theorem modify {change : σ → σ} (keeps : ∀ state, holds state → holds (change state)) :
    Keeps holds (modify change : EStateM ε σ Unit) :=
  Ensures.modify keeps

theorem bind {next : α → EStateM ε σ β} (first : Keeps holds program)
    (second : ∀ value, Keeps holds (next value)) : Keeps holds (program >>= next) :=
  Ensures.bind first second

/-- Reading the state. -/
theorem get {next : σ → EStateM ε σ β}
    (here : ∀ state, holds state →
      Ensures (fun now => now = state) (next state) (fun _ => holds) (fun _ => holds)) :
    Keeps holds (MonadState.get >>= next) :=
  Ensures.get here

/-- A loop. -/
theorem forM {items : List β} {body : β → EStateM ε σ PUnit}
    (each : ∀ item ∈ items, Keeps holds (body item)) : Keeps holds (items.forM body) :=
  Ensures.forM each

/-- A program that keeps the property, run where the state is known. -/
theorem at_ (keeps : Keeps holds program) {known : σ} (here : holds known) :
    Ensures (fun now => now = known) program (fun _ => holds) (fun _ => holds) :=
  Ensures.at_ keeps here

end Keeps

namespace Returns

variable {holds : σ → Prop} {program : EStateM ε σ α}

theorem exists_ok (returns : Returns holds program) {state : σ} (here : holds state) :
    ∃ value next, program state = .ok value next ∧ holds next := by
  have known := returns state here
  cases ran : program state with
  | ok value next =>
    rw [ran] at known
    exact ⟨value, next, rfl, known⟩
  | error error next =>
    rw [ran] at known
    exact known.elim

theorem of_ok (returns : Returns holds program) {state next : σ} {value : α} (here : holds state)
    (ran : program state = .ok value next) : holds next :=
  Ensures.of_ok returns here ran

theorem keeps (returns : Returns holds program) : Keeps holds program :=
  returns.weaken (fun _ _ here => here) fun _ _ raised => raised.elim

end Returns

/-! ### Programs that returned -/

section Returned

variable {first : EStateM ε σ α} {state last : σ} {result : β}

/-- Behind a program that returned, the next one runs. -/
theorem bind_of_ok {value : α} {middle : σ} (ran : first state = .ok value middle)
    (next : α → EStateM ε σ β) : (first >>= next) state = next value middle := by
  show EStateM.bind first next state = _
  unfold EStateM.bind
  rw [ran]

/-- Behind one that raised, nothing runs. -/
theorem bind_of_error {error : ε} {middle : σ} (ran : first state = .error error middle)
    (next : α → EStateM ε σ β) : (first >>= next) state = .error error middle := by
  show EStateM.bind first next state = _
  unfold EStateM.bind
  rw [ran]

theorem bind_eq_ok {next : α → EStateM ε σ β} :
    (first >>= next) state = .ok result last ↔
      ∃ value middle, first state = .ok value middle ∧ next value middle = .ok result last := by
  show EStateM.bind first next state = .ok result last ↔ _
  unfold EStateM.bind
  cases first state with
  | ok value middle =>
    constructor
    · exact fun ran => ⟨value, middle, rfl, ran⟩
    · rintro ⟨_, _, ⟨⟩, ran⟩
      exact ran
  | error error middle =>
    constructor
    · intro ran
      cases ran
    · rintro ⟨_, _, ⟨⟩, _⟩

theorem get_bind_eq_ok {next : σ → EStateM ε σ β} :
    (MonadState.get >>= next) state = .ok result last ↔ next state state = .ok result last :=
  Iff.rfl

theorem set_bind_eq_ok {new : σ} {rest : EStateM ε σ β} :
    (MonadStateOf.set new >>= fun _ => rest) state = .ok result last ↔
      rest new = .ok result last :=
  Iff.rfl

theorem modify_bind_eq_ok {change : σ → σ} {rest : EStateM ε σ β} :
    ((modify change : EStateM ε σ PUnit) >>= fun _ => rest) state = .ok result last ↔
      rest (change state) = .ok result last :=
  Iff.rfl

end Returned

end ClaudeProxy
