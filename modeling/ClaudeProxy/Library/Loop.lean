/-
**Loops that break.**

The body of a `while True` loop is a partial function: it goes on to another state, or breaks.

* `Loop.after` — the state behind so many rounds; `Loop.Ends` — the round that breaks.
* **`Loop.ends_of_measure`** — a loop whose rounds shrink a measure ends, after no more rounds than
  the measure says.
* `Loop.Ends.result` — what a loop ends with, told of every round.
-/

import Mathlib.Logic.Basic

namespace ClaudeProxy

namespace Loop

variable {σ β : Type} {body : σ → Option σ}

/-- The state behind so many rounds, if none of them breaks. -/
def after (body : σ → Option σ) : Nat → σ → Option σ
  | 0, state => some state
  | rounds + 1, state => (body state).bind (after body rounds)

/-- The loop goes on for so many rounds and breaks in the next one. -/
structure Ends (body : σ → Option σ) (start : σ) (rounds : Nat) (last : σ) : Prop where
  reached : after body rounds start = some last
  breaks : body last = none

theorem ends_here {start : σ} (breaks : body start = none) : Ends body start 0 start :=
  ⟨rfl, breaks⟩

theorem Ends.round {start next last : σ} {rounds : Nat} (ends : Ends body next rounds last)
    (goes : body start = some next) : Ends body start (rounds + 1) last := by
  refine ⟨?_, ends.breaks⟩
  rw [after, goes]
  exact ends.reached

/-- **A loop whose rounds shrink a measure ends.** -/
theorem ends_of_measure (measure : σ → Nat)
    (shrinks : ∀ state next, body state = some next → measure next < measure state) (start : σ) :
    ∃ rounds last, rounds ≤ measure start ∧ Ends body start rounds last := by
  induction bound : measure start using Nat.strongRecOn generalizing start with
  | ind size ih =>
    cases here : body start with
    | none => exact ⟨0, start, Nat.zero_le _, ends_here here⟩
    | some next =>
      have smaller := shrinks start next here
      rw [bound] at smaller
      obtain ⟨rounds, last, few, ends⟩ := ih _ smaller next rfl
      exact ⟨rounds + 1, last, Nat.lt_of_le_of_lt few smaller, ends.round here⟩

/-- What no round changes is the same at the end. -/
theorem Ends.result (value : σ → β)
    (same : ∀ state next, body state = some next → value next = value state) {start last : σ}
    {rounds : Nat} (ends : Ends body start rounds last) : value last = value start := by
  induction rounds generalizing start with
  | zero =>
    obtain rfl := Option.some.inj ends.reached
    rfl
  | succ rounds ih =>
    obtain ⟨next, goes, rest⟩ := Option.bind_eq_some_iff.mp ends.reached
    exact (ih ⟨rest, ends.breaks⟩).trans (same start next goes)

end Loop

end ClaudeProxy
