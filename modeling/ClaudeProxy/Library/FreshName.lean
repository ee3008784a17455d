/-
**A name that is not taken.**

`firstFree` goes along a sequence of names until one is not taken. Where the names are distinct, it
takes no more steps than names are taken: `firstFree_notMem`.
-/

import Mathlib.Data.List.Nodup
import Mathlib.Data.List.Perm.Subperm

namespace ClaudeProxy

variable {α : Type} [DecidableEq α]

/-- The first name from `start` on that is not taken, with so many attempts. -/
def firstFree (names : Nat → α) (taken : List α) : (attempts start : Nat) → α
  | 0, start => names start
  | attempts + 1, start =>
    if names start ∈ taken then firstFree names taken attempts (start + 1) else names start

/-- A search that fails has met taken names only. -/
theorem mem_taken_of_firstFree {names : Nat → α} {taken : List α} {attempts start : Nat}
    (fails : firstFree names taken attempts start ∈ taken) :
    ∀ offset ≤ attempts, names (start + offset) ∈ taken := by
  induction attempts generalizing start with
  | zero =>
    intro offset none
    rw [Nat.le_zero.mp none]
    exact fails
  | succ attempts ih =>
    rw [firstFree] at fails
    split_ifs at fails with known
    · intro offset within
      cases offset with
      | zero => exact known
      | succ offset =>
        have later := ih fails offset (Nat.le_of_succ_le_succ within)
        rwa [Nat.add_right_comm] at later
    · exact absurd fails known

/-- **The search succeeds** within as many attempts as names are taken. -/
theorem firstFree_notMem {names : Nat → α} (distinct : Function.Injective names) (taken : List α)
    (start : Nat) : firstFree names taken taken.length start ∉ taken := by
  intro fails
  have met := mem_taken_of_firstFree fails
  set candidates := (List.range (taken.length + 1)).map fun offset => names (start + offset)
    with isCandidates
  have nodup : candidates.Nodup :=
    List.nodup_range.map fun first second same => Nat.add_left_cancel (distinct same)
  have within : candidates ⊆ taken := by
    intro name member
    obtain ⟨offset, inside, rfl⟩ := List.mem_map.mp member
    exact met offset (Nat.lt_succ_iff.mp (List.mem_range.mp inside))
  have fewer := (List.Nodup.subperm nodup within).length_le
  rw [isCandidates, List.length_map, List.length_range] at fewer
  exact absurd fewer (Nat.not_succ_le_self _)

end ClaudeProxy
