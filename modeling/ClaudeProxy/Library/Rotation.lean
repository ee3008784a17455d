/-
**Places in a circle, from a start on.**

* `circularFrom` — all places of a circle, from a start on.
* `gap start place n` — how many places lie from a start up to another one.
* `Ahead start near far n` — from a start on, one place comes before another.
* **`Ahead.next`** — whoever takes a place that comes no later than the nearer of two, and starts behind
  it the next time, has taken the nearer one or still has it ahead of the other. Just behind the farther
  one, all others are ahead of it (`ahead_behind`).
-/

import Mathlib.Data.List.Basic

namespace ClaudeProxy

/-- The places of a circle of `n`, from a start on. -/
def circularFrom (start n : Nat) : List Nat := (List.range n).map fun step => (start + step) % n

/-- How many places lie from a start up to another. -/
def gap (start place n : Nat) : Nat :=
  if start % n ≤ place then place - start % n else place + n - start % n

/-- One place comes before another. -/
def Ahead (start near far n : Nat) : Prop := gap start near n < gap start far n

variable {start place near far found n : Nat}

/-- A sum in a circle. -/
theorem add_mod_cases (start : Nat) {step n : Nat} (within : step < n) :
    (start + step) % n = if start % n + step < n then start % n + step else start % n + step - n := by
  have low := Nat.mod_lt start (Nat.zero_lt_of_lt within)
  rw [Nat.add_mod, Nat.mod_eq_of_lt within]
  split_ifs with short
  · exact Nat.mod_eq_of_lt short
  · rw [Nat.mod_eq_sub_mod (Nat.le_of_not_lt short), Nat.mod_eq_of_lt (by omega)]

theorem gap_lt (within : place < n) : gap start place n < n := by
  have low := Nat.mod_lt start (Nat.zero_lt_of_lt within)
  unfold gap
  split_ifs <;> omega

/-- So many places on, there it is. -/
theorem add_gap_mod (within : place < n) : (start + gap start place n) % n = place := by
  have low := Nat.mod_lt start (Nat.zero_lt_of_lt within)
  rw [add_mod_cases start (gap_lt within)]
  unfold gap
  split_ifs <;> omega

/-- What is so many places on lies so many places on. -/
theorem gap_add_mod {step : Nat} (within : step < n) : gap start ((start + step) % n) n = step := by
  have low := Nat.mod_lt start (Nat.zero_lt_of_lt within)
  rw [add_mod_cases start within]
  unfold gap
  split_ifs <;> omega

/-- **Before a place come the nearer ones.** -/
theorem circularFrom_split (start : Nat) {place n : Nat} (within : place < n) : ∃ before after,
    circularFrom start n = before ++ place :: after ∧
      ∀ other ∈ before, other < n ∧ gap start other n < gap start place n := by
  have inside : gap start place n < (List.range n).length := by
    rw [List.length_range]
    exact gap_lt within
  let turn (step : Nat) : Nat := (start + step) % n
  refine ⟨((List.range n).take (gap start place n)).map turn,
    ((List.range n).drop (gap start place n + 1)).map turn, ?_, fun other member => ?_⟩
  · unfold circularFrom
    conv_lhs =>
      rw [← List.take_append_drop (gap start place n) (List.range n), List.drop_eq_getElem_cons inside,
        List.getElem_range, List.map_append, List.map_cons, add_gap_mod within]
  · obtain ⟨step, taken, rfl⟩ := List.mem_map.mp member
    rw [List.take_range, List.mem_range] at taken
    have short : step < n := by omega
    refine ⟨Nat.mod_lt _ (Nat.zero_lt_of_lt within), ?_⟩
    rw [gap_add_mod short]
    omega

/-- Where the next start lies. -/
theorem succ_mod_cases (within : found < n) :
    (found + 1) % n % n = if found + 1 < n then found + 1 else 0 := by
  rw [Nat.mod_mod]
  split_ifs with short
  · exact Nat.mod_eq_of_lt short
  · rw [show found + 1 = n by omega, Nat.mod_self]

/-- Just behind a place, all others are ahead of it. -/
theorem ahead_behind (nearWithin : near < n) (farWithin : far < n) (apart : near ≠ far) :
    Ahead ((far + 1) % n) near far n := by
  unfold Ahead gap
  rw [succ_mod_cases farWithin]
  split_ifs <;> omega

/-- **A turn.** Of a place no later than the nearer one, which is not it. -/
theorem Ahead.next (ahead : Ahead start near far n) (nearWithin : near < n)
    (foundWithin : found < n) (noLater : gap start found n ≤ gap start near n)
    (other : found ≠ near) : found ≠ far ∧ Ahead ((found + 1) % n) near far n := by
  have low := Nat.mod_lt start (Nat.zero_lt_of_lt nearWithin)
  unfold Ahead gap at *
  rw [succ_mod_cases foundWithin]
  split_ifs at * <;> omega

end ClaudeProxy
