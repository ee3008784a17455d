/-
**The shortest continuation of a list.**

A list that begins with what another one ends with overlaps it; behind the longest overlap, it is the
shortest list that continues the other one to an end with the whole list.

* `Overlaps` — the beginnings of `back` that end `front`.
* `ShortestContinuation` — the shortest list behind `front` such that `back` is at the end; any other
  one is longer.
* **`shortest_drop`** — what is behind the longest overlap.
-/

import Mathlib.Data.List.Infix

namespace ClaudeProxy

variable {α : Type}

/-- The first items of `back`, so many, end `front`. -/
structure Overlaps (front back : List α) (size : Nat) : Prop where
  within : size ≤ back.length
  ends : back.take size <:+ front

/-- The shortest list behind `front` such that `back` is at the end. -/
structure ShortestContinuation (front back rest : List α) : Prop where
  continues : back <:+ front ++ rest
  shortest : ∀ other, back <:+ front ++ other → rest = other ∨ rest.length < other.length

theorem overlaps_zero (front back : List α) : Overlaps front back 0 :=
  ⟨Nat.zero_le _, by rw [List.take_zero]; exact List.nil_suffix⟩

/-- Whatever continues `front` to an end with `back` has all of it, or what is behind an overlap. -/
theorem continues_cases {front back rest : List α} (continues : back <:+ front ++ rest) :
    back <:+ rest ∨ ∃ size, Overlaps front back size ∧ back.drop size = rest := by
  rcases List.suffix_or_suffix_of_suffix continues (List.suffix_append front rest) with whole | behind
  · exact .inl whole
  · obtain ⟨head, rfl⟩ := behind
    obtain ⟨before, same⟩ := continues
    have ends : before ++ head = front := by
      rw [← List.append_assoc] at same
      exact List.append_cancel_right same
    refine .inr ⟨head.length, ⟨?_, ?_⟩, List.drop_left⟩
    · rw [List.length_append]
      exact Nat.le_add_right _ _
    · rw [List.take_left]
      exact ⟨before, ends⟩

/-- **Behind the longest overlap** is the shortest continuation. -/
theorem shortest_drop {front back : List α} {size : Nat} (overlaps : Overlaps front back size)
    (longest : ∀ other, Overlaps front back other → other ≤ size) :
    ShortestContinuation front back (back.drop size) := by
  obtain ⟨before, ends⟩ := overlaps.ends
  refine ⟨⟨before, ?_⟩, fun other continues => ?_⟩
  · calc before ++ back = before ++ (back.take size ++ back.drop size) := by
          rw [List.take_append_drop]
      _ = front ++ back.drop size := by rw [← List.append_assoc, ends]
  · have inside : back.drop size <:+ other := by
      rcases continues_cases continues with whole | ⟨shorter, also, rfl⟩
      · exact (List.drop_suffix size back).trans whole
      · exact List.drop_suffix_drop_left back (longest shorter also)
    rcases Nat.lt_or_eq_of_le inside.length_le with less | same
    · exact .inr less
    · exact .inl (inside.eq_of_length same)

/-- Where nothing overlaps, it is the whole list. -/
theorem shortest_whole {front back : List α} (apart : ∀ size, Overlaps front back size → size = 0) :
    ShortestContinuation front back back := by
  have whole := shortest_drop (overlaps_zero front back) fun other also => (apart other also).le
  rw [List.drop_zero] at whole
  exact whole

end ClaudeProxy
