/-
**Events that keep their distance.**

* `Spaced` — in a log of instants, an event and the one `limit` places after it lie at least `length`
  apart.
* `Spaced.concat` — a log stays spaced when the event `limit` places before the new one is that old.
* **`Spaced.length_filter_le`** — of a spaced log in order of time, no more than `limit` events lie less
  than `length` apart from each other.
* `Pruned` — a log of which only the old events at its front have been dropped; `Pruned.room` — if less
  than `limit` events are left, the one `limit` places back was dropped.
-/

import Mathlib.Data.List.NodupEquivFin
import Mathlib.Data.List.TakeWhile
import Mathlib.Order.Monotone.Basic

namespace ClaudeProxy

section Spaced

variable {α : Type*} [Add α] [LinearOrder α] {limit : Nat} {length now : α} {times : List α}

/-- **Any two events `limit` places apart lie `length` apart.** -/
def Spaced (limit : Nat) (length : α) (times : List α) : Prop :=
  ∀ place early late, times[place]? = some early → times[place + limit]? = some late →
    early + length ≤ late

namespace Spaced

theorem nil : Spaced limit length [] := by
  intro place early late first
  cases first

/-- A new event, `length` after the one `limit` places before it. -/
theorem concat (spaced : Spaced limit length times) (limited : 0 < limit)
    (old : ∀ place early, place + limit = times.length → times[place]? = some early →
      early + length ≤ now) : Spaced limit length (times ++ [now]) := by
  intro place early late first second
  have inside : place < times.length := by
    have bound := (List.getElem?_eq_some_iff.mp second).1
    rw [List.length_append, List.length_singleton] at bound
    omega
  rw [List.getElem?_append_left inside] at first
  rcases Nat.lt_or_ge (place + limit) times.length with within | beyond
  · rw [List.getElem?_append_left within] at second
    exact spaced place early late first second
  · have last : place + limit = times.length := by
      have bound := (List.getElem?_eq_some_iff.mp second).1
      rw [List.length_append, List.length_singleton] at bound
      omega
    rw [last, List.getElem?_concat_length] at second
    obtain rfl := Option.some.inj second
    exact old place early last first

/-- **Events less than `length` apart from each other are at most `limit`.** The first and the last of
more of them would lie `limit` places apart in the log. -/
theorem length_filter_le (spaced : Spaced limit length times) (ordered : times.Pairwise (· ≤ ·))
    {inside : α → Bool}
    (narrow : ∀ early late, inside early = true → inside late = true → late < early + length) :
    (times.filter inside).length ≤ limit := by
  by_contra many
  obtain ⟨places, same⟩ := List.sublist_iff_exists_orderEmbedding_getElem?_eq.mp
    (@List.filter_sublist _ inside times)
  have more : limit < (times.filter inside).length := Nat.lt_of_not_le many
  have firstHere := List.getElem?_eq_getElem (Nat.zero_lt_of_lt more)
  have lastHere := List.getElem?_eq_getElem more
  have firstInside := (List.mem_filter.mp (List.mem_of_getElem? firstHere)).2
  have lastInside := (List.mem_filter.mp (List.mem_of_getElem? lastHere)).2
  rw [same] at firstHere lastHere
  -- between the two there are `limit` places of the log, or more
  have apart : places 0 + limit ≤ places limit := by
    have grows := places.strictMono.add_le_nat limit 0
    rw [Nat.add_zero] at grows
    omega
  obtain ⟨bound, isLast⟩ := List.getElem?_eq_some_iff.mp lastHere
  have middleHere := List.getElem?_eq_getElem (Nat.lt_of_le_of_lt apart bound)
  have distance := spaced _ _ _ firstHere middleHere
  have order : times[places 0 + limit] ≤ (times.filter inside)[limit] := by
    rw [← isLast]
    rcases Nat.eq_or_lt_of_le apart with equal | before
    · exact le_of_eq (by simp only [equal])
    · exact List.pairwise_iff_getElem.mp ordered _ _ _ bound before
  exact absurd (narrow _ _ firstInside lastInside) (not_lt.mpr (distance.trans order))

end Spaced

end Spaced

section Pruned

variable {α : Type*} {old older : α → Prop} {all kept : List α} {limit : Nat}

/-- **A log whose old events have been dropped from its front.** -/
def Pruned (old : α → Prop) (all kept : List α) : Prop :=
  ∃ dropped, all = dropped ++ kept ∧ ∀ time ∈ dropped, old time

namespace Pruned

theorem refl : Pruned old all all := ⟨[], rfl, by simp⟩

theorem mono (pruned : Pruned old all kept) (weaker : ∀ time, old time → older time) :
    Pruned older all kept := by
  obtain ⟨dropped, same, gone⟩ := pruned
  exact ⟨dropped, same, fun time member => weaker time (gone time member)⟩

theorem append (pruned : Pruned old all kept) (events : List α) :
    Pruned old (all ++ events) (kept ++ events) := by
  obtain ⟨dropped, rfl, gone⟩ := pruned
  exact ⟨dropped, List.append_assoc _ _ _, gone⟩

/-- Through dropping more of them. -/
theorem dropWhile (pruned : Pruned old all kept) {drops : α → Bool}
    (gone : ∀ time, drops time = true → old time) : Pruned old all (kept.dropWhile drops) := by
  obtain ⟨dropped, rfl, before⟩ := pruned
  refine ⟨dropped ++ kept.takeWhile drops, ?_, ?_⟩
  · rw [List.append_assoc, List.takeWhile_append_dropWhile]
  · intro time member
    rcases List.mem_append.mp member with member | member
    · exact before time member
    · exact gone time (List.mem_takeWhile_imp member)

/-- **Where there is room among the events that are left**, the one `limit` places back was dropped. -/
theorem room (pruned : Pruned old all kept) (few : kept.length < limit) {place : Nat} {early : α}
    (back : place + limit = all.length) (here : all[place]? = some early) : old early := by
  obtain ⟨dropped, rfl, gone⟩ := pruned
  rw [List.length_append] at back
  rw [List.getElem?_append_left (by omega)] at here
  exact gone early (List.mem_of_getElem? here)

end Pruned

end Pruned

end ClaudeProxy
