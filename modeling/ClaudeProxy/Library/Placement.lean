/-
**Objects in slots.**

* `Placed stored live` — every live object stands in exactly one slot, and only live objects stand in
  slots.
* `Placed.put`, `Placed.move`, `Placed.drop` — a new object in an empty slot, an object moved to an
  empty slot, an object taken out and ended.
* `Placed.overwritten` — a live object whose slot is filled again has none.
* `Inverse forward backward` — two dictionaries that are each other's inverse; `Inverse.set`,
  `Inverse.erase` and `not_inverse_of_set` for one pair more, one pair less and a second value.
-/

import ClaudeProxy.Library.Dict
import Mathlib.Logic.ExistsUnique
import Mathlib.Logic.Function.Basic

namespace ClaudeProxy

/-! ### Placements -/

section Placement

variable {slot object : Type}

/-- Every live object stands in exactly one slot, and every object in a slot is live. -/
structure Placed (stored : slot → Option object) (live : object → Prop) : Prop where
  once : ∀ item, live item → ∃! place, stored place = some item
  alive : ∀ place item, stored place = some item → live item

variable {stored : slot → Option object} {live : object → Prop}

namespace Placed

/-- Two slots with the same object are the same slot. -/
theorem same_place (placed : Placed stored live) {first second : slot} {item : object}
    (here : stored first = some item) (there : stored second = some item) : first = second :=
  (placed.once item (placed.alive first item here)).unique here there

/-- The same placement, the live objects in other words. -/
theorem congr {others : object → Prop} (placed : Placed stored live)
    (same : ∀ item, live item ↔ others item) : Placed stored others where
  once item alive := placed.once item ((same item).mpr alive)
  alive place item here := (same item).mp (placed.alive place item here)

variable [DecidableEq slot]

/-- **A new object goes into an empty slot.** -/
theorem put (placed : Placed stored live) {place : slot} {item : object}
    (empty : stored place = none) (fresh : ¬ live item) :
    Placed (Function.update stored place (some item)) (fun other => other = item ∨ live other) := by
  constructor
  · rintro other (rfl | alive)
    · refine ⟨place, Function.update_self place _ stored, ?_⟩
      intro elsewhere found
      by_contra different
      rw [Function.update_of_ne different] at found
      exact fresh (placed.alive elsewhere other found)
    · obtain ⟨home, found, only⟩ := placed.once other alive
      have different : home ≠ place := by
        rintro rfl
        rw [empty] at found
        cases found
      refine ⟨home, (Function.update_of_ne different _ _).trans found, ?_⟩
      intro elsewhere stands
      by_cases same : elsewhere = place
      · rw [same] at stands
        simp only [Function.update_self, Option.some.injEq] at stands
        exact absurd (stands ▸ alive) fresh
      · exact only elsewhere ((Function.update_of_ne same _ stored).symm.trans stands)
  · intro elsewhere other found
    by_cases same : elsewhere = place
    · rw [same, Function.update_self, Option.some.injEq] at found
      exact Or.inl found.symm
    · rw [Function.update_of_ne same] at found
      exact Or.inr (placed.alive elsewhere other found)

/-- **An object taken out of its slot is no longer live.** -/
theorem drop (placed : Placed stored live) {place : slot} {item : object}
    (here : stored place = some item) :
    Placed (Function.update stored place none) (fun other => other ≠ item ∧ live other) := by
  constructor
  · rintro other ⟨different, alive⟩
    obtain ⟨home, found, only⟩ := placed.once other alive
    have apart : home ≠ place := by
      rintro rfl
      rw [here, Option.some.injEq] at found
      exact different found.symm
    refine ⟨home, (Function.update_of_ne apart _ _).trans found, ?_⟩
    intro elsewhere stands
    by_cases same : elsewhere = place
    · rw [same, Function.update_self] at stands
      cases stands
    · exact only elsewhere ((Function.update_of_ne same _ stored).symm.trans stands)
  · intro elsewhere other found
    by_cases same : elsewhere = place
    · rw [same, Function.update_self] at found
      cases found
    · rw [Function.update_of_ne same] at found
      refine ⟨?_, placed.alive elsewhere other found⟩
      rintro rfl
      exact same (placed.same_place found here)

/-- **An object moves to an empty slot.** -/
theorem move (placed : Placed stored live) {source target : slot} {item : object}
    (here : stored source = some item) (empty : stored target = none) :
    Placed (Function.update (Function.update stored source none) target (some item)) live := by
  have gone : Function.update stored source none target = none := by
    by_cases same : target = source
    · rw [same, Function.update_self]
    · rw [Function.update_of_ne same, empty]
  refine ((placed.drop here).put gone fun still => still.1 rfl).congr fun other => ?_
  constructor
  · rintro (rfl | ⟨-, alive⟩)
    · exact placed.alive source other here
    · exact alive
  · intro alive
    by_cases equal : other = item
    · exact Or.inl equal
    · exact Or.inr ⟨equal, alive⟩

/-- **Filling the slot of a live object with another one leaves it without a slot.** -/
theorem overwritten (placed : Placed stored live) {place : slot} {item other : object}
    (here : stored place = some item) (different : other ≠ item) {after : object → Prop}
    (alive : after item) : ¬ Placed (Function.update stored place (some other)) after := by
  intro still
  obtain ⟨home, found, -⟩ := still.once item alive
  by_cases same : home = place
  · rw [same, Function.update_self, Option.some.injEq] at found
    exact different found
  · rw [Function.update_of_ne same] at found
    exact same (placed.same_place found here)

end Placed

end Placement

/-! ### Inverse dictionaries -/

section Inverse

variable {κ ι : Type} [DecidableEq κ] [DecidableEq ι]

/-- Each dictionary is the inverse of the other, so both are injective. -/
def Inverse (forward : Dict κ ι) (backward : Dict ι κ) : Prop :=
  ∀ key image, forward.get? key = some image ↔ backward.get? image = some key

variable {forward : Dict κ ι} {backward : Dict ι κ} {key : κ} {image : ι}

/-- One more pair, new on both sides. -/
theorem Inverse.set (inverse : Inverse forward backward) (newKey : forward.get? key = none)
    (newImage : backward.get? image = none) :
    Inverse (forward.set key image) (backward.set image key) := by
  intro other value
  rw [Dict.get?_set, Dict.get?_set]
  by_cases sameKey : other = key
  · by_cases sameImage : value = image
    · simp [sameKey, sameImage]
    · have absent : backward.get? value ≠ some key := by
        rw [Ne, ← inverse key value, newKey]
        simp
      simp [sameKey, sameImage, Ne.symm sameImage, absent]
  · by_cases sameImage : value = image
    · have absent : forward.get? other ≠ some image := by
        rw [Ne, inverse other image, newImage]
        simp
      simp [sameKey, sameImage, Ne.symm sameKey, absent]
    · rw [if_neg sameKey, if_neg sameImage]
      exact inverse other value

/-- One pair less, erased on both sides. -/
theorem Inverse.erase (inverse : Inverse forward backward) (pair : forward.get? key = some image) :
    Inverse (forward.erase key) (backward.erase image) := by
  intro other value
  rw [Dict.get?_erase, Dict.get?_erase]
  have back := (inverse key image).mp pair
  by_cases sameKey : other = key
  · by_cases sameImage : value = image
    · simp [sameKey, sameImage]
    · have absent : backward.get? value ≠ some key := by
        rw [Ne, ← inverse key value, pair, Option.some.injEq]
        exact Ne.symm sameImage
      simp [sameKey, sameImage, absent]
  · by_cases sameImage : value = image
    · have absent : forward.get? other ≠ some image := by
        rw [Ne, inverse other image, back, Option.some.injEq]
        exact Ne.symm sameKey
      simp [sameKey, sameImage, absent]
    · rw [if_neg sameKey, if_neg sameImage]
      exact inverse other value

/-- **A second image for a key breaks the inverse.** -/
theorem not_inverse_of_set (inverse : Inverse forward backward) {old : ι}
    (pair : forward.get? key = some old) (different : image ≠ old) :
    ¬ Inverse (forward.set key image) (backward.set image key) := by
  intro still
  have back : (backward.set image key).get? old = some key := by
    rw [Dict.get?_set_ne backward different.symm]
    exact (inverse key old).mp pair
  have ahead := (still key old).mpr back
  rw [Dict.get?_set_self, Option.some.injEq] at ahead
  exact different ahead

end Inverse

end ClaudeProxy
