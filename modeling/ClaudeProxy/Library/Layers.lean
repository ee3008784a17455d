/-
**Values from several layers.**

* `Dict.get?_foldl_put` — what a dictionary holds when the entries of a list have been put into it, as
  far as each says what to put.
* `Layers.topmost` — the value of the highest layer that has one; **`topmost_congr`** — layers that
  agree up to a relation have values that agree up to it.
-/

import ClaudeProxy.Library.Dict
import Mathlib.Data.Option.Basic

namespace ClaudeProxy

section Put

variable {κ α β : Type} [DecidableEq κ]

theorem Assoc.get?_of_notMem {key : κ} {entries : List (κ × β)}
    (absent : key ∉ entries.map Prod.fst) : Assoc.get? key entries = none := by
  cases found : Assoc.get? key entries with
  | none => rfl
  | some value => exact absurd (List.mem_map.mpr ⟨_, Assoc.mem_of_get?_eq_some found, rfl⟩) absent

/-- **Entries with distinct keys are put into a dictionary**, each where it says what to put. -/
theorem Dict.get?_foldl_put {step : Dict κ α → κ × β → Dict κ α} {put : κ → β → Option α}
    (isStep : ∀ dict key value,
      step dict (key, value) = (put key value).elim dict (dict.set key))
    {entries : List (κ × β)} (distinct : (entries.map Prod.fst).Nodup) (dict : Dict κ α) (key : κ) :
    (entries.foldl step dict).get? key =
      ((Assoc.get? key entries).bind (put key)).or (dict.get? key) := by
  induction entries generalizing dict with
  | nil => rfl
  | cons entry entries ih =>
    obtain ⟨name, value⟩ := entry
    rw [List.map_cons, List.nodup_cons] at distinct
    rw [List.foldl_cons, ih distinct.2, isStep, Assoc.get?_cons]
    by_cases same : name = key
    · subst same
      rw [if_pos rfl, Assoc.get?_of_notMem distinct.1, Option.bind_none, Option.none_or,
        Option.bind_some]
      cases put name value with
      | none => rfl
      | some placed => simp
    · rw [if_neg same]
      congr 1
      cases put name value with
      | none => rfl
      | some placed => exact Dict.get?_set_ne dict (Ne.symm same) placed

end Put

namespace Layers

variable {α β : Type}

/-- The value of the first layer that has one. -/
def topmost (layers : List (Option α)) : Option α := layers.findSome? id

@[simp] theorem topmost_nil : topmost ([] : List (Option α)) = none := rfl

@[simp] theorem topmost_cons (layer : Option α) (layers : List (Option α)) :
    topmost (layer :: layers) = layer.or (topmost layers) := by
  cases layer <;> rfl

/-- **Layers that agree up to a relation** have values that agree up to it. -/
theorem topmost_congr {relation : α → β → Prop} {layers : List (Option α)}
    {layers' : List (Option β)} (agree : List.Forall₂ (Option.Rel relation) layers layers') :
    Option.Rel relation (topmost layers) (topmost layers') := by
  induction agree with
  | nil => exact .none
  | cons head _ ih =>
    rw [topmost_cons, topmost_cons]
    cases head with
    | none => exact ih
    | some related => exact .some related

end Layers

end ClaudeProxy
