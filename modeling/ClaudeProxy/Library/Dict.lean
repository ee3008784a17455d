/-
**Insertion-ordered dictionaries.**

`Dict κ α` is an association list whose keys are pairwise distinct, the invariant being a field, so
that a lookup and a membership in `entries` say the same (`mem_entries_iff`). Setting a present key
keeps its place, setting a new one appends it, and a value map keeps every key; this is the order in
which the values are listed afterwards.

The three list operations under `Assoc` do the same on a bare association list, for values (such as
a JSON object) whose keys are not known to be distinct. `map_set_of_same` and `map_modify` are for plain lists.
-/

import Mathlib.Data.List.Nodup

namespace ClaudeProxy

variable {κ α : Type}

/-- Another element with the same property in place of one. -/
theorem map_set_of_same {β : Type} {property : α → β} {list : List α} {place : Nat} {old new : α}
    (found : list[place]? = some old) (same : property new = property old) :
    (list.set place new).map property = list.map property := by
  obtain ⟨inside, rfl⟩ := List.getElem?_eq_some_iff.mp found
  rw [List.map_set, same, ← List.map_set, List.set_getElem_self]

/-- A change of one element that the map turns into another one. -/
theorem map_modify {β : Type} {change : α → α} {property : α → β} (changed : β → β)
    (commutes : ∀ value, property (change value) = changed (property value)) {list : List α}
    {place : Nat} :
    (list.modify place change).map property = (list.map property).modify place changed := by
  apply List.ext_getElem?
  intro other
  rw [List.getElem?_map, List.getElem?_modify, List.getElem?_modify, List.getElem?_map]
  cases list[other]? with
  | none => rfl
  | some value =>
    show some (property (if place = other then change value else value)) =
      some (if place = other then changed (property value) else property value)
    split_ifs
    · rw [commutes]
    · rfl

/-! ### Association lists -/

namespace Assoc

variable [DecidableEq κ]

/-- The value of the first entry under a key. -/
def get? (key : κ) : List (κ × α) → Option α
  | [] => none
  | entry :: rest => if entry.1 = key then some entry.2 else get? key rest

/-- Overwrite the first entry under a key in place, or append a new entry. -/
def set (key : κ) (value : α) : List (κ × α) → List (κ × α)
  | [] => [(key, value)]
  | entry :: rest => if entry.1 = key then (key, value) :: rest else entry :: set key value rest

@[simp] theorem get?_nil (key : κ) : get? key ([] : List (κ × α)) = none := rfl

theorem get?_cons (key : κ) (entry : κ × α) (rest : List (κ × α)) :
    get? key (entry :: rest) = if entry.1 = key then some entry.2 else get? key rest := rfl

@[simp] theorem get?_set_self (key : κ) (value : α) (entries : List (κ × α)) :
    get? key (set key value entries) = some value := by
  induction entries with
  | nil => simp [set, get?]
  | cons entry rest ih =>
    by_cases same : entry.1 = key
    · simp [set, get?, same]
    · simp [set, get?, same, ih]

theorem get?_set_ne {key other : κ} (different : other ≠ key) (value : α)
    (entries : List (κ × α)) : get? other (set key value entries) = get? other entries := by
  induction entries with
  | nil => simp [set, get?, different.symm]
  | cons entry rest ih =>
    by_cases same : entry.1 = key
    · have skip : entry.1 ≠ other := fun equal => different (equal.symm.trans same)
      simp [set, get?, same, different.symm]
    · by_cases hit : entry.1 = other
      · simp [set, get?, hit, different]
      · simp [set, get?, same, hit, ih]

theorem mem_of_get?_eq_some {key : κ} {value : α} {entries : List (κ × α)}
    (found : get? key entries = some value) : (key, value) ∈ entries := by
  induction entries with
  | nil => cases found
  | cons entry rest ih =>
    rw [get?_cons] at found
    by_cases same : entry.1 = key
    · rw [if_pos same] at found
      obtain rfl := Option.some.inj found
      exact List.mem_cons.mpr (Or.inl (Prod.ext same.symm rfl))
    · rw [if_neg same] at found
      exact List.mem_cons_of_mem _ (ih found)

/-- With distinct keys every entry is the one a lookup finds. -/
theorem get?_eq_some_of_mem {key : κ} {value : α} {entries : List (κ × α)}
    (distinct : (entries.map Prod.fst).Nodup) (member : (key, value) ∈ entries) :
    get? key entries = some value := by
  induction entries with
  | nil => cases member
  | cons entry rest ih =>
    rw [List.map_cons, List.nodup_cons] at distinct
    rcases List.mem_cons.mp member with rfl | member
    · rw [get?_cons, if_pos rfl]
    · have skip : entry.1 ≠ key := fun same =>
        distinct.1 (same ▸ List.mem_map.mpr ⟨_, member, rfl⟩)
      rw [get?_cons, if_neg skip]
      exact ih distinct.2 member

/-- Setting a key keeps the keys in order, with a new key last. -/
theorem keys_set (key : κ) (value : α) (entries : List (κ × α)) :
    (set key value entries).map Prod.fst =
      if key ∈ entries.map Prod.fst then entries.map Prod.fst
      else entries.map Prod.fst ++ [key] := by
  induction entries with
  | nil => simp [set]
  | cons entry rest ih =>
    by_cases same : entry.1 = key
    · simp [set, same]
    · rw [set, if_neg same, List.map_cons, ih, List.map_cons]
      by_cases inRest : key ∈ rest.map Prod.fst
      · rw [if_pos inRest, if_pos (List.mem_cons_of_mem _ inRest)]
      · have absent : key ∉ entry.1 :: rest.map Prod.fst := by
          simp only [List.mem_cons, not_or]
          exact ⟨Ne.symm same, inRest⟩
        rw [if_neg inRest, if_neg absent, List.cons_append]

/-- Setting a key keeps the keys distinct. -/
theorem nodup_set {entries : List (κ × α)} (distinct : (entries.map Prod.fst).Nodup) (key : κ)
    (value : α) : ((set key value entries).map Prod.fst).Nodup := by
  rw [keys_set]
  split
  · exact distinct
  · rename_i absent
    refine List.nodup_append.mpr ⟨distinct, List.nodup_singleton _, ?_⟩
    rintro first member _ last rfl
    rw [List.mem_singleton] at last
    exact absent (last ▸ member)

/-- The entries behind setting a key. -/
theorem mem_set {key : κ} {value : α} {entries : List (κ × α)} {entry : κ × α}
    (member : entry ∈ set key value entries) : entry = (key, value) ∨ entry ∈ entries := by
  induction entries with
  | nil => exact Or.inl (List.mem_singleton.mp member)
  | cons first rest ih =>
    rw [set] at member
    split_ifs at member with same
    · exact (List.mem_cons.mp member).imp_right (List.mem_cons_of_mem _)
    · rcases List.mem_cons.mp member with rfl | inside
      · exact Or.inr List.mem_cons_self
      · exact (ih inside).imp_right (List.mem_cons_of_mem _)

/-- A new key goes behind the others. -/
theorem set_of_notMem {key : κ} {value : α} {entries : List (κ × α)}
    (absent : key ∉ entries.map Prod.fst) : set key value entries = entries ++ [(key, value)] := by
  induction entries with
  | nil => rfl
  | cons first rest ih =>
    rw [List.map_cons, List.mem_cons, not_or] at absent
    rw [set, if_neg (Ne.symm absent.1), ih absent.2, List.cons_append]

/-- Setting a key whose first entry is known. -/
theorem set_append_cons {key : κ} {front : List (κ × α)}
    (absent : key ∉ front.map Prod.fst) (old value : α) (back : List (κ × α)) :
    set key value (front ++ (key, old) :: back) = front ++ (key, value) :: back := by
  induction front with
  | nil => exact if_pos rfl
  | cons entry rest ih =>
    rw [List.map_cons, List.mem_cons, not_or] at absent
    rw [List.cons_append, set, if_neg (Ne.symm absent.1), ih absent.2, List.cons_append]

end Assoc

/-! ### Dictionaries -/

/-- An insertion-ordered dictionary. -/
structure Dict (κ α : Type) where
  entries : List (κ × α)
  nodupKeys : (entries.map Prod.fst).Nodup
  deriving DecidableEq

namespace Dict

/-- The empty dictionary. -/
def empty : Dict κ α := ⟨[], List.nodup_nil⟩

instance : EmptyCollection (Dict κ α) := ⟨empty⟩

/-- The values in insertion order. -/
def values (dict : Dict κ α) : List α := dict.entries.map Prod.snd

/-- The keys in insertion order. -/
def keys (dict : Dict κ α) : List κ := dict.entries.map Prod.fst

/-- Every value mapped. -/
def map {β : Type} (f : α → β) (dict : Dict κ α) : Dict κ β where
  entries := dict.entries.map fun entry => (entry.1, f entry.2)
  nodupKeys := by
    rw [List.map_map]
    exact dict.nodupKeys

/-- Every value mapped, under its own key. -/
def mapValues (f : κ → α → α) (dict : Dict κ α) : Dict κ α where
  entries := dict.entries.map fun entry => (entry.1, f entry.1 entry.2)
  nodupKeys := by
    rw [List.map_map]
    exact dict.nodupKeys

variable [DecidableEq κ]

/-- Lookup. -/
def get? (dict : Dict κ α) (key : κ) : Option α := Assoc.get? key dict.entries

/-- Overwrite in place, or append. -/
def set (dict : Dict κ α) (key : κ) (value : α) : Dict κ α where
  entries := Assoc.set key value dict.entries
  nodupKeys := Assoc.nodup_set dict.nodupKeys key value

/-- Remove a key. -/
def erase (dict : Dict κ α) (key : κ) : Dict κ α where
  entries := dict.entries.filter fun entry => entry.1 ≠ key
  nodupKeys := dict.nodupKeys.sublist (List.filter_sublist.map _)

@[simp] theorem get?_empty (key : κ) : (∅ : Dict κ α).get? key = none := rfl

@[simp] theorem get?_set_self (dict : Dict κ α) (key : κ) (value : α) :
    (dict.set key value).get? key = some value :=
  Assoc.get?_set_self key value dict.entries

theorem get?_set_ne (dict : Dict κ α) {key other : κ} (different : other ≠ key) (value : α) :
    (dict.set key value).get? other = dict.get? other :=
  Assoc.get?_set_ne different value dict.entries

theorem get?_set (dict : Dict κ α) (key other : κ) (value : α) :
    (dict.set key value).get? other = if other = key then some value else dict.get? other := by
  by_cases same : other = key
  · rw [same, if_pos rfl, get?_set_self]
  · rw [if_neg same, get?_set_ne dict same]

theorem mem_entries_iff (dict : Dict κ α) {key : κ} {value : α} :
    (key, value) ∈ dict.entries ↔ dict.get? key = some value :=
  ⟨Assoc.get?_eq_some_of_mem dict.nodupKeys, Assoc.mem_of_get?_eq_some⟩

theorem mem_values_iff (dict : Dict κ α) {value : α} :
    value ∈ dict.values ↔ ∃ key, dict.get? key = some value := by
  constructor
  · intro member
    obtain ⟨⟨key, _⟩, inside, rfl⟩ := List.mem_map.mp member
    exact ⟨key, dict.mem_entries_iff.mp inside⟩
  · rintro ⟨key, found⟩
    exact List.mem_map.mpr ⟨_, dict.mem_entries_iff.mpr found, rfl⟩

/-- Overwriting a value that is stored under no other key replaces it where it stands. -/
theorem values_set_of_owner {dict : Dict κ α} {key : κ} {old value : α} {front back : List α}
    (values : dict.values = front ++ old :: back)
    (owned : ∀ other, dict.get? other = some old → other = key) :
    (dict.set key value).values = front ++ value :: back := by
  obtain ⟨before, rest, entries, rfl, mapped⟩ := List.map_eq_append_iff.mp values
  obtain ⟨⟨owner, stored⟩, after, rfl, rfl, rfl⟩ := List.map_eq_cons_iff.mp mapped
  have inside : (owner, stored) ∈ dict.entries := entries ▸ List.mem_append_right _ List.mem_cons_self
  obtain rfl := owned owner (dict.mem_entries_iff.mp inside)
  have distinct := dict.nodupKeys
  rw [entries, List.map_append, List.map_cons, List.nodup_append] at distinct
  have absent : owner ∉ before.map Prod.fst := fun member =>
    distinct.2.2 owner member owner List.mem_cons_self rfl
  show (Assoc.set owner value dict.entries).map Prod.snd = _
  rw [entries, Assoc.set_append_cons absent, List.map_append, List.map_cons]

theorem get?_map {β : Type} (f : α → β) (dict : Dict κ α) (key : κ) :
    (dict.map f).get? key = (dict.get? key).map f := by
  show Assoc.get? key (dict.entries.map fun entry => (entry.1, f entry.2)) =
    (Assoc.get? key dict.entries).map f
  induction dict.entries with
  | nil => rfl
  | cons entry rest ih =>
    rw [List.map_cons, Assoc.get?_cons, Assoc.get?_cons]
    by_cases same : entry.1 = key
    · rw [if_pos same, if_pos same, Option.map_some]
    · rw [if_neg same, if_neg same, ih]

theorem get?_mapValues (dict : Dict κ α) (f : κ → α → α) (key : κ) :
    (dict.mapValues f).get? key = (dict.get? key).map (f key) := by
  show Assoc.get? key (dict.entries.map fun entry => (entry.1, f entry.1 entry.2)) =
    (Assoc.get? key dict.entries).map (f key)
  induction dict.entries with
  | nil => rfl
  | cons entry rest ih =>
    rw [List.map_cons, Assoc.get?_cons, Assoc.get?_cons]
    by_cases same : entry.1 = key
    · rw [if_pos same, if_pos same, Option.map_some, same]
    · rw [if_neg same, if_neg same, ih]

/-- A map that changes no value present leaves the dictionary as it is. -/
theorem mapValues_eq_self {dict : Dict κ α} {f : κ → α → α}
    (same : ∀ key value, dict.get? key = some value → f key value = value) :
    dict.mapValues f = dict := by
  have entries : dict.entries.map (fun entry => (entry.1, f entry.1 entry.2)) = dict.entries := by
    conv_rhs => rw [← List.map_id dict.entries]
    refine List.map_congr_left fun entry member => ?_
    rw [same entry.1 entry.2 (dict.mem_entries_iff.mp member)]
    rfl
  cases dict
  simpa only [mapValues, mk.injEq] using entries

theorem get?_erase (dict : Dict κ α) (key other : κ) :
    (dict.erase key).get? other = if other = key then none else dict.get? other := by
  show Assoc.get? other (dict.entries.filter fun entry => entry.1 ≠ key) = _
  unfold get?
  induction dict.entries with
  | nil => simp
  | cons entry rest ih =>
    by_cases removed : entry.1 = key
    · rw [List.filter_cons_of_neg (by simpa using removed), ih, Assoc.get?_cons]
      by_cases same : other = key
      · rw [if_pos same, if_pos same]
      · rw [if_neg same, if_neg same, if_neg fun hit => same (hit.symm.trans removed)]
    · rw [List.filter_cons_of_pos (by simpa using removed), Assoc.get?_cons, ih, Assoc.get?_cons]
      by_cases hit : entry.1 = other
      · rw [if_pos hit, if_pos hit, if_neg fun same => removed (hit.trans same)]
      · rw [if_neg hit, if_neg hit]

end Dict

end ClaudeProxy
