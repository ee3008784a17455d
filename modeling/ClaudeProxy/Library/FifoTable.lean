/-
**A table that forgets its oldest entry.**

* `Assoc.enter` — an entry goes into a table of bounded size, in the order of insertion.
* `Assoc.HeldSince` — an entry is in the table, and whatever came in behind it has one of these keys.
* **`HeldSince.enter`** — it stays there until as many other keys as the table has room for have come.
-/

import ClaudeProxy.Library.Dict
import Mathlib.Data.Finset.Card
import Mathlib.Data.Finset.Dedup

namespace ClaudeProxy

namespace Assoc

variable {κ α : Type} [DecidableEq κ]

/-- A new entry; where there are too many, the oldest one goes. -/
def enter (capacity : Nat) (key : κ) (value : α) (entries : List (κ × α)) : List (κ × α) :=
  let entries := set key value entries
  if capacity < entries.length then entries.drop 1 else entries

variable {capacity : Nat} {key other : κ} {value : α} {entries : List (κ × α)} {names : Finset κ}

theorem notMem_of_get?_eq_none (missing : get? key entries = none) : key ∉ entries.map Prod.fst := by
  induction entries with
  | nil => exact List.not_mem_nil
  | cons entry rest ih =>
    rw [get?_cons] at missing
    split_ifs at missing with same
    simp only [List.map_cons, List.mem_cons, not_or]
    exact ⟨Ne.symm same, ih missing⟩

theorem enter_of_notMem (absent : key ∉ entries.map Prod.fst) :
    enter capacity key value entries =
      if capacity < entries.length + 1 then (entries ++ [(key, value)]).drop 1
      else entries ++ [(key, value)] := by
  simp [enter, set_of_notMem absent]

theorem length_enter_le (bounded : entries.length ≤ capacity) (absent : key ∉ entries.map Prod.fst) :
    (enter capacity key value entries).length ≤ capacity := by
  rw [enter_of_notMem absent]
  split_ifs with full <;> simp <;> omega

theorem nodup_enter (distinct : (entries.map Prod.fst).Nodup) (key : κ) (value : α) :
    ((enter capacity key value entries).map Prod.fst).Nodup := by
  have grown := nodup_set distinct key value
  unfold enter
  dsimp only
  split_ifs
  · rw [List.map_drop]
    exact grown.sublist (List.drop_sublist 1 _)
  · exact grown

/-- What is in the table afterwards is the new entry or was there before. -/
theorem mem_enter {entry : κ × α} (member : entry ∈ enter capacity key value entries) :
    entry = (key, value) ∨ entry ∈ entries := by
  have grown : entry ∈ set key value entries := by
    unfold enter at member
    dsimp only at member
    split_ifs at member
    · exact List.mem_of_mem_drop member
    · exact member
  exact mem_set grown

/-! ### An entry is overwritten where it stands -/

theorem set_append_of_mem {front back : List (κ × α)} (present : key ∈ front.map Prod.fst) :
    set key value (front ++ back) = set key value front ++ back := by
  induction front with
  | nil => cases present
  | cons entry front ih =>
    rw [List.cons_append, set, set]
    split_ifs with same
    · rfl
    · rw [ih ((List.mem_cons.mp present).resolve_left (Ne.symm same)), List.cons_append]

theorem set_append_of_notMem {front back : List (κ × α)} (absent : key ∉ front.map Prod.fst) :
    set key value (front ++ back) = front ++ set key value back := by
  induction front with
  | nil => rfl
  | cons entry front ih =>
    rw [List.map_cons, List.mem_cons, not_or] at absent
    rw [List.cons_append, set, if_neg (Ne.symm absent.1), ih absent.2, List.cons_append]

/-- The entry is in the table, and those behind it have other keys, of these names. -/
def HeldSince (key : κ) (value : α) (names : Finset κ) (entries : List (κ × α)) : Prop :=
  ∃ older newer, entries = older ++ (key, value) :: newer ∧ ∀ entry ∈ newer, entry.1 ∈ names.erase key

namespace HeldSince

theorem mem (held : HeldSince key value names entries) : (key, value) ∈ entries := by
  obtain ⟨older, newer, rfl, -⟩ := held
  simp

theorem weaken {more : Finset κ} (held : HeldSince key value names entries) (within : names ⊆ more) :
    HeldSince key value more entries := by
  obtain ⟨older, newer, rfl, behind⟩ := held
  exact ⟨older, newer, rfl, fun entry member => Finset.erase_subset_erase key within (behind entry member)⟩

/-- The entry that has just come. -/
theorem entered (room : 0 < capacity) (absent : key ∉ entries.map Prod.fst) :
    HeldSince key value names (enter capacity key value entries) := by
  rw [enter_of_notMem absent]
  split_ifs with full
  · cases entries with
    | nil => simp at full; omega
    | cons first rest => exact ⟨rest, [], rfl, by simp⟩
  · exact ⟨entries, [], rfl, by simp⟩

/-- **An entry stays** while there is room for all the keys that have come since. -/
theorem enter {value' : α} (held : HeldSince key value names entries)
    (distinct : (entries.map Prod.fst).Nodup) (absent : other ∉ entries.map Prod.fst)
    (room : ((insert other names).erase key).card < capacity) :
    HeldSince key value (insert other names) (enter capacity other value' entries) := by
  have different : other ≠ key := by
    rintro rfl
    exact absent (List.mem_map_of_mem held.mem)
  obtain ⟨older, newer, rfl, behind⟩ := held
  have later : ∀ entry ∈ newer ++ [(other, value')], entry.1 ∈ (insert other names).erase key := by
    intro entry member
    rcases List.mem_append.mp member with member | member
    · exact Finset.erase_subset_erase key (Finset.subset_insert other names) (behind entry member)
    · rw [List.mem_singleton.mp member]
      exact Finset.mem_erase.mpr ⟨different, Finset.mem_insert_self other names⟩
  -- The keys behind the entry are as many distinct names.
  have few : newer.length + 1 ≤ ((insert other names).erase key).card := by
    have nodup : ((newer ++ [(other, value')]).map Prod.fst).Nodup := by
      simp only [List.map_append, List.map_cons, List.nodup_append, List.nodup_cons, List.mem_append,
        not_or] at distinct absent ⊢
      refine ⟨distinct.2.1.2, by simp, ?_⟩
      rintro first inNewer second isOther rfl
      simp only [List.map_nil, List.mem_singleton] at isOther
      exact absent.2 (List.mem_cons_of_mem _ (isOther ▸ inNewer))
    calc newer.length + 1 = ((newer ++ [(other, value')]).map Prod.fst).toFinset.card := by
          rw [List.toFinset_card_of_nodup nodup]
          simp
      _ ≤ _ := by
          apply Finset.card_le_card
          intro name member
          obtain ⟨entry, inside, rfl⟩ := List.mem_map.mp (List.mem_toFinset.mp member)
          exact later entry inside
  rw [enter_of_notMem absent]
  split_ifs with full
  · cases older with
    | nil => simp at full; omega
    | cons first rest => exact ⟨rest, newer ++ [(other, value')], by simp, later⟩
  · exact ⟨older, newer ++ [(other, value')], by simp, later⟩

/-- A new value of the entry itself. -/
theorem overwrite {value' : α} (held : HeldSince key value names entries)
    (distinct : (entries.map Prod.fst).Nodup) :
    HeldSince key value' names (set key value' entries) := by
  obtain ⟨older, newer, rfl, behind⟩ := held
  rw [List.map_append, List.map_cons, List.nodup_append] at distinct
  refine ⟨older, newer, set_append_cons (fun inside => ?_) value value' newer, behind⟩
  exact distinct.2.2 key inside key List.mem_cons_self rfl

/-- A new value of another entry. -/
theorem set_other {value' : α} (held : HeldSince key value names entries) (different : other ≠ key)
    (present : other ∈ entries.map Prod.fst) :
    HeldSince key value names (set other value' entries) := by
  obtain ⟨older, newer, rfl, behind⟩ := held
  by_cases inOlder : other ∈ older.map Prod.fst
  · exact ⟨set other value' older, newer, set_append_of_mem inOlder, behind⟩
  · have inNewer : other ∈ newer.map Prod.fst := by
      rw [List.map_append, List.map_cons, List.mem_append, List.mem_cons] at present
      exact (present.resolve_left inOlder).resolve_left different
    refine ⟨older, set other value' newer, ?_, fun entry member => ?_⟩
    · rw [set_append_of_notMem inOlder, set, if_neg (Ne.symm different)]
    · rcases mem_set member with rfl | before
      · obtain ⟨there, inside, rfl⟩ := List.mem_map.mp inNewer
        exact behind there inside
      · exact behind entry before

end HeldSince

end Assoc

end ClaudeProxy
