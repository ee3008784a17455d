/-
**Dictionaries in order of use.**

* `Dict.touch` — a key is given a value and moved to the end.
* `InOrderOfUse` — the entries stand in the order in which their keys were last used. Using a key keeps
  it so (`InOrderOfUse.touch`), and so does removing one (`InOrderOfUse.erase`).
* `Dict.erase_oldest` — the first entry is removed; the others were used more recently
  (`InOrderOfUse.oldest`).
-/

import ClaudeProxy.Library.Dict
import Mathlib.Logic.Function.Basic

namespace ClaudeProxy

variable {κ α : Type} [DecidableEq κ]

namespace Dict

/-- A key is given a value and moved to the end. -/
def touch (dict : Dict κ α) (key : κ) (value : α) : Dict κ α := (dict.erase key).set key value

theorem get?_touch (dict : Dict κ α) (key other : κ) (value : α) :
    (dict.touch key value).get? other = if other = key then some value else dict.get? other := by
  rw [touch, get?_set, get?_erase]
  split_ifs <;> rfl

theorem entries_touch (dict : Dict κ α) (key : κ) (value : α) :
    (dict.touch key value).entries = (dict.erase key).entries ++ [(key, value)] := by
  refine Assoc.set_of_notMem fun member => ?_
  obtain ⟨entry, inside, rfl⟩ := List.mem_map.mp member
  exact absurd rfl (of_decide_eq_true (List.mem_filter.mp inside).2)

/-- A key that is absent. -/
theorem erase_of_none {dict : Dict κ α} {key : κ} (absent : dict.get? key = none) :
    dict.erase key = dict := by
  have entries : (dict.erase key).entries = dict.entries := by
    refine List.filter_eq_self.mpr fun entry member => decide_eq_true ?_
    rintro rfl
    rw [dict.mem_entries_iff.mp member] at absent
    cases absent
  cases dict
  simpa only [erase, mk.injEq] using entries

/-- **The first entry is removed.** -/
theorem erase_oldest {dict : Dict κ α} {oldest : κ × α} {rest : List (κ × α)}
    (entries : dict.entries = oldest :: rest) : (dict.erase oldest.1).entries = rest := by
  have distinct := dict.nodupKeys
  rw [entries, List.map_cons, List.nodup_cons] at distinct
  show dict.entries.filter _ = rest
  rw [entries, List.filter_cons_of_neg (by simp)]
  refine List.filter_eq_self.mpr fun entry member => decide_eq_true ?_
  exact fun same => distinct.1 (same ▸ List.mem_map_of_mem member)

theorem length_erase_le (dict : Dict κ α) (key : κ) :
    (dict.erase key).entries.length ≤ dict.entries.length :=
  List.length_filter_le _ _

/-- A present key makes room for itself. -/
theorem length_erase_lt {dict : Dict κ α} {key : κ} (present : (dict.get? key).isSome) :
    (dict.erase key).entries.length < dict.entries.length := by
  obtain ⟨value, found⟩ := Option.isSome_iff_exists.mp present
  refine List.length_filter_lt_length_iff_exists.mpr ⟨_, dict.mem_entries_iff.mpr found, ?_⟩
  simp

end Dict

/-- **The entries stand in order of their last use**, which is past. -/
structure InOrderOfUse (lastUsed : κ → Nat) (count : Nat) (dict : Dict κ α) : Prop where
  ordered : dict.entries.Pairwise fun first second => lastUsed first.1 < lastUsed second.1
  past : ∀ entry ∈ dict.entries, lastUsed entry.1 < count

namespace InOrderOfUse

variable {lastUsed : κ → Nat} {count : Nat} {dict : Dict κ α}

omit [DecidableEq κ] in
theorem empty : InOrderOfUse lastUsed count (∅ : Dict κ α) :=
  ⟨List.Pairwise.nil, fun _ member => (List.not_mem_nil member).elim⟩

omit [DecidableEq κ] in
theorem later (inOrder : InOrderOfUse lastUsed count dict) : InOrderOfUse lastUsed (count + 1) dict :=
  ⟨inOrder.ordered, fun entry member => Nat.lt_succ_of_lt (inOrder.past entry member)⟩

theorem erase (inOrder : InOrderOfUse lastUsed count dict) (key : κ) :
    InOrderOfUse lastUsed count (dict.erase key) :=
  ⟨inOrder.ordered.sublist List.filter_sublist,
    fun entry member => inOrder.past entry (List.mem_of_mem_filter member)⟩

/-- **A key is used.** -/
theorem touch (inOrder : InOrderOfUse lastUsed count dict) (key : κ) (value : α) :
    InOrderOfUse (Function.update lastUsed key count) (count + 1) (dict.touch key value) := by
  have others : ∀ entry ∈ (dict.erase key).entries,
      Function.update lastUsed key count entry.1 = lastUsed entry.1 := fun entry member =>
    Function.update_of_ne (of_decide_eq_true (List.mem_filter.mp member).2) _ _
  have kept := inOrder.erase key
  constructor
  · rw [Dict.entries_touch]
    refine List.pairwise_append.mpr ⟨?_, List.pairwise_singleton _ _, fun entry member last inside => ?_⟩
    · refine kept.ordered.imp_of_mem fun firstMember secondMember before => ?_
      rw [others _ firstMember, others _ secondMember]
      exact before
    · rw [List.mem_singleton.mp inside, others entry member, Function.update_self]
      exact kept.past entry member
  · rw [Dict.entries_touch]
    intro entry member
    rcases List.mem_append.mp member with inside | last
    · rw [others entry inside]
      exact Nat.lt_succ_of_lt (kept.past entry inside)
    · rw [List.mem_singleton.mp last, Function.update_self]
      exact Nat.lt_succ_self count

/-- **The first entry is the oldest.** -/
theorem oldest (inOrder : InOrderOfUse lastUsed count dict) {oldest : κ × α} {rest : List (κ × α)}
    (entries : dict.entries = oldest :: rest) {key : κ} (present : (dict.get? key).isSome)
    (other : key ≠ oldest.1) : lastUsed oldest.1 < lastUsed key := by
  obtain ⟨value, found⟩ := Option.isSome_iff_exists.mp present
  have member := dict.mem_entries_iff.mpr found
  have ordered := inOrder.ordered
  rw [entries] at member ordered
  rcases List.mem_cons.mp member with rfl | inside
  · exact absurd rfl other
  · exact (List.pairwise_cons.mp ordered).1 _ inside

end InOrderOfUse

end ClaudeProxy
