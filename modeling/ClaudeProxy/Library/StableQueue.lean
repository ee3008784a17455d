/-
**Items served by priority, and by age where that is the same.**

* `ServedFirst` — an item of a higher priority, or an older one of the same.
* `Ranks arrivals ranked` — the items that have arrived, in the order in which they are served.
* `Ranks.put` — a new item is inserted behind all that are served before it; `Ranks.take` — the first one
  is taken out.
* **`Ranks.head`** — the first one is the oldest of the highest priority.
-/

import Mathlib.Data.List.Sort

namespace ClaudeProxy

section

variable {α π : Type*} [LinearOrder π] {priority : α → π} {age : α → Nat}
  {arrivals ranked : List α} {new : α}

/-- **Served first.** -/
def ServedFirst (priority : α → π) (age : α → Nat) (first second : α) : Prop :=
  priority second < priority first ∨ priority first = priority second ∧ age first < age second

namespace ServedFirst

theorem le {first second : α} (ahead : ServedFirst priority age first second) :
    priority second ≤ priority first :=
  ahead.elim le_of_lt fun same => same.1.ge

theorem trans_lt {first second : α} (ahead : ServedFirst priority age first second)
    (higher : priority first < priority new) : ServedFirst priority age new second :=
  .inl (ahead.le.trans_lt higher)

end ServedFirst

/-- **The items that have arrived**, in their order, **and in the order in which they are served.** -/
structure Ranks (priority : α → π) (age : α → Nat) (arrivals ranked : List α) : Prop where
  perm : ranked.Perm arrivals
  ordered : ranked.Pairwise (ServedFirst priority age)
  aged : arrivals.Pairwise fun earlier later => age earlier < age later

namespace Ranks

theorem nil : Ranks priority age [] [] := ⟨.nil, .nil, .nil⟩

/-- A list stays in its order when the youngest item is inserted before those of a lower priority. -/
theorem ordered_orderedInsert {r : α → α → Prop} [DecidableRel r]
    (ordered : ranked.Pairwise (ServedFirst priority age))
    (before : ∀ other ∈ ranked, r new other ↔ priority other < priority new)
    (young : ∀ other ∈ ranked, age other < age new) :
    (ranked.orderedInsert r new).Pairwise (ServedFirst priority age) := by
  induction ranked with
  | nil => exact List.pairwise_singleton _ _
  | cons other rest ih =>
    obtain ⟨first, ordered⟩ := List.pairwise_cons.mp ordered
    have isBefore := before other List.mem_cons_self
    rw [List.orderedInsert_cons]
    split_ifs with here
    · have higher := isBefore.mp here
      refine List.pairwise_cons.mpr ⟨?_, List.pairwise_cons.mpr ⟨first, ordered⟩⟩
      intro item member
      rcases List.mem_cons.mp member with rfl | member
      · exact .inl higher
      · exact (first item member).trans_lt higher
    · refine List.pairwise_cons.mpr ⟨?_, ih ordered (fun item member => before item (.tail _ member))
        (fun item member => young item (.tail _ member))⟩
      intro item member
      rcases (List.mem_orderedInsert r).mp member with rfl | member
      · rcases (not_lt.mp fun higher => here (isBefore.mpr higher)).lt_or_eq with lower | same
        · exact .inl lower
        · exact .inr ⟨same.symm, young other List.mem_cons_self⟩
      · exact first item member

/-- **A new item.** -/
theorem put {r : α → α → Prop} [DecidableRel r] (ranks : Ranks priority age arrivals ranked)
    (before : ∀ other ∈ arrivals, r new other ↔ priority other < priority new)
    (young : ∀ other ∈ arrivals, age other < age new) :
    Ranks priority age (arrivals ++ [new]) (ranked.orderedInsert r new) where
  perm := (List.perm_orderedInsert r new ranked).trans
    ((ranks.perm.cons new).trans (List.perm_append_singleton new arrivals).symm)
  ordered := ordered_orderedInsert ranks.ordered
    (fun other member => before other (ranks.perm.mem_iff.mp member))
    (fun other member => young other (ranks.perm.mem_iff.mp member))
  aged := List.pairwise_append.mpr ⟨ranks.aged, List.pairwise_singleton _ _, by
    rintro other member item inside
    rw [List.mem_singleton.mp inside]
    exact young other member⟩

/-- **The item that is served first** is the oldest of the highest priority. -/
theorem head (ranks : Ranks priority age arrivals ranked) :
    ranked.head? = arrivals.find? fun item => arrivals.all fun other => priority other ≤ priority item := by
  cases ranked with
  | nil =>
    rw [ranks.perm.symm.eq_nil]
    rfl
  | cons first rest =>
    have ahead := (List.pairwise_cons.mp ranks.ordered).1
    have inside : first ∈ arrivals := ranks.perm.mem_iff.mp List.mem_cons_self
    have among : ∀ item ∈ arrivals, item = first ∨ ServedFirst priority age first item :=
      fun item member =>
      (List.mem_cons.mp (ranks.perm.mem_iff.mpr member)).imp_right (ahead item)
    obtain ⟨before, after, split⟩ := List.append_of_mem inside
    refine (List.find?_eq_some_iff_append.mpr ⟨?_, before, after, split, ?_⟩).symm
    · refine List.all_eq_true.mpr fun item member => decide_eq_true ?_
      rcases among item member with rfl | behind
      · exact le_rfl
      · exact behind.le
    · intro item member
      rw [Bool.not_eq_true', ← Bool.not_eq_true, List.all_eq_true]
      intro highest
      have high := of_decide_eq_true (highest first inside)
      have older := (List.pairwise_append.mp (split ▸ ranks.aged)).2.2 item member first
        List.mem_cons_self
      rcases among item (split ▸ List.mem_append_left _ member) with rfl | lower | ⟨-, younger⟩
      · exact absurd older (lt_irrefl _)
      · exact absurd high (not_le.mpr lower)
      · exact absurd older younger.not_gt

/-- **It is taken out.** -/
theorem take {first : α} {rest : List α} (ranks : Ranks priority age arrivals (first :: rest)) :
    Ranks priority age (arrivals.filter fun item => age item ≠ age first) rest where
  perm := by
    have apart : ∀ item ∈ rest, age item ≠ age first := by
      intro item member same
      have all : (first :: rest).Pairwise fun one other => age one ≠ age other :=
        (ranks.perm.pairwise_iff fun different same => different same.symm).mpr
          (ranks.aged.imp fun older => older.ne)
      exact (List.pairwise_cons.mp all).1 item member same.symm
    have kept := ranks.perm.filter fun item => decide (age item ≠ age first)
    rw [List.filter_cons_of_neg (by simp), List.filter_eq_self.mpr (by simpa using apart)] at kept
    exact kept
  ordered := (List.pairwise_cons.mp ranks.ordered).2
  aged := ranks.aged.filter _

end Ranks

end

end ClaudeProxy
