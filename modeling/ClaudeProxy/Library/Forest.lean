/-
**Forests given by lists of children, and their traversal with a stack.**

* `Child`, `Below` — the child relation of `children : α → List α`, and what lies below a node (itself
  included).
* `IsForest` — no node has two parents or occurs twice among the children of one, and a rank below a
  bound grows from parent to child.
* `Visits` — the order in which a stack visits nodes: the top is taken and its children are put in its
  place, the last one on top.
* **`IsForest.visits`**, **`Visits.mem_iff`**, **`IsForest.nodup`** — the traversal of a forest comes to
  an end, visits what lies below the stack, and visits nothing twice.
-/

import Mathlib.Data.List.Nodup
import Mathlib.Data.List.Pairwise
import Mathlib.Logic.Relation

namespace ClaudeProxy

variable {α : Type} (children : α → List α)

/-- A child of a node. -/
def Child (node child : α) : Prop := child ∈ children node

/-- A node, or one of its descendants. -/
def Below : α → α → Prop := Relation.ReflTransGen (Child children)

/-- A forest whose ranks grow from parent to child. -/
structure IsForest (rank : α → Nat) (bound : Nat) : Prop where
  distinct : ∀ node, (children node).Nodup
  unique : ∀ child first second, child ∈ children first → child ∈ children second → first = second
  deeper : ∀ node, ∀ child ∈ children node, rank node < rank child
  bounded : ∀ node, ∀ child ∈ children node, rank child ≤ bound

/-- A stack, its top first, and the nodes visited from it on, in their order. -/
inductive Visits : List α → List α → Prop
  | nil : Visits [] []
  | cons {node : α} {stack visited : List α} :
    Visits ((children node).reverse ++ stack) visited → Visits (node :: stack) (node :: visited)

variable {children}

/-! ### What is visited -/

namespace Visits

/-- One stack on another. -/
theorem append {first second visitedFirst visitedSecond : List α}
    (one : Visits children first visitedFirst) (two : Visits children second visitedSecond) :
    Visits children (first ++ second) (visitedFirst ++ visitedSecond) := by
  induction one with
  | nil => exact two
  | @cons node stack visited _ ih =>
    rw [List.append_assoc] at ih
    exact .cons ih

/-- **What is visited lies below the stack**, and what lies below is visited. -/
theorem mem_iff {stack visited : List α} (visits : Visits children stack visited) (node : α) :
    node ∈ visited ↔ ∃ top ∈ stack, Below children top node := by
  induction visits with
  | nil => simp
  | @cons head stack visited _ ih =>
    have below : Below children head node ↔
        node = head ∨ ∃ child ∈ children head, Below children child node := by
      constructor
      · intro below
        rcases Relation.ReflTransGen.cases_head below with same | ⟨child, isChild, below⟩
        · exact Or.inl same.symm
        · exact Or.inr ⟨child, isChild, below⟩
      · rintro (rfl | ⟨child, isChild, below⟩)
        · exact Relation.ReflTransGen.refl
        · exact Relation.ReflTransGen.head isChild below
    rw [List.mem_cons, ih, List.exists_mem_cons_iff, below, or_assoc]
    apply or_congr_right
    simp only [List.mem_append, List.mem_reverse, or_and_right, exists_or]

end Visits

/-! ### Forests -/

namespace IsForest

variable {rank : α → Nat} {bound : Nat}

/-- **The traversal comes to an end.** -/
theorem visits (forest : IsForest children rank bound) (node : α) :
    ∃ visited, Visits children [node] visited := by
  -- The rank grows towards its bound.
  induction room : bound - rank node using Nat.strongRecOn generalizing node with
  | ind room_ ih =>
    have each : ∀ child ∈ children node, ∃ visited, Visits children [child] visited := by
      intro child isChild
      have deeper := forest.deeper node child isChild
      have bounded := forest.bounded node child isChild
      exact ih (bound - rank child) (by omega) child rfl
    have all : ∀ stack : List α, (∀ child ∈ stack, child ∈ children node) →
        ∃ visited, Visits children stack visited := by
      intro stack
      induction stack with
      | nil => exact fun _ => ⟨[], .nil⟩
      | cons child rest restIh =>
        intro inside
        obtain ⟨here, later⟩ := List.forall_mem_cons.mp inside
        obtain ⟨first, visitsFirst⟩ := each child here
        obtain ⟨second, visitsSecond⟩ := restIh later
        exact ⟨first ++ second, visitsFirst.append visitsSecond⟩
    obtain ⟨visited, visits⟩ := all (children node).reverse fun child => List.mem_reverse.mp
    exact ⟨node :: visited, .cons (by rwa [List.append_nil])⟩

theorem rank_le (forest : IsForest children rank bound) {top node : α}
    (below : Below children top node) : rank top ≤ rank node := by
  induction below with
  | refl => exact Nat.le_refl _
  | tail _ isChild ih => exact Nat.le_trans ih (Nat.le_of_lt (forest.deeper _ _ isChild))

/-- A node is not below its child. -/
theorem not_below (forest : IsForest children rank bound) {node child : α}
    (isChild : child ∈ children node) : ¬ Below children child node := by
  intro below
  have up := forest.rank_le below
  have down := forest.deeper node child isChild
  omega

/-- What lies below a child and above the parent is the child. -/
theorem eq_of_between (forest : IsForest children rank bound) {node first second : α}
    (isFirst : first ∈ children node) (isSecond : second ∈ children node)
    (below : Below children first second) : first = second := by
  rcases Relation.ReflTransGen.cases_tail below with same | ⟨parent, belowParent, isChild⟩
  · exact same.symm
  · obtain rfl := forest.unique second parent node isChild isSecond
    exact absurd belowParent (forest.not_below isFirst)

/-- The ancestors of a node are in a line. -/
theorem linear (forest : IsForest children rank bound) {first second node : α}
    (belowFirst : Below children first node) (belowSecond : Below children second node) :
    Below children first second ∨ Below children second first := by
  induction belowFirst with
  | refl => exact Or.inr belowSecond
  | @tail parent node belowParent isChild ih =>
    rcases Relation.ReflTransGen.cases_tail belowSecond with same | ⟨other, belowOther, isChildOther⟩
    · rw [← same]
      exact Or.inl (Relation.ReflTransGen.tail belowParent isChild)
    · obtain rfl := forest.unique node parent other isChild isChildOther
      exact ih belowOther

/-- Nothing lies below both nodes. -/
def Apart (children : α → List α) (first second : α) : Prop :=
  ∀ node, Below children first node → ¬ Below children second node

theorem siblings_apart (forest : IsForest children rank bound) {node first second : α}
    (isFirst : first ∈ children node) (isSecond : second ∈ children node) (different : first ≠ second) :
    Apart children first second := by
  intro below belowFirst belowSecond
  rcases forest.linear belowFirst belowSecond with down | up
  · exact different (forest.eq_of_between isFirst isSecond down)
  · exact different (forest.eq_of_between isSecond isFirst up).symm

/-- **Nothing is visited twice**, if nothing lies below two nodes of the stack. -/
theorem nodup (forest : IsForest children rank bound) {stack visited : List α}
    (visits : Visits children stack visited) (apart : stack.Pairwise (Apart children)) :
    visited.Nodup := by
  induction visits with
  | nil => exact List.nodup_nil
  | @cons node stack visited visits ih =>
    obtain ⟨first, rest⟩ := List.pairwise_cons.mp apart
    refine List.nodup_cons.mpr ⟨fun again => ?_, ih ?_⟩
    · obtain ⟨top, member, below⟩ := (visits.mem_iff node).mp again
      rcases List.mem_append.mp member with isChild | later
      · exact forest.not_below (List.mem_reverse.mp isChild) below
      · exact first top later node Relation.ReflTransGen.refl below
    · refine List.pairwise_append.mpr ⟨?_, rest, ?_⟩
      · have distinct := List.nodup_reverse.mpr (forest.distinct node)
        refine distinct.imp_of_mem ?_
        intro first second isFirst isSecond different
        exact forest.siblings_apart (List.mem_reverse.mp isFirst) (List.mem_reverse.mp isSecond)
          different
      · intro child isChild other member below belowChild
        apply first other member below
        exact Relation.ReflTransGen.head (List.mem_reverse.mp isChild) belowChild

end IsForest

end ClaudeProxy
