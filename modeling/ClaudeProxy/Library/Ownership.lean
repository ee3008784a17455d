/-
**Blocks with owners, numbered upwards.**

A writer has at most one open block for each owner and gives every new block the next number. A
reader is `InStep` with it when the blocks it has open are those of the owners: every block that the
writer starts is then fresh for the reader, and every owner's block can be extended and stopped.

* `InStep.start`, `InStep.stop`, `InStep.skip` — one block, started, stopped, or written as a whole;
* `Ascends` — the numbers of the started blocks increase, within the range the writer has used.
-/

import ClaudeProxy.Library.Nesting
import Mathlib.Data.List.Nodup
import Mathlib.Logic.Function.Basic
import Mathlib.Order.Lattice

namespace ClaudeProxy

/-- The open block of each owner, and the next number. -/
structure BlockWriter (ω : Type) where
  block : ω → Option Int
  next : Int

namespace BlockWriter

variable {ω : Type}

/-- A number is used up. -/
def skip (writer : BlockWriter ω) : BlockWriter ω := ⟨writer.block, writer.next + 1⟩

variable [DecidableEq ω]

/-- A block of that owner is started. -/
def start (writer : BlockWriter ω) (owner : ω) : BlockWriter ω :=
  ⟨Function.update writer.block owner (some writer.next), writer.next + 1⟩

/-- The block of that owner is stopped. -/
def stop (writer : BlockWriter ω) (owner : ω) : BlockWriter ω :=
  ⟨Function.update writer.block owner none, writer.next⟩

end BlockWriter

/-- The reader's open blocks are those of the owners, and it has seen no number from `next` on. -/
structure InStep {ω : Type} (nest : Nest Int) (writer : BlockWriter ω) : Prop where
  opened : ∀ index, index ∈ nest.opened ↔ ∃ owner, writer.block owner = some index
  below : ∀ index ∈ nest.seen, index < writer.next
  apart : ∀ first second index, writer.block first = some index →
    writer.block second = some index → first = second

namespace InStep

variable {ω : Type} {nest : Nest Int} {writer : BlockWriter ω} {owner : ω} {index : Int}

theorem fresh (inStep : InStep nest writer) : writer.next ∉ nest.seen :=
  fun seen => lt_irrefl _ (inStep.below _ seen)

theorem isOpen (inStep : InStep nest writer) (here : writer.block owner = some index) :
    index ∈ nest.opened :=
  (inStep.opened index).mpr ⟨owner, here⟩

/-- A block in use is below the next number. -/
theorem block_lt (inStep : InStep nest writer) (here : writer.block owner = some index) :
    index < writer.next :=
  inStep.below index (nest.within (inStep.isOpen here))

/-- **A whole block** leaves the owners alone. -/
theorem skip (inStep : InStep nest writer) :
    InStep ((nest.start writer.next).stop writer.next) writer.skip := by
  refine ⟨?_, ?_, inStep.apart⟩
  · intro index
    rw [Nest.opened_stop, Nest.opened_start,
      Finset.erase_insert fun member => inStep.fresh (nest.within member)]
    exact inStep.opened index
  · intro index seen
    rw [Nest.seen_stop, Nest.seen_start, Finset.mem_insert] at seen
    show index < writer.next + 1
    rcases seen with rfl | seen
    · omega
    · have below := inStep.below index seen
      omega

/-- The blocks of a list of owners are distinct. -/
theorem nodup_blocks (inStep : InStep nest writer) {owners : List ω} (distinct : owners.Nodup) :
    (owners.filterMap writer.block).Nodup :=
  distinct.filterMap fun first second index here there => inStep.apart first second index here there

variable [DecidableEq ω]

/-- **A new block**, for an owner without one. -/
theorem start (inStep : InStep nest writer) (closed : writer.block owner = none) :
    InStep (nest.start writer.next) (writer.start owner) := by
  refine ⟨?_, ?_, ?_⟩
  · intro index
    rw [Nest.opened_start, Finset.mem_insert, inStep.opened]
    constructor
    · rintro (rfl | ⟨other, there⟩)
      · exact ⟨owner, Function.update_self _ _ _⟩
      · refine ⟨other, (Function.update_of_ne ?_ _ _).trans there⟩
        rintro rfl
        cases closed.symm.trans there
    · rintro ⟨other, there⟩
      by_cases same : other = owner
      · subst same
        have new : (writer.start other).block other = some writer.next := Function.update_self _ _ _
        exact .inl (Option.some.inj (there.symm.trans new))
      · exact .inr ⟨other, (Function.update_of_ne same _ _).symm.trans there⟩
  · intro index seen
    rw [Nest.seen_start, Finset.mem_insert] at seen
    show index < writer.next + 1
    rcases seen with rfl | seen
    · omega
    · have below := inStep.below index seen
      omega
  · intro first second index here there
    have old : ∀ other, other ≠ owner → (writer.start owner).block other = some index →
        writer.block other = some index :=
      fun other away known => (Function.update_of_ne away _ _).symm.trans known
    have new : (writer.start owner).block owner = some writer.next := Function.update_self _ _ _
    by_cases firstHere : first = owner <;> by_cases secondHere : second = owner
    · rw [firstHere, secondHere]
    · rw [firstHere, new] at here
      have below := inStep.block_lt (old second secondHere there)
      rw [← Option.some.inj here] at below
      exact absurd below (lt_irrefl _)
    · rw [secondHere, new] at there
      have below := inStep.block_lt (old first firstHere here)
      rw [← Option.some.inj there] at below
      exact absurd below (lt_irrefl _)
    · exact inStep.apart _ _ _ (old first firstHere here) (old second secondHere there)

/-- **The end of an owner's block.** -/
theorem stop (inStep : InStep nest writer) (here : writer.block owner = some index) :
    InStep (nest.stop index) (writer.stop owner) := by
  have old : ∀ other index, (writer.stop owner).block other = some index →
      other ≠ owner ∧ writer.block other = some index := by
    intro other index known
    have away : other ≠ owner := by
      rintro rfl
      cases (Function.update_self _ _ _).symm.trans known
    exact ⟨away, (Function.update_of_ne away _ _).symm.trans known⟩
  refine ⟨?_, inStep.below, ?_⟩
  · intro other
    rw [Nest.opened_stop, Finset.mem_erase, inStep.opened]
    constructor
    · rintro ⟨different, someone, there⟩
      refine ⟨someone, (Function.update_of_ne ?_ _ _).trans there⟩
      rintro rfl
      exact different (Option.some.inj (there.symm.trans here))
    · rintro ⟨someone, there⟩
      obtain ⟨away, known⟩ := old _ _ there
      refine ⟨?_, someone, known⟩
      rintro rfl
      exact away (inStep.apart _ _ _ known here)
  · intro first second index known known'
    exact inStep.apart _ _ _ (old _ _ known).2 (old _ _ known').2

end InStep

/-! ### Numbers in order -/

/-- Increasing numbers from `low` on and below `high`. -/
structure Ascends (low high : Int) (indexes : List Int) : Prop where
  upward : low ≤ high
  increasing : indexes.Pairwise (· < ·)
  within : ∀ index ∈ indexes, low ≤ index ∧ index < high

namespace Ascends

variable {low middle high : Int} {first second : List Int}

theorem nil (upward : low ≤ high) : Ascends low high [] :=
  ⟨upward, List.Pairwise.nil, fun _ member => (List.not_mem_nil member).elim⟩

theorem singleton (index : Int) : Ascends index (index + 1) [index] := by
  refine ⟨by omega, List.pairwise_singleton _ _, ?_⟩
  intro other member
  rw [List.mem_singleton.mp member]
  omega

theorem append (before : Ascends low middle first) (after : Ascends middle high second) :
    Ascends low high (first ++ second) := by
  refine ⟨before.upward.trans after.upward, ?_, ?_⟩
  · refine List.pairwise_append.mpr ⟨before.increasing, after.increasing, ?_⟩
    intro earlier isFirst later isSecond
    exact lt_of_lt_of_le (before.within earlier isFirst).2 (after.within later isSecond).1
  · intro index member
    have upward := before.upward
    have upward' := after.upward
    rcases List.mem_append.mp member with isFirst | isSecond
    · have within := before.within index isFirst
      omega
    · have within := after.within index isSecond
      omega

end Ascends

end ClaudeProxy
