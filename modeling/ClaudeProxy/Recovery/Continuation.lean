/-
**What `continuation_suffix` removes** (`core/anthropic/stream_recovery.py`).

* `dropOverlap_some`, `dropOverlap_none` — the search from the longest possible overlap downwards.
* **`continuationSuffix_shortest`** — what is returned is the shortest continuation that ends with the
  candidate; a candidate is refused when nothing overlaps and it is long.
-/

import ClaudeProxy.Library.Overlap
import ClaudeProxy.Recovery.StreamRecovery

namespace ClaudeProxy

variable {existing candidate : String} {size : Nat}

theorem endsWith_take_iff : Py.endsWith existing (Py.take candidate size) = true ↔
    candidate.toList.take size <:+ existing.toList := by
  unfold Py.endsWith Py.take
  rw [decide_eq_true_iff, String.toList_ofList]

/-- **The search finds the longest overlap** of at most `size` characters, -/
theorem dropOverlap_some {suffix : String} (within : size ≤ candidate.toList.length)
    (found : dropOverlap existing candidate size = some suffix) :
    ∃ longest, longest ≠ 0 ∧ Overlaps existing.toList candidate.toList longest ∧
      (∀ other ≤ size, Overlaps existing.toList candidate.toList other → other ≤ longest) ∧
      suffix.toList = candidate.toList.drop longest := by
  induction size with
  | zero => cases found
  | succ size ih =>
    rw [dropOverlap] at found
    split_ifs at found with ends
    · obtain rfl := Option.some.inj found
      refine ⟨size + 1, Nat.succ_ne_zero size, ⟨within, endsWith_take_iff.mp ends⟩,
        fun other most _ => most, ?_⟩
      rw [Py.drop, String.toList_ofList]
    · obtain ⟨longest, some_, overlaps, most, same⟩ := ih (Nat.le_of_succ_le within) found
      refine ⟨longest, some_, overlaps, fun other bound also => ?_, same⟩
      rcases Nat.lt_or_eq_of_le bound with less | rfl
      · exact most other (Nat.le_of_lt_succ less) also
      · exact absurd (endsWith_take_iff.mpr also.ends) ends

/-- or there is none. -/
theorem dropOverlap_none (nowhere : dropOverlap existing candidate size = none) :
    ∀ other ≤ size, Overlaps existing.toList candidate.toList other → other = 0 := by
  induction size with
  | zero => exact fun other bound _ => Nat.le_zero.mp bound
  | succ size ih =>
    rw [dropOverlap] at nowhere
    split_ifs at nowhere with ends
    intro other bound also
    rcases Nat.lt_or_eq_of_le bound with less | rfl
    · exact ih nowhere other (Nat.le_of_lt_succ less) also
    · exact absurd (endsWith_take_iff.mpr also.ends) ends

/-- An overlap is no longer than either of the two. -/
theorem Overlaps.le_min (overlaps : Overlaps existing.toList candidate.toList size) :
    size ≤ min (Py.len existing) (Py.len candidate) := by
  have short := overlaps.ends.length_le
  rw [List.length_take, Nat.min_eq_left overlaps.within] at short
  exact Nat.le_min.mpr ⟨short, overlaps.within⟩

/-- Something of the candidate is at the end already. -/
def IsContinuation (existing candidate : String) : Prop :=
  ∃ head, head ≠ [] ∧ head <+: candidate.toList ∧ head <:+ existing.toList

theorem isContinuation_iff : IsContinuation existing candidate ↔
    ∃ size, size ≠ 0 ∧ Overlaps existing.toList candidate.toList size := by
  constructor
  · rintro ⟨head, some_, begins, ends⟩
    refine ⟨head.length, (List.length_pos_iff.mpr some_).ne', begins.length_le, ?_⟩
    rwa [← List.prefix_iff_eq_take.mp begins]
  · rintro ⟨size, some_, overlaps⟩
    refine ⟨candidate.toList.take size, fun nothing => ?_, List.take_prefix _ _, overlaps.ends⟩
    have length := congrArg List.length nothing
    rw [List.length_take, Nat.min_eq_left overlaps.within] at length
    exact some_ length

/-- **`continuation_suffix`** returns the shortest string behind `existing` such that the candidate is
at the end, and nothing exactly if both are there, no beginning of the candidate ends `existing`, and
the candidate has 200 characters or more and at least half of `existing`'s. -/
theorem continuationSuffix_shortest (existing candidate : String) :
    (∀ suffix, continuationSuffix existing candidate = some suffix →
      ShortestContinuation existing.toList candidate.toList suffix.toList) ∧
    (continuationSuffix existing candidate = none ↔
      existing ≠ "" ∧ candidate ≠ "" ∧ ¬ IsContinuation existing candidate ∧
        max 200 (Py.len existing / 2) ≤ Py.len candidate) := by
  unfold continuationSuffix
  split
  -- nothing to continue with
  · rename_i noCandidate
    refine ⟨fun suffix same => ?_, by simp [noCandidate]⟩
    rw [← Option.some.inj same, noCandidate]
    exact shortest_whole fun size overlaps => Nat.le_zero.mp overlaps.within
  rename_i some_
  split
  -- nothing to continue
  · rename_i noExisting
    refine ⟨fun suffix same => ?_, by simp [noExisting]⟩
    rw [← Option.some.inj same, noExisting]
    exact shortest_whole fun size overlaps =>
      Nat.le_zero.mp (overlaps.le_min.trans (Nat.min_le_left _ _))
  rename_i someExisting
  split
  -- the candidate begins with all there is
  · rename_i begins
    have whole : existing.toList <+: candidate.toList := of_decide_eq_true begins
    have overlaps : Overlaps existing.toList candidate.toList (Py.len existing) :=
      ⟨whole.length_le, by rw [Py.len, ← List.prefix_iff_eq_take.mp whole]⟩
    refine ⟨fun suffix same => ?_, fun none_ => (by cases none_), ?_⟩
    · rw [← Option.some.inj same, Py.drop, String.toList_ofList]
      exact shortest_drop overlaps fun other also => also.le_min.trans (Nat.min_le_left _ _)
    · rintro ⟨-, -, apart, -⟩
      refine absurd (isContinuation_iff.mpr ⟨_, fun nothing => someExisting ?_, overlaps⟩) apart
      exact String.toList_eq_nil_iff.mp (List.length_eq_zero_iff.mp nothing)
  · cases search : dropOverlap existing candidate (min (Py.len existing) (Py.len candidate)) with
    | some rest =>
      obtain ⟨longest, overlap, overlaps, most, isRest⟩ :=
        dropOverlap_some (Nat.min_le_right _ _) search
      refine ⟨fun suffix same => ?_, fun none_ => (by cases none_), ?_⟩
      · obtain rfl := Option.some.inj same
        rw [isRest]
        exact shortest_drop overlaps fun other also => most other also.le_min also
      · rintro ⟨-, -, apart, -⟩
        exact absurd (isContinuation_iff.mpr ⟨longest, overlap, overlaps⟩) apart
    | none =>
      have apart : ∀ size, Overlaps existing.toList candidate.toList size → size = 0 :=
        fun size overlaps => dropOverlap_none search size overlaps.le_min overlaps
      have nothing : ¬ IsContinuation existing candidate := fun continues => by
        obtain ⟨size, overlap, overlaps⟩ := isContinuation_iff.mp continues
        exact overlap (apart size overlaps)
      dsimp only
      split_ifs with short
      · refine ⟨fun suffix same => ?_, fun none_ => (by cases none_), ?_⟩
        · rw [← Option.some.inj same]
          exact shortest_whole apart
        · rintro ⟨-, -, -, long⟩
          exact absurd short (Nat.not_lt.mpr long)
      · exact ⟨fun suffix same => (by cases same),
          fun _ => ⟨someExisting, some_, nothing, Nat.not_lt.mp short⟩, fun _ => rfl⟩

example : continuationSuffix "The cat sat" "cat sat on" = some " on" := by decide +kernel

end ClaudeProxy
