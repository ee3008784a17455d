/-
**Reading a text that arrives in chunks.**

A reader takes one item off the front of what it has, or needs more: `step` returns the item and the
text behind it. `drain` takes items as long as there are any; what is left waits for the next chunk.

* `Stable`, `Shrinks` — an item that is complete stays what it is when more text arrives, and leaves
  less behind;
* **`drain_append`**, `step_drain` — so the items do not depend on how the text was cut into chunks;
* `cut` — the reader of frames that end with a separator; **`drain_frames`** — frames in which it
  does not occur early are read back.
-/

import Mathlib.Data.List.Infix

namespace ClaudeProxy

namespace Framing

/-! ### Readers -/

section Reader

variable {α β : Type} (step : List α → Option (β × List α))

/-- An item that is complete stays what it is. -/
def Stable : Prop :=
  ∀ {text item rest} (more : List α), step text = some (item, rest) →
    step (text ++ more) = some (item, rest ++ more)

/-- Less is left behind an item. -/
def Shrinks : Prop :=
  ∀ {text item rest}, step text = some (item, rest) → rest.length < text.length

/-- At most `fuel` items. -/
def drainFrom : (fuel : Nat) → List α → List β × List α
  | 0, text => ([], text)
  | fuel + 1, text =>
    match step text with
    | none => ([], text)
    | some (item, rest) => (item :: (drainFrom fuel rest).1, (drainFrom fuel rest).2)

/-- The items of the text, and what is left. -/
def drain (text : List α) : List β × List α := drainFrom step text.length text

variable {step}

/-- Fuel for the whole text is enough. -/
theorem drainFrom_eq (shrinks : Shrinks step) {text : List α} {fuel fuel' : Nat}
    (enough : text.length ≤ fuel) (enough' : text.length ≤ fuel') :
    drainFrom step fuel text = drainFrom step fuel' text := by
  induction fuel generalizing text fuel' with
  | zero =>
    have empty : text = [] := List.length_eq_zero_iff.mp (Nat.le_zero.mp enough)
    cases fuel' with
    | zero => rfl
    | succ fuel' =>
      have ends : step text = none := by
        cases read : step text with
        | none => rfl
        | some pair => exact absurd (shrinks read) (by simp [empty])
      simp only [drainFrom, ends]
  | succ fuel ih =>
    cases read : step text with
    | none => cases fuel' <;> simp only [drainFrom, read]
    | some pair =>
      obtain ⟨item, rest⟩ := pair
      have less := shrinks read
      obtain ⟨fuel', rfl⟩ : ∃ size, fuel' = size + 1 := ⟨fuel' - 1, by omega⟩
      have same : drainFrom step fuel rest = drainFrom step fuel' rest := ih (by omega) (by omega)
      simp only [drainFrom, read, same]

theorem drain_of_none {text : List α} (ends : step text = none) : drain step text = ([], text) := by
  unfold drain
  cases text.length with
  | zero => rfl
  | succ fuel => simp only [drainFrom, ends]

theorem drain_of_some (shrinks : Shrinks step) {text rest : List α} {item : β}
    (read : step text = some (item, rest)) :
    drain step text = (item :: (drain step rest).1, (drain step rest).2) := by
  have less := shrinks read
  obtain ⟨size, isSize⟩ : ∃ size, text.length = size + 1 := ⟨text.length - 1, by omega⟩
  have same : drainFrom step size rest = drain step rest := drainFrom_eq shrinks (by omega) le_rfl
  rw [drain, isSize]
  simp only [drainFrom, read, same]

/-- **More text** is read behind what the first one left. -/
theorem drain_append (shrinks : Shrinks step) (stable : Stable step) (text more : List α) :
    drain step (text ++ more) =
      ((drain step text).1 ++ (drain step ((drain step text).2 ++ more)).1,
        (drain step ((drain step text).2 ++ more)).2) := by
  induction size : text.length using Nat.strongRecOn generalizing text with
  | _ _ ih =>
    cases read : step text with
    | none => simp [drain_of_none read]
    | some pair =>
      obtain ⟨item, rest⟩ := pair
      have less := shrinks read
      have inner := ih rest.length (by omega) rest rfl
      simp [drain_of_some shrinks read, drain_of_some shrinks (stable more read), inner]

/-- Nothing more can be read of what is left. -/
theorem step_drain (shrinks : Shrinks step) (text : List α) : step (drain step text).2 = none := by
  induction size : text.length using Nat.strongRecOn generalizing text with
  | _ _ ih =>
    cases read : step text with
    | none => rw [drain_of_none read, read]
    | some pair =>
      obtain ⟨item, rest⟩ := pair
      have less := shrinks read
      rw [drain_of_some shrinks read]
      exact ih rest.length (by omega) rest rfl

end Reader

/-! ### Separators -/

section Cut

variable {α : Type} [DecidableEq α]

/-- The text before the first separator, and the text behind it. -/
def cut (separator : List α) : List α → Option (List α × List α)
  | [] => none
  | item :: rest =>
    if separator <+: item :: rest then some ([], (item :: rest).drop separator.length)
    else (cut separator rest).map fun parts => (item :: parts.1, parts.2)

variable {separator : List α}

/-- The parts are what was cut. -/
theorem eq_of_cut {text frame rest : List α} (isCut : cut separator text = some (frame, rest)) :
    text = frame ++ separator ++ rest := by
  induction text generalizing frame with
  | nil => cases isCut
  | cons item text ih =>
    rw [cut] at isCut
    split_ifs at isCut with here
    · cases isCut
      obtain ⟨behind, same⟩ := here
      rw [← same, List.drop_left, List.nil_append]
    · obtain ⟨⟨before, behind⟩, later, same⟩ := Option.map_eq_some_iff.mp isCut
      cases same
      rw [ih later]
      simp

theorem cut_shrinks (nonempty : separator ≠ []) : Shrinks (cut separator) := by
  intro text frame rest isCut
  have positive := List.length_pos_iff.mpr nonempty
  rw [eq_of_cut isCut]
  simp only [List.length_append]
  omega

theorem cut_stable : Stable (cut separator) := by
  intro text frame rest more isCut
  induction text generalizing frame with
  | nil => cases isCut
  | cons item text ih =>
    rw [cut] at isCut
    rw [List.cons_append, cut]
    split_ifs at isCut with here
    · cases isCut
      obtain ⟨behind, same⟩ := here
      have still : separator <+: item :: (text ++ more) := ⟨behind ++ more, by
        rw [← List.append_assoc, same, List.cons_append]⟩
      rw [if_pos still, ← List.cons_append, ← same, List.append_assoc, List.drop_left,
        List.drop_left]
    · obtain ⟨⟨before, behind⟩, later, same⟩ := Option.map_eq_some_iff.mp isCut
      cases same
      have fits : separator.length ≤ (item :: text).length := by
        rw [eq_of_cut later]
        simp only [List.length_cons, List.length_append]
        omega
      have apart : ¬ separator <+: item :: (text ++ more) := fun early =>
        here (List.prefix_of_prefix_length_le early ⟨more, List.cons_append⟩ fits)
      rw [if_neg apart, ih later]
      rfl

/-- Text without the separator's first item is passed over. -/
theorem cut_append_of_notMem {first : α} {others before : List α} (absent : first ∉ before)
    (text : List α) :
    cut (first :: others) (before ++ text) =
      (cut (first :: others) text).map fun parts => (before ++ parts.1, parts.2) := by
  induction before with
  | nil => simp
  | cons item before ih =>
    rw [List.mem_cons, not_or] at absent
    have apart : ¬ (first :: others) <+: item :: (before ++ text) := fun early =>
      absent.1 (List.cons_prefix_cons.mp early).1
    rw [List.cons_append, cut, if_neg apart, ih absent.2, Option.map_map]
    rfl

/-- At the separator. -/
theorem cut_separator {first : α} {others : List α} (rest : List α) :
    cut (first :: others) (first :: others ++ rest) = some ([], rest) := by
  have here : (first :: others) <+: first :: (others ++ rest) := ⟨rest, rfl⟩
  rw [List.cons_append, cut, if_pos here, ← List.cons_append, List.drop_left]

/-- **Frames are read back**, when the separator behind each is the first one. -/
theorem drain_frames (nonempty : separator ≠ []) {frames : List (List α)}
    (fresh : ∀ frame ∈ frames, cut separator (frame ++ separator) = some (frame, [])) :
    drain (cut separator) (frames.flatMap fun frame => frame ++ separator) = (frames, []) := by
  induction frames with
  | nil => rfl
  | cons frame frames ih =>
    have read := cut_stable (frames.flatMap fun frame => frame ++ separator)
      (fresh frame List.mem_cons_self)
    rw [List.nil_append] at read
    rw [List.flatMap_cons, drain_of_some (cut_shrinks nonempty) read,
      ih fun other inside => fresh other (List.mem_cons_of_mem _ inside)]

end Cut

end Framing

end ClaudeProxy
