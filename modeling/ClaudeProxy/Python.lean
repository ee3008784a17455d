/-
**The parts of Python the model leans on.**

Exceptions are values of `PyError` (one constructor for each class the modelled code raises, catches
or tells apart). Strings are Lean strings, read as their list of code points; `startsWith`,
`contains` and `strip` are `str.startswith`, `in` and `str.strip`.
-/

import Mathlib.Data.List.Infix
import Mathlib.Data.List.Induction
import Mathlib.Data.List.TakeWhile

namespace ClaudeProxy

/-- An exception, by class; `message` is its text. -/
inductive PyError where
  | attributeError (message : String)
  | typeError (message : String)
  | valueError (message : String)
  | jsonDecodeError (message : String)
  | recursionError (message : String)
  | openAIConversionError (message : String)
  | other (className : String) (message : String)
  deriving DecidableEq, Repr

namespace Py

/-- `text.startswith(head)`. -/
def startsWith (text head : String) : Bool := decide (head.toList <+: text.toList)

/-- `text.endswith(tail)`. -/
def endsWith (text tail : String) : Bool := decide (tail.toList <:+ text.toList)

/-- `part in text`. -/
def contains (text part : String) : Bool := decide (part.toList <:+: text.toList)

/-- `char.isspace()`. -/
def isSpace (char : Char) : Bool :=
  let code := char.toNat
  (9 ≤ code && code ≤ 13) || (28 ≤ code && code ≤ 32) || code == 0x85 || code == 0xa0 ||
    code == 0x1680 || (0x2000 ≤ code && code ≤ 0x200a) || code == 0x2028 || code == 0x2029 ||
    code == 0x202f || code == 0x205f || code == 0x3000

/-- `text.strip()`. -/
def strip (text : String) : String :=
  String.ofList ((text.toList.dropWhile isSpace).reverse.dropWhile isSpace).reverse

/-- `text.rstrip()`. -/
def rstrip (text : String) : String :=
  String.ofList (text.toList.reverse.dropWhile isSpace).reverse

/-- `text.replace(char, new)`, for a single character. -/
def replace (char : Char) (new text : String) : String :=
  String.ofList (text.toList.flatMap fun other => if other = char then new.toList else [other])

/-- `len(text)`. -/
def len (text : String) : Nat := text.toList.length

/-- `text[:count]`. -/
def take (text : String) (count : Nat) : String := String.ofList (text.toList.take count)

/-- `text[count:]`. -/
def drop (text : String) (count : Nat) : String := String.ofList (text.toList.drop count)

/-- `text.find(part)`. -/
def find? (part : List Char) : List Char → Option Nat
  | [] => if part = [] then some 0 else none
  | char :: rest =>
    if part <+: char :: rest then some 0 else (find? part rest).map (· + 1)

/-- `text.rfind(part)`. -/
def rfind? (part : List Char) : List Char → Option Nat
  | [] => if part = [] then some 0 else none
  | char :: rest =>
    match rfind? part rest with
    | some position => some (position + 1)
    | none => if part <+: char :: rest then some 0 else none

/-- The line boundaries of `str.splitlines`, `"\r\n"` apart. -/
def isLineBreak (char : Char) : Bool :=
  let code := char.toNat
  (10 ≤ code && code ≤ 13) || (28 ≤ code && code ≤ 30) || code == 0x85 || code == 0x2028 ||
    code == 0x2029

/-- The lines of `chars`, the line before it being `line` (reversed). -/
def linesFrom (line : List Char) : List Char → List (List Char)
  | [] => if line = [] then [] else [line.reverse]
  | '\r' :: '\n' :: rest => line.reverse :: linesFrom [] rest
  | char :: rest =>
    if isLineBreak char then line.reverse :: linesFrom [] rest else linesFrom (char :: line) rest

/-- `text.splitlines()`. -/
def splitlines (text : String) : List String := (linesFrom [] text.toList).map String.ofList

/-- `text.lstrip()`. -/
def lstrip (text : String) : String := String.ofList (text.toList.dropWhile isSpace)

/-- `text.rstrip(chars)`. -/
def rstripOf (chars : List Char) (text : String) : String :=
  String.ofList (text.toList.reverse.dropWhile fun char => char ∈ chars).reverse

/-- `text.strip(chars)`. -/
def stripOf (chars : List Char) (text : String) : String :=
  rstripOf chars (String.ofList (text.toList.dropWhile fun char => decide (char ∈ chars)))

/-- `text.split(mark, 1)[1]`, where the mark occurs. -/
def behind (mark : Char) (text : String) : String :=
  String.ofList ((text.toList.dropWhile fun char => char ≠ mark).drop 1)

/-- `separator.join(parts)`. -/
def join (separator : String) (parts : List String) : String := separator.intercalate parts

@[simp] theorem join_nil (separator : String) : join separator [] = "" :=
  String.intercalate_nil

@[simp] theorem join_singleton (separator part : String) : join separator [part] = part :=
  String.intercalate_singleton

/-- Another part, joined by nothing, is appended. -/
theorem join_concat (parts : List String) (part : String) :
    join "" (parts ++ [part]) = join "" parts ++ part := by
  by_cases none : parts = []
  · rw [none, List.nil_append, join_singleton, join_nil, String.empty_append]
  · rw [join, String.intercalate_append_of_ne_nil none (List.cons_ne_nil _ _),
      String.intercalate_singleton, String.append_empty, join]

theorem join_append (first second : List String) :
    join "" (first ++ second) = join "" first ++ join "" second := by
  induction second using List.reverseRecOn with
  | nil => rw [List.append_nil, join_nil, String.append_empty]
  | append_singleton parts part ih =>
    rw [← List.append_assoc, join_concat, ih, join_concat, String.append_assoc]

/-- Joining pieces by nothing, all at once or group by group. -/
theorem join_flatMap {α : Type*} (items : List α) (pieces : α → List String) :
    join "" (items.flatMap pieces) = join "" (items.map fun item => join "" (pieces item)) := by
  induction items with
  | nil => rfl
  | cons item items ih =>
    rw [List.flatMap_cons, List.map_cons, join_append, ih, ← List.singleton_append, join_append,
      join_singleton]

/-- Nothing but white space. -/
theorem strip_eq_empty_iff {text : String} :
    strip text = "" ↔ ∀ char ∈ text.toList, isSpace char = true := by
  unfold strip
  rw [show ("" : String) = String.ofList [] from rfl, String.ofList_inj, List.reverse_eq_nil_iff,
    List.dropWhile_eq_nil_iff]
  constructor
  · intro blank char member
    by_contra visible
    rw [← List.takeWhile_append_dropWhile (p := isSpace) (l := text.toList)] at member
    rcases List.mem_append.mp member with isBefore | isBehind
    · exact visible (List.mem_takeWhile_imp isBefore)
    · exact visible (blank char (List.mem_reverse.mpr isBehind))
  · intro blank char member
    exact blank char ((List.dropWhile_suffix isSpace).subset (List.mem_reverse.mp member))

theorem strip_append_eq_empty_iff {first second : String} :
    strip (first ++ second) = "" ↔ strip first = "" ∧ strip second = "" := by
  rw [strip_eq_empty_iff, strip_eq_empty_iff, strip_eq_empty_iff, String.toList_append,
    List.forall_mem_append]

/-- White space in front is dropped. -/
theorem strip_append_of_blank {first : String} (blank : strip first = "") (second : String) :
    strip (first ++ second) = strip second := by
  unfold strip
  rw [String.toList_append, List.dropWhile_append_of_pos (strip_eq_empty_iff.mp blank)]

theorem len_append (first second : String) : len (first ++ second) = len first + len second := by
  rw [len, String.toList_append, List.length_append, len, len]

/-- A part of the text is left. -/
theorem strip_infix (text : String) : (strip text).toList <:+: text.toList := by
  unfold strip
  rw [String.toList_ofList]
  have inner := List.dropWhile_suffix isSpace (l := (text.toList.dropWhile isSpace).reverse)
  have outer := List.dropWhile_suffix isSpace (l := text.toList)
  have first := (List.reverse_prefix.mpr inner)
  rw [List.reverse_reverse] at first
  exact first.isInfix.trans outer.isInfix

/-! ### Lines -/

theorem linesFrom_cons {char : Char} (plain : isLineBreak char = false) (line rest : List Char) :
    linesFrom line (char :: rest) = linesFrom (char :: line) rest := by
  have different : char ≠ '\r' := by
    rintro rfl
    exact absurd plain (by decide)
  rw [linesFrom]
  · simp [plain]
  · rintro _ rfl
    exact absurd rfl different

/-- A line ends at a line feed. -/
theorem linesFrom_append {line : List Char} (plain : ∀ char ∈ line, isLineBreak char = false)
    (before rest : List Char) :
    linesFrom before (line ++ '\n' :: rest) = (before.reverse ++ line) :: linesFrom [] rest := by
  induction line generalizing before with
  | nil => simp [linesFrom, isLineBreak]
  | cons char line ih =>
    rw [List.cons_append, linesFrom_cons (plain char List.mem_cons_self),
      ih fun other inside => plain other (List.mem_cons_of_mem _ inside)]
    simp

/-- A last line. -/
theorem linesFrom_last {line before : List Char} (plain : ∀ char ∈ line, isLineBreak char = false)
    (some : before ++ line ≠ []) : linesFrom before line = [before.reverse ++ line] := by
  induction line generalizing before with
  | nil =>
    rw [List.append_nil] at some
    simp [linesFrom, some]
  | cons char line ih =>
    rw [linesFrom_cons (plain char List.mem_cons_self),
      ih (fun other inside => plain other (List.mem_cons_of_mem _ inside)) (by simp)]
    simp

/-- Nothing is stripped of a text that begins and ends visibly. -/
theorem strip_of_visible {first last : Char} {inner : List Char} (begins : isSpace first = false)
    (ends : isSpace last = false) :
    strip (String.ofList (first :: (inner ++ [last]))) =
      String.ofList (first :: (inner ++ [last])) := by
  have front : (first :: (inner ++ [last])).dropWhile isSpace = first :: (inner ++ [last]) :=
    List.dropWhile_cons_of_neg (by simp [begins])
  have back : (first :: (inner ++ [last])).reverse.dropWhile isSpace =
      (first :: (inner ++ [last])).reverse := by
    rw [← List.cons_append, List.reverse_append, List.reverse_singleton, List.singleton_append]
    exact List.dropWhile_cons_of_neg (by simp [ends])
  rw [strip, String.toList_ofList, front, back, List.reverse_reverse]

/-- White space behind such a text is stripped. -/
theorem strip_visible_append {first last : Char} {inner blank : List Char}
    (begins : isSpace first = false) (ends : isSpace last = false)
    (spaces : ∀ char ∈ blank, isSpace char = true) :
    strip (String.ofList (first :: (inner ++ last :: blank))) =
      String.ofList (first :: (inner ++ [last])) := by
  have front : (first :: (inner ++ last :: blank)).dropWhile isSpace =
      first :: (inner ++ last :: blank) :=
    List.dropWhile_cons_of_neg (by simp [begins])
  have back : (first :: (inner ++ last :: blank)).reverse.dropWhile isSpace =
      (first :: (inner ++ [last])).reverse := by
    have split : (first :: (inner ++ last :: blank)).reverse =
        blank.reverse ++ last :: (first :: inner).reverse := by simp
    rw [split, List.dropWhile_append_of_pos (by simpa using spaces),
      List.dropWhile_cons_of_neg (by simp [ends])]
    simp
  rw [strip, String.toList_ofList, front, back, List.reverse_reverse]

/-- Lines have no line breaks in them. -/
theorem plain_of_mem_linesFrom {before text line : List Char}
    (plain : ∀ char ∈ before, isLineBreak char = false) (member : line ∈ linesFrom before text) :
    ∀ char ∈ line, isLineBreak char = false := by
  have reversed : ∀ {before : List Char}, (∀ char ∈ before, isLineBreak char = false) →
      ∀ char ∈ before.reverse, isLineBreak char = false := by
    intro before plain char inside
    exact plain char (List.mem_reverse.mp inside)
  induction before, text using linesFrom.induct with
  | case1 =>
    rw [linesFrom, if_pos rfl] at member
    exact absurd member List.not_mem_nil
  | case2 before some =>
    rw [linesFrom, if_neg some] at member
    rw [List.mem_singleton.mp member]
    exact reversed plain
  | case3 before rest ih =>
    rw [linesFrom] at member
    rcases List.mem_cons.mp member with rfl | later
    · exact reversed plain
    · exact ih (by simp) later
  | case4 before char rest notBoth breaks ih =>
    rw [linesFrom, if_pos breaks] at member
    · rcases List.mem_cons.mp member with rfl | later
      · exact reversed plain
      · exact ih (by simp) later
    · exact notBoth
  | case5 before char rest notBoth goesOn ih =>
    rw [linesFrom, if_neg goesOn] at member
    · refine ih (fun other inside => ?_) member
      rcases List.mem_cons.mp inside with rfl | earlier
      · exact (Bool.not_eq_true _).mp goesOn
      · exact plain other earlier
    · exact notBoth

/-- The last line ends where the text ends; there is a line before it when there is a break. -/
theorem linesFrom_snoc {last : Char} (visible : isLineBreak last = false) (before text : List Char) :
    ∃ lines line, linesFrom before (text ++ [last]) = lines ++ [line ++ [last]] ∧
      ((∃ char ∈ text, isLineBreak char = true) → lines ≠ []) := by
  induction before, text using linesFrom.induct with
  | case1 =>
    refine ⟨[], [], ?_, by simp⟩
    rw [List.nil_append, linesFrom_last (by simpa using visible) (by simp)]
    rfl
  | case2 before some =>
    refine ⟨[], before.reverse, ?_, by simp⟩
    rw [List.nil_append, linesFrom_last (by simpa using visible) (by simp)]
    rfl
  | case3 before rest ih =>
    obtain ⟨lines, line, same, -⟩ := ih
    refine ⟨before.reverse :: lines, line, ?_, fun _ => List.cons_ne_nil _ _⟩
    rw [List.cons_append, List.cons_append, linesFrom, same, List.cons_append]
  | case4 before char rest notBoth breaks ih =>
    obtain ⟨lines, line, same, -⟩ := ih
    refine ⟨before.reverse :: lines, line, ?_, fun _ => List.cons_ne_nil _ _⟩
    rw [List.cons_append, linesFrom, if_pos breaks, same, List.cons_append]
    rintro behind rfl isRest
    cases rest with
    | nil =>
      rw [List.nil_append, List.cons.injEq] at isRest
      rw [isRest.1] at visible
      exact absurd visible (by decide)
    | cons second rest =>
      rw [List.cons_append, List.cons.injEq] at isRest
      exact notBoth rest rfl (by rw [isRest.1])
  | case5 before char rest notBoth goesOn ih =>
    obtain ⟨lines, line, same, some⟩ := ih
    have plain := (Bool.not_eq_true _).mp goesOn
    refine ⟨lines, line, ?_, fun breaks => ?_⟩
    · rw [List.cons_append, linesFrom_cons plain, same]
    · obtain ⟨other, inside, isBreak⟩ := breaks
      rcases List.mem_cons.mp inside with rfl | later
      · exact absurd isBreak goesOn
      · exact some ⟨other, later, isBreak⟩

/-- **Joined lines are split again.** -/
theorem splitlines_join {lines : List String}
    (plain : ∀ line ∈ lines, ∀ char ∈ line.toList, isLineBreak char = false)
    (visible : ∀ line ∈ lines, line ≠ "") : splitlines (join "\n" lines) = lines := by
  have last : ∀ line : String, line ≠ "" → (∀ char ∈ line.toList, isLineBreak char = false) →
      linesFrom [] line.toList = [line.toList] := by
    intro line some plain
    refine linesFrom_last plain ?_
    rw [List.nil_append]
    intro empty
    exact some (String.toList_injective empty)
  induction lines with
  | nil => rfl
  | cons line lines ih =>
    have first := plain line List.mem_cons_self
    cases lines with
    | nil =>
      rw [join_singleton, splitlines, last line (visible line List.mem_cons_self) first]
      simp
    | cons next lines =>
      have rest := ih (fun other inside => plain other (List.mem_cons_of_mem _ inside))
        fun other inside => visible other (List.mem_cons_of_mem _ inside)
      have chars : (join "\n" (line :: next :: lines)).toList =
          line.toList ++ '\n' :: (join "\n" (next :: lines)).toList := by
        rw [join, String.intercalate_cons_cons, String.toList_append, String.toList_append,
          List.append_assoc]
        rfl
      rw [splitlines, chars, linesFrom_append first, List.map_cons, ← splitlines, rest]
      simp

/-! ### Finding -/

/-- The first occurrence. -/
theorem find?_eq_some {part text : List Char} {position : Nat}
    (found : find? part text = some position) :
    part <+: text.drop position ∧ ∀ earlier < position, ¬ part <+: text.drop earlier := by
  induction text generalizing position with
  | nil =>
    rw [find?] at found
    split_ifs at found with empty
    cases found
    simp [empty]
  | cons char rest ih =>
    rw [find?] at found
    split_ifs at found with here
    · cases found
      exact ⟨here, fun _ less => absurd less (Nat.not_lt_zero _)⟩
    · obtain ⟨later, isLater, rfl⟩ := Option.map_eq_some_iff.mp found
      obtain ⟨occurs, first⟩ := ih isLater
      refine ⟨occurs, fun earlier less => ?_⟩
      cases earlier with
      | zero => exact here
      | succ earlier => exact first earlier (by omega)

/-- No occurrence. -/
theorem find?_eq_none {part text : List Char} (nowhere : find? part text = none) (position : Nat) :
    ¬ part <+: text.drop position := by
  induction text generalizing position with
  | nil =>
    rw [find?] at nowhere
    split_ifs at nowhere with empty
    simpa using empty
  | cons char rest ih =>
    rw [find?] at nowhere
    split_ifs at nowhere with here
    rw [Option.map_eq_none_iff] at nowhere
    cases position with
    | zero => exact here
    | succ position => exact ih nowhere position

theorem rfind?_eq_none {part text : List Char} (nowhere : rfind? part text = none)
    (position : Nat) (inside : position < text.length) : ¬ part <+: text.drop position := by
  induction text generalizing position with
  | nil => exact absurd inside (Nat.not_lt_zero _)
  | cons char rest ih =>
    rw [rfind?] at nowhere
    cases behind : rfind? part rest with
    | some position' =>
      rw [behind] at nowhere
      cases nowhere
    | none =>
      rw [behind] at nowhere
      dsimp only at nowhere
      split_ifs at nowhere with here
      cases position with
      | zero => exact here
      | succ position => exact ih behind position (by simpa using inside)

/-- The last occurrence. -/
theorem rfind?_eq_some {part text : List Char} {position : Nat}
    (found : rfind? part text = some position) :
    part <+: text.drop position ∧
      ∀ later, position < later → later < text.length → ¬ part <+: text.drop later := by
  induction text generalizing position with
  | nil =>
    rw [rfind?] at found
    split_ifs at found with empty
    cases found
    simp [empty]
  | cons char rest ih =>
    rw [rfind?] at found
    cases behind : rfind? part rest with
    | some position' =>
      rw [behind] at found
      cases found
      obtain ⟨occurs, last⟩ := ih behind
      refine ⟨occurs, fun later less inside => ?_⟩
      cases later with
      | zero => exact absurd less (Nat.not_lt_zero _)
      | succ later => exact last later (by omega) (by simpa using inside)
    | none =>
      rw [behind] at found
      dsimp only at found
      split_ifs at found with here
      cases found
      refine ⟨here, fun later less inside => ?_⟩
      cases later with
      | zero => exact absurd less (Nat.not_lt_zero _)
      | succ later => exact rfind?_eq_none behind later (by simpa using inside)

end Py

end ClaudeProxy
