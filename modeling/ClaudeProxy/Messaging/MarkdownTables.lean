/-
**Tables in Markdown** (`messaging/rendering/markdown_tables.py`).

Markdown reads a table only behind an empty line. `normalize_gfm_tables` puts one in front of every
table that has none, outside of code fences.

* `normalizeLines` — the loop over the lines.
* `SetApart` — every table outside of a fence is first or has a blank line before it.
* `fenced` — the lines inside of fences.
* **`tables_set_apart`** — the result sets its tables apart; it has the same lines that are not blank, in
  order, and the same lines in its fences; the lines it came from are among it.
-/

import ClaudeProxy.Service.ModelRouter

namespace ClaudeProxy

namespace MarkdownTables

/-! ### Lines -/

/-- A cell of a separator: `\s*:?-{3,}:?\s*`. -/
def separatorCell (cell : List Char) : Bool :=
  let cell := (Py.strip (String.ofList cell)).toList
  let cell := if cell.head? = some ':' then cell.tail else cell
  let dashes := cell.takeWhile fun char => decide (char = '-')
  let rest := cell.drop dashes.length
  decide (3 ≤ dashes.length) && (decide (rest = []) || decide (rest = [':']))

/-- `_TABLE_SEP_RE.match`: two cells or more, between pipes, with or without a pipe on either side. -/
def isTableSeparator (line : String) : Bool :=
  let text := (Py.strip line).toList
  let text := if text.head? = some '|' then text.tail else text
  let text := if text.getLast? = some '|' then text.dropLast else text
  let cells := Py.splitAll '|' text
  decide (2 ≤ cells.length) && cells.all separatorCell

/-- `_FENCE_RE.match`. -/
def isFence (line : String) : Bool := Py.startsWith (Py.lstrip line) "```"

/-- `_is_gfm_table_header_line`. -/
def isGfmTableHeaderLine (line : String) : Bool :=
  if '|' ∉ line.toList then false
  else if isTableSeparator line then false
  else
    let parts := (Py.split '|' (Py.stripOf ['|'] (Py.strip line))).map Py.strip
    decide (2 ≤ (parts.filter fun part => decide (part ≠ "")).length)

/-- The white space that a line begins with. -/
def indentOf (line : String) : String := String.ofList (line.toList.takeWhile Py.isSpace)

def isBlank (line : String) : Bool := decide (Py.strip line = "")

/-- The line is the header of a table, by the line behind it. -/
def beginsTable (line : String) (rest : List String) : Bool :=
  isGfmTableHeaderLine line && rest.head?.any isTableSeparator

/-- The loop of `normalize_gfm_tables`. -/
def normalizeLines (outLines : List String) (inFence : Bool) : List String → List String
  | [] => outLines
  | line :: rest =>
    if isFence line then normalizeLines (outLines ++ [line]) (!inFence) rest
    else
      let outLines :=
        if !inFence && beginsTable line rest && outLines.getLast?.any (!isBlank ·) then
          outLines ++ [indentOf line]
        else outLines
      normalizeLines (outLines ++ [line]) inFence rest

/-- `normalize_gfm_tables`. -/
def normalizeGfmTables (text : String) : String :=
  let lines := Py.splitlines text
  if lines.length < 2 then text else Py.join "\n" (normalizeLines [] false lines)

/-! ### What is asked -/

/-- Every table outside of a fence is first or has a blank line before it. -/
def SetApart (before : Option String) (inFence : Bool) : List String → Prop
  | [] => True
  | line :: rest =>
    if isFence line then SetApart (some line) (!inFence) rest
    else (inFence = false → beginsTable line rest = true → before.all isBlank = true) ∧
      SetApart (some line) inFence rest

/-- The lines inside of fences. -/
def fenced (inFence : Bool) : List String → List String
  | [] => []
  | line :: rest =>
    if isFence line then fenced (!inFence) rest
    else if inFence then line :: fenced inFence rest
    else fenced inFence rest

/-! ### The lines that are put in -/

theorem strip_indentOf (line : String) : Py.strip (indentOf line) = "" := by
  rw [Py.strip_eq_empty_iff]
  intro char member
  rw [indentOf, String.toList_ofList] at member
  exact List.mem_takeWhile_imp member

theorem noPipe_of_blank {line : String} (blank : Py.strip line = "") : '|' ∉ line.toList := by
  intro member
  exact absurd (Py.strip_eq_empty_iff.mp blank '|' member) (by decide)

theorem not_header_of_blank {line : String} (blank : Py.strip line = "") (rest : List String) :
    beginsTable line rest = false := by
  simp [beginsTable, isGfmTableHeaderLine, noPipe_of_blank blank]

theorem not_fence_of_blank {line : String} (blank : Py.strip line = "") : isFence line = false := by
  have spaces := Py.strip_eq_empty_iff.mp blank
  have nothing : line.toList.dropWhile Py.isSpace = [] := by
    rw [List.dropWhile_eq_nil_iff]
    exact spaces
  unfold isFence Py.lstrip
  rw [nothing]
  decide

theorem not_separator_of_blank {line : String} (blank : Py.strip line = "") :
    isTableSeparator line = false := by
  unfold isTableSeparator
  rw [blank]
  decide

/-- The lines that the loop gives out behind these. -/
def insertBlanks (before : Option String) (inFence : Bool) : List String → List String
  | [] => []
  | line :: rest =>
    if isFence line then line :: insertBlanks (some line) (!inFence) rest
    else
      (if !inFence && beginsTable line rest && before.any (!isBlank ·) then [indentOf line] else []) ++
        line :: insertBlanks (some line) inFence rest

theorem normalizeLines_eq (lines outLines : List String) (inFence : Bool) :
    normalizeLines outLines inFence lines =
      outLines ++ insertBlanks outLines.getLast? inFence lines := by
  induction lines generalizing outLines inFence with
  | nil => simp [normalizeLines, insertBlanks]
  | cons line rest ih =>
    rw [normalizeLines, insertBlanks]
    split_ifs with fence inserts
    · simp [ih]
    · simp [ih]
    · simp [ih]

/-- A blank line is no separator, so that none becomes the header of a table. -/
theorem beginsTable_insertBlanks {line : String} {before : Option String} {inFence : Bool}
    {rest : List String} (begins : beginsTable line (insertBlanks before inFence rest) = true) :
    beginsTable line rest = true := by
  cases rest with
  | nil => exact begins
  | cons next later =>
    rw [insertBlanks] at begins
    split_ifs at begins with fence inserts
    · exact begins
    · simp [beginsTable, not_separator_of_blank (strip_indentOf next)] at begins
    · exact begins

/-- **Behind the loop, the tables are set apart.** -/
theorem setApart_insertBlanks (lines : List String) (before : Option String) (inFence : Bool) :
    SetApart before inFence (insertBlanks before inFence lines) := by
  induction lines generalizing before inFence with
  | nil => trivial
  | cons line rest ih =>
    rw [insertBlanks]
    by_cases fence : isFence line = true
    · rw [if_pos fence, SetApart, if_pos fence]
      exact ih _ _
    · rw [if_neg fence]
      split_ifs with inserts
      · have blank := strip_indentOf line
        rw [List.singleton_append, SetApart, if_neg (by simp [not_fence_of_blank blank])]
        refine ⟨fun _ begins => ?_, ?_⟩
        · rw [not_header_of_blank blank] at begins
          cases begins
        · rw [SetApart, if_neg fence]
          exact ⟨fun _ _ => by simp [isBlank, blank], ih _ _⟩
      · rw [List.nil_append, SetApart, if_neg fence]
        refine ⟨fun outside begins => ?_, ih _ _⟩
        have table := beginsTable_insertBlanks begins
        cases before with
        | none => rfl
        | some last => simpa [outside, table] using inserts

/-- Where the tables are set apart, nothing is put in. -/
theorem insertBlanks_of_setApart {lines : List String} {before : Option String} {inFence : Bool}
    (apart : SetApart before inFence lines) : insertBlanks before inFence lines = lines := by
  induction lines generalizing before inFence with
  | nil => rfl
  | cons line rest ih =>
    rw [SetApart] at apart
    rw [insertBlanks]
    by_cases fence : isFence line = true
    · rw [if_pos fence] at apart ⊢
      rw [ih apart]
    · rw [if_neg fence] at apart ⊢
      obtain ⟨here, later⟩ := apart
      rw [ih later, if_neg, List.nil_append]
      intro inserts
      simp only [Bool.and_eq_true, Bool.not_eq_true'] at inserts
      have blank := here inserts.1.1 inserts.1.2
      cases before with
      | none => exact absurd inserts.2 (by simp)
      | some last => simp_all

/-- **Nothing else changes**: blank lines apart, and in the fences. -/
theorem insertBlanks_keeps (lines : List String) (before : Option String) (inFence : Bool) :
    lines.Sublist (insertBlanks before inFence lines) ∧
      (insertBlanks before inFence lines).filter (!isBlank ·) = lines.filter (!isBlank ·) ∧
      fenced inFence (insertBlanks before inFence lines) = fenced inFence lines := by
  induction lines generalizing before inFence with
  | nil => exact ⟨.slnil, rfl, rfl⟩
  | cons line rest ih =>
    rw [insertBlanks]
    by_cases fence : isFence line = true
    · obtain ⟨inside, visible, kept⟩ := ih (some line) !inFence
      rw [if_pos fence]
      exact ⟨inside.cons_cons line, by simp [List.filter_cons, visible], by simp [fenced, fence, kept]⟩
    · obtain ⟨inside, visible, kept⟩ := ih (some line) inFence
      rw [if_neg fence]
      split_ifs with inserts
      · have blank := strip_indentOf line
        have outside : inFence = false := by
          simp only [Bool.and_eq_true, Bool.not_eq_true'] at inserts
          exact inserts.1.1
        refine ⟨(inside.cons_cons line).cons _, ?_, ?_⟩
        · have dropped : isBlank (indentOf line) = true := decide_eq_true blank
          simp [List.filter_cons, dropped, visible]
        · subst outside
          simp [fenced, fence, not_fence_of_blank blank, kept]
      · refine ⟨inside.cons_cons line, ?_, ?_⟩
        · simp [List.filter_cons, visible]
        · cases inFence <;> simp [fenced, fence, kept]

/-- **Tables are set apart.** A text of one line stays as it is. Of a longer one, the lines come out in
order, with blank lines put in: every table outside of a fence then has one before it, the fences are
as they were, and a second pass would put in no more. -/
theorem tables_set_apart (text : String) :
    let lines := Py.splitlines text
    (lines.length < 2 → normalizeGfmTables text = text) ∧
    (2 ≤ lines.length → ∃ normalized, normalizeGfmTables text = Py.join "\n" normalized ∧
      SetApart none false normalized ∧ lines.Sublist normalized ∧
      normalized.filter (!isBlank ·) = lines.filter (!isBlank ·) ∧
      fenced false normalized = fenced false lines ∧
      normalizeLines [] false normalized = normalized) := by
  intro lines
  refine ⟨fun short => if_pos short, fun long => ⟨insertBlanks none false lines, ?_, ?_⟩⟩
  · have longer : ¬ (Py.splitlines text).length < 2 := Nat.not_lt.mpr long
    rw [normalizeGfmTables, if_neg longer, normalizeLines_eq]
    rfl
  · have apart := setApart_insertBlanks lines none false
    obtain ⟨inside, visible, kept⟩ := insertBlanks_keeps lines none false
    refine ⟨apart, inside, visible, kept, ?_⟩
    rw [normalizeLines_eq]
    exact insertBlanks_of_setApart apart

/-- A table right behind a paragraph, and one inside of a fence. -/
example : normalizeLines [] false
    ["Prices", "| a | b |", "|---|---|", "```", "x", "| a | b |", "|---|---|", "```"] =
      ["Prices", "", "| a | b |", "|---|---|", "```", "x", "| a | b |", "|---|---|", "```"] := by
  decide +kernel

end MarkdownTables

end ClaudeProxy
