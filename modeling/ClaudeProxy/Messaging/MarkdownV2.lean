/-
**Telegram's MarkdownV2** (`messaging/rendering/telegram_markdown.py`).

* `escapeMdV2`, `escapeMdV2Code`, `mdv2Bold`, `mdv2CodeInline` — the escapes and the entities of text.
* `markupMachine` — how a text is read: texts with emphasis, links and quotes, inline code and code
  fences, in each of which a backslash escapes the next character. Two underscores are read as one mark,
  and a quote is marked by the first character of a line only.
* `ValidMarkup` — the text is read to its end, with every fence, code, link and emphasis closed.
* `validMarkup_line` — behind a valid line, a text is valid exactly if it is alone.
-/

import ClaudeProxy.Library.Transition
import ClaudeProxy.Python

namespace ClaudeProxy

namespace MarkdownV2

/-! ### Escapes -/

def mdv2SpecialChars : List Char := "\\_*[]()~`>#+-=|\x7b\x7d.!".toList

/-- `escape_md_v2`. -/
def escapeMdV2 (text : String) : String :=
  String.ofList (text.toList.flatMap fun char =>
    if char ∈ mdv2SpecialChars then ['\\', char] else [char])

/-- `escape_md_v2_code`: the two replacements, of which the second one meets no backslash of its own. -/
def escapeMdV2Code (text : String) : String :=
  Py.replace '`' "\\`" (Py.replace '\\' "\\\\" text)

/-- `mdv2_bold`. -/
def mdv2Bold (text : String) : String := "*" ++ escapeMdV2 text ++ "*"

/-- `mdv2_code_inline`. -/
def mdv2CodeInline (text : String) : String := "`" ++ escapeMdV2Code text ++ "`"

/-! ### How a text is read -/

/-- An entity that is open in a text. -/
inductive Mark where
  | bold
  | italic
  | underline
  | strike
  | link
  deriving DecidableEq

/-- Where the reader is: in a text, behind an underscore, behind one or two backticks, in inline code, in
a fence, behind its backticks, behind the text of a link, in its address; and behind a backslash in each
of these. -/
inductive Place where
  | text
  | textEscaped
  | underscore
  | tick
  | ticks
  | code
  | codeEscaped
  | fence
  | fenceEscaped
  | fenceTick
  | fenceTicks
  | linked
  | address
  | addressEscaped
  deriving DecidableEq

/-- The place, the entities that are open around it, whether a line begins here, and whether it is in a
quote; behind a line feed, whether the quote must go on, for an entity is open in it. -/
structure MarkupState where
  place : Place := .text
  marks : List Mark := []
  lineStart : Bool := true
  quoted : Bool := false
  deriving DecidableEq

namespace MarkupState

/-- A mark opens its entity, or closes it if it is the last one that was opened. -/
def toggle (state : MarkupState) (mark : Mark) : Option MarkupState :=
  if state.marks.head? = some mark then some { state with place := .text, marks := state.marks.tail }
  else if mark ∈ state.marks then none
  else some { state with place := .text, marks := mark :: state.marks }

/-- A character of a line: reserved characters are marks, or escaped. -/
def stepMark (state : MarkupState) (char : Char) : Option MarkupState :=
  match char with
  | '\\' => some { state with place := .textEscaped }
  | '`' => some { state with place := .tick }
  | '_' => some { state with place := .underscore }
  | '*' => state.toggle .bold
  | '~' => state.toggle .strike
  | '[' =>
    if .link ∈ state.marks then none
    else some { state with place := .text, marks := .link :: state.marks }
  | ']' =>
    if state.marks.head? = some .link then
      some { state with place := .linked, marks := state.marks.tail }
    else none
  | '\n' =>
    some { state with
      place := .text
      lineStart := true
      quoted := state.quoted && decide (state.marks ≠ []) }
  | other => if other ∈ mdv2SpecialChars then none else some { state with place := .text }

/-- A character of a text. The first one of a line marks a quote, or else ends it, in which nothing may be
open then. -/
def stepText (state : MarkupState) (char : Char) : Option MarkupState :=
  if char = '>' then
    if state.lineStart = true ∧ (state.marks = [] ∨ state.quoted = true) then
      some { state with place := .text, lineStart := false, quoted := true }
    else none
  else if state.quoted = true ∧ state.lineStart = true ∧ state.marks ≠ [] then none
  else stepMark { state with lineStart := false, quoted := state.quoted && !state.lineStart } char

/-- A character of inline code or of a fence. -/
def stepCode (state : MarkupState) (inside escaped closing : Place) (char : Char) : MarkupState :=
  if char = '`' then { state with place := closing }
  else if char = '\\' then { state with place := escaped }
  else { state with place := inside }

/-- One character. -/
def step (state : MarkupState) (char : Char) : Option MarkupState :=
  match state.place with
  | .text => state.stepText char
  | .textEscaped => some { state with place := .text }
  | .underscore =>
    -- The longer mark comes first: behind an underscore, another one makes an underline of it.
    if char = '_' then state.toggle .underline
    else (state.toggle .italic).bind fun next => next.stepText char
  | .tick => some (state.stepCode .code .codeEscaped .ticks char)
  | .ticks => if char = '`' then some { state with place := .fence } else state.stepText char
  | .code => some (state.stepCode .code .codeEscaped .text char)
  | .codeEscaped => some { state with place := .code }
  | .fence => some (state.stepCode .fence .fenceEscaped .fenceTick char)
  | .fenceEscaped => some { state with place := .fence }
  | .fenceTick => if char = '`' then some { state with place := .fenceTicks } else none
  | .fenceTicks => if char = '`' then some { state with place := .text } else none
  | .linked => if char = '(' then some { state with place := .address } else none
  | .address =>
    if char = ')' then some { state with place := .text }
    else if char = '\\' then some { state with place := .addressEscaped }
    else some state
  | .addressEscaped => some { state with place := .address }

/-- Nothing is open; two backticks are an empty code, and an underscore may close the last entity. -/
def Closed (state : MarkupState) : Prop :=
  (state.place = .text ∨ state.place = .ticks) ∧ state.marks = [] ∨
    state.place = .underscore ∧ state.marks = [.italic]

instance (state : MarkupState) : Decidable state.Closed := inferInstanceAs (Decidable (_ ∨ _))

end MarkupState

def markupMachine : Machine MarkupState Char where
  init state := state = {}
  step := MarkupState.step

/-- Reading the text leads from one state to another. -/
def Reads (state : MarkupState) (text : List Char) (next : MarkupState) : Prop :=
  markupMachine.run state text = some next

instance (state : MarkupState) (text : List Char) (next : MarkupState) :
    Decidable (Reads state text next) :=
  inferInstanceAs (Decidable (_ = _))

/-- **The text is valid markup**: it is read to its end, and nothing is left open. -/
def ValidMarkup (text : List Char) : Prop := ∃ last, Reads {} text last ∧ last.Closed

/-! ### Reading in parts -/

variable {state next last : MarkupState} {text : List Char}

theorem Reads.nil (state : MarkupState) : Reads state [] state := rfl

theorem Reads.append {more : List Char} (first : Reads state text next)
    (second : Reads next more last) : Reads state (text ++ more) last := by
  unfold Reads
  rw [Machine.run_append, first]
  exact second

theorem Reads.cons {char : Char} (here : state.step char = some next) (later : Reads next text last) :
    Reads state (char :: text) last := by
  unfold Reads Machine.run
  rw [List.foldlM_cons]
  show (state.step char >>= _) = _
  rw [here]
  exact later

/-- What follows is read from where the text leads. -/
theorem Reads.run_append (first : Reads state text next) (more : List Char) :
    markupMachine.run state (text ++ more) = markupMachine.run next more := by
  rw [Machine.run_append, first]
  rfl

/-- A text that leads back to the start can be left out. -/
theorem Reads.validMarkup_append (first : Reads {} text {}) (more : List Char) :
    ValidMarkup (text ++ more) ↔ ValidMarkup more := by
  unfold ValidMarkup Reads
  rw [first.run_append]

/-- A line feed behind closed markup leads back to the start. -/
theorem MarkupState.Closed.step (closed : state.Closed) : state.step '\n' = some {} := by
  obtain ⟨place, marks, lineStart, quoted⟩ := state
  have fed (place : Place) : stepText ⟨place, [], lineStart, quoted⟩ '\n' = some {} := by
    cases lineStart <;> cases quoted <;> rfl
  rcases closed with ⟨text | ticks, none⟩ | ⟨underscore, italic⟩
  · simp only at text none
    subst text none
    exact fed .text
  · simp only at ticks none
    subst ticks none
    exact fed .ticks
  · simp only at underscore italic
    subst underscore italic
    exact fed .text

/-- **Behind a valid line a text is valid exactly if it is alone.** -/
theorem validMarkup_line (valid : ValidMarkup text) (more : List Char) :
    ValidMarkup (text ++ '\n' :: more) ↔ ValidMarkup more := by
  obtain ⟨last, read, closed⟩ := valid
  have line : Reads {} (text ++ ['\n']) {} := read.append (.cons closed.step (.nil _))
  rw [← List.singleton_append, ← List.append_assoc]
  exact line.validMarkup_append more

/-- In a line, nothing is open. -/
theorem MarkupState.closed_text (lineStart : Bool) : MarkupState.Closed ⟨.text, [], lineStart, false⟩ :=
  .inl ⟨.inl rfl, rfl⟩

theorem validMarkup_nil : ValidMarkup [] := ⟨{}, rfl, .inl ⟨.inl rfl, rfl⟩⟩

/-! ### Escaped texts -/

/-- A character that is not reserved opens and closes nothing. -/
theorem stepText_plain (place : Place) (marks : List Mark) (lineStart : Bool) {char : Char}
    (plain : char ∉ mdv2SpecialChars) : ∃ lineStart',
      MarkupState.stepText ⟨place, marks, lineStart, false⟩ char = some ⟨.text, marks, lineStart', false⟩ := by
  have noQuote : char ≠ '>' := fun same => plain (by rw [same]; decide)
  unfold MarkupState.stepText
  rw [if_neg noQuote, if_neg (by simp)]
  unfold MarkupState.stepMark
  split
  case h_8 => exact ⟨true, rfl⟩
  case h_9 => exact ⟨false, if_neg plain⟩
  all_goals exact absurd (by decide) plain

/-- **An escaped text is read as it is**, whatever is open around it. -/
theorem reads_escapeMdV2 (text : String) (marks : List Mark) (lineStart : Bool) :
    ∃ lineStart', Reads ⟨.text, marks, lineStart, false⟩ (escapeMdV2 text).toList
      ⟨.text, marks, lineStart', false⟩ := by
  unfold escapeMdV2
  rw [String.toList_ofList]
  generalize text.toList = chars
  induction chars generalizing lineStart with
  | nil => exact ⟨lineStart, .nil _⟩
  | cons char rest ih =>
    rw [List.flatMap_cons]
    split_ifs with special
    · obtain ⟨lineStart', later⟩ := ih false
      exact ⟨lineStart', .cons rfl (.cons rfl later)⟩
    · obtain ⟨middle, here⟩ := stepText_plain .text marks lineStart special
      obtain ⟨lineStart', later⟩ := ih middle
      exact ⟨lineStart', .cons here later⟩

/-- The escape of a character of code. -/
def escapeCodeChar (char : Char) : List Char :=
  if char = '\\' then ['\\', '\\'] else if char = '`' then ['\\', '`'] else [char]

theorem toList_escapeMdV2Code (text : String) :
    (escapeMdV2Code text).toList = text.toList.flatMap escapeCodeChar := by
  unfold escapeMdV2Code Py.replace
  simp only [String.toList_ofList, List.flatMap_assoc]
  congr 1
  funext char
  unfold escapeCodeChar
  split_ifs with backslash backtick
  · rfl
  · rw [backtick]
    rfl
  · rw [List.flatMap_singleton, if_neg backtick]

/-- Escaped code is read without leaving it. -/
theorem reads_escapeCode {state : MarkupState} {inside escaped closing : Place}
    (steps : ∀ char, MarkupState.step { state with place := inside } char =
      some (state.stepCode inside escaped closing char))
    (escapes : ∀ char, MarkupState.step { state with place := escaped } char =
      some { state with place := inside }) (chars : List Char) :
    Reads { state with place := inside } (chars.flatMap escapeCodeChar)
      { state with place := inside } := by
  induction chars with
  | nil => exact .nil _
  | cons char rest ih =>
    rw [List.flatMap_cons, escapeCodeChar]
    split_ifs with backslash backtick
    · exact .cons (steps _) (.cons (escapes _) ih)
    · exact .cons (steps _) (.cons (escapes _) ih)
    · refine .cons (steps char) ?_
      rw [MarkupState.stepCode, if_neg backtick, if_neg backslash]
      exact ih

/-- **Bold text** is read as a whole. -/
theorem reads_mdv2Bold (text : String) (lineStart : Bool) :
    Reads ⟨.text, [], lineStart, false⟩ (mdv2Bold text).toList ⟨.text, [], false, false⟩ := by
  obtain ⟨middle, inner⟩ := reads_escapeMdV2 text [.bold] false
  unfold mdv2Bold
  rw [String.toList_append, String.toList_append]
  exact Reads.append (.append (.cons rfl (.nil _)) inner) (.cons rfl (.nil _))

/-- **Inline code** is read as a whole. -/
theorem reads_mdv2CodeInline (text : String) (lineStart : Bool) :
    ∃ last, Reads ⟨.text, [], lineStart, false⟩ (mdv2CodeInline text).toList last ∧ last.Closed := by
  unfold mdv2CodeInline
  rw [String.toList_append, String.toList_append, toList_escapeMdV2Code]
  cases text.toList with
  | nil => exact ⟨⟨.ticks, [], false, false⟩, .cons rfl (.cons rfl (.nil _)), .inl ⟨.inr rfl, rfl⟩⟩
  | cons char rest =>
    refine ⟨⟨.text, [], false, false⟩, ?_, MarkupState.closed_text false⟩
    have later : Reads ⟨.code, [], false, false⟩ (rest.flatMap escapeCodeChar) ⟨.code, [], false, false⟩ :=
      @reads_escapeCode ⟨.code, [], false, false⟩ .code .codeEscaped .text (fun _ => rfl) (fun _ => rfl) rest
    have first : Reads ⟨.tick, [], false, false⟩ (escapeCodeChar char) ⟨.code, [], false, false⟩ := by
      unfold escapeCodeChar
      split_ifs with backslash backtick
      · exact .cons rfl (.cons rfl (.nil _))
      · exact .cons rfl (.cons rfl (.nil _))
      · refine .cons ?_ (.nil _)
        show some (MarkupState.stepCode _ _ _ _ char) = _
        rw [MarkupState.stepCode, if_neg backtick, if_neg backslash]
    rw [List.flatMap_cons]
    exact Reads.append (.append (.cons rfl (.nil _)) (first.append later)) (.cons rfl (.nil _))

/-- **A code block** is read as a whole. -/
theorem validMarkup_fence (text : String) :
    ValidMarkup ("```\n".toList ++ (escapeMdV2Code text).toList ++ "\n```".toList) := by
  refine ⟨⟨.text, [], false, false⟩, ?_, MarkupState.closed_text false⟩
  have inner : Reads ⟨.fence, [], false, false⟩ (escapeMdV2Code text).toList ⟨.fence, [], false, false⟩ := by
    rw [toList_escapeMdV2Code]
    exact @reads_escapeCode ⟨.fence, [], false, false⟩ .fence .fenceEscaped .fenceTick (fun _ => rfl)
      (fun _ => rfl) text.toList
  have opened : Reads {} "```\n".toList ⟨.fence, [], false, false⟩ := rfl
  have closed : Reads ⟨.fence, [], false, false⟩ "\n```".toList ⟨.text, [], false, false⟩ := rfl
  exact (opened.append inner).append closed

/-- Valid lines make up a valid text, behind which every text is valid that is valid alone. -/
theorem validMarkup_lines {parts : List String} (valid : ∀ part ∈ parts, ValidMarkup part.toList) :
    ValidMarkup (Py.join "\n" parts).toList ∧ ∀ more,
      ValidMarkup ((Py.join "\n" parts).toList ++ '\n' :: more) ↔ ValidMarkup more := by
  have whole : ValidMarkup (Py.join "\n" parts).toList := by
    induction parts with
    | nil => exact validMarkup_nil
    | cons part rest ih =>
      have here := valid part List.mem_cons_self
      cases rest with
      | nil =>
        rw [Py.join_singleton]
        exact here
      | cons next rest =>
        have later := ih fun other member => valid other (.tail _ member)
        have split : (Py.join "\n" (part :: next :: rest)).toList =
            part.toList ++ '\n' :: (Py.join "\n" (next :: rest)).toList := by
          rw [Py.join, String.intercalate_cons_cons, String.toList_append, String.toList_append,
            List.append_assoc]
          rfl
        rw [split]
        exact (validMarkup_line here _).mpr later
  exact ⟨whole, validMarkup_line whole⟩

end MarkdownV2

end ClaudeProxy
