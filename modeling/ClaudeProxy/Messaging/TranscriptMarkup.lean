/-
**The markup of a truncated transcript** (`messaging/transcript.py`, `messaging/rendering`).

* `telegramCtx` — the render context of Telegram; how it renders Markdown is left open.
* `rendered_valid` — every segment but a text renders to valid markup, whatever it holds.
* `CutsTail` — the transcript does not fit, nor does its last segment behind the marker, and there is
  room for more than a few characters.
* **`render_valid_iff`** — the rendered transcript is valid exactly when the status is and no tail is
  cut; `cutError_invalid` — an error message that is too long.
-/

import ClaudeProxy.Messaging.MarkdownV2
import ClaudeProxy.Messaging.Transcript

namespace ClaudeProxy

namespace Transcript

open MarkdownV2

/-! ### Telegram's segments -/

/-- `build_rendering_profile("telegram")`. -/
def telegramCtx (renderMarkdownToMdv2 : String → Option String) : RenderCtx where
  bold := mdv2Bold
  codeInline := mdv2CodeInline
  escapeCode := escapeMdV2Code
  escapeText := escapeMdV2
  renderMarkdown := renderMarkdownToMdv2

variable {renderMarkdownToMdv2 : String → Option String}

/-- A line with a bold label, behind an icon. -/
theorem validMarkup_label {icon : List Char} {lineStart : Bool}
    (read : Reads {} icon ⟨.text, [], lineStart, false⟩) (label : String) :
    ValidMarkup (icon ++ (mdv2Bold label).toList) :=
  ⟨_, read.append (reads_mdv2Bold label lineStart), MarkupState.closed_text false⟩

/-- A line with a bold label and inline code, behind an icon. -/
theorem validMarkup_labelled {icon : List Char} {lineStart : Bool}
    (read : Reads {} icon ⟨.text, [], lineStart, false⟩) (label name : String) :
    ValidMarkup (icon ++ (mdv2Bold label).toList ++ ' ' :: (mdv2CodeInline name).toList) := by
  obtain ⟨last, code, closed⟩ := reads_mdv2CodeInline name false
  have line := read.append (reads_mdv2Bold label lineStart)
  exact ⟨last, line.append (.cons rfl code), closed⟩

theorem reads_indent (count : Nat) : ∃ lineStart,
    Reads {} (Py.join "" (List.replicate count "  ")).toList ⟨.text, [], lineStart, false⟩ := by
  induction count with
  | zero => exact ⟨true, .nil _⟩
  | succ count ih =>
    obtain ⟨lineStart, read⟩ := ih
    rw [List.replicate_succ', Py.join_concat, String.toList_append]
    exact ⟨false, read.append rfl⟩

theorem toolCall_valid (segment : ToolCallSegment) :
    ValidMarkup (segment.render (telegramCtx renderMarkdownToMdv2)).toList := by
  obtain ⟨lineStart, indent⟩ := reads_indent segment.indentLevel
  have icon : Reads {} ((Py.join "" (List.replicate segment.indentLevel "  ")).toList ++ "🛠 ".toList)
      ⟨.text, [], false, false⟩ := indent.append rfl
  have valid := validMarkup_labelled icon "Tool call:" segment.name
  simpa [ToolCallSegment.render, telegramCtx] using valid

/-- A line and a code block. -/
theorem validMarkup_fenced {head : String} (line : ValidMarkup head.toList) (raw : String) :
    ValidMarkup (head ++ "\n```\n" ++ escapeMdV2Code raw ++ "\n```").toList := by
  have split : (head ++ "\n```\n" ++ escapeMdV2Code raw ++ "\n```").toList =
      head.toList ++ '\n' :: ("```\n".toList ++ (escapeMdV2Code raw).toList ++ "\n```".toList) := by
    rw [String.toList_append, String.toList_append, String.toList_append, List.append_assoc,
      List.append_assoc, List.append_assoc]
    rfl
  rw [split]
  exact (validMarkup_line line _).mpr (validMarkup_fence raw)

theorem toolResult_valid (name : Option String) (contentText : String) (isError : Bool) :
    ValidMarkup (ToolResultSegment.render (telegramCtx renderMarkdownToMdv2) name contentText
      isError).toList := by
  have icon : Reads {} "📤 ".toList ⟨.text, [], false, false⟩ := rfl
  have plain (label : String) : ValidMarkup ("📤 " ++ mdv2Bold label ++ "").toList := by
    rw [String.append_empty, String.toList_append]
    exact validMarkup_label icon label
  have named (label name : String) :
      ValidMarkup ("📤 " ++ mdv2Bold label ++ (" " ++ mdv2CodeInline name)).toList := by
    rw [String.toList_append, String.toList_append, String.toList_append]
    exact validMarkup_labelled icon label name
  unfold ToolResultSegment.render
  dsimp only [telegramCtx]
  apply validMarkup_fenced
  cases name with
  | none => exact plain (if isError then "Tool error:" else "Tool result:")
  | some name =>
    dsimp only
    by_cases unnamed : name = ""
    · rw [if_pos unnamed]
      exact plain (if isError then "Tool error:" else "Tool result:")
    · rw [if_neg unnamed]
      exact named (if isError then "Tool error:" else "Tool result:") name

theorem subagent_valid (segment : SubagentSegment) :
    ValidMarkup (segment.render (telegramCtx renderMarkdownToMdv2)).toList := by
  have heading := validMarkup_labelled (rfl : Reads {} "🤖 ".toList ⟨.text, [], false, false⟩) "Subagent:"
    segment.description
  have line := validMarkup_labelled (rfl : Reads {} "  ".toList ⟨.text, [], false, false⟩)
  refine (validMarkup_lines ?_).1
  intro part member
  rw [List.mem_append, List.mem_append, List.mem_singleton] at member
  rcases member with (rfl | tool) | last
  · simpa [telegramCtx] using heading
  · cases current : segment.currentTool with
    | none =>
      rw [current] at tool
      cases tool
    | some call =>
      rw [current] at tool
      obtain rfl := List.mem_singleton.mp (List.mem_filter.mp tool).1
      exact toolCall_valid call
  · simp only [List.mem_cons, List.not_mem_nil, or_false] at last
    rcases last with rfl | rfl
    · simpa [telegramCtx] using line "Tools used:" (toolsSetRaw segment.toolsUsed)
    · simpa [telegramCtx] using line "Tool calls:" (toString segment.toolCalls)

/-- **Every segment but a text renders to valid markup.** -/
theorem rendered_valid {segment : Segment} {out : String}
    (rendered : segment.render (telegramCtx renderMarkdownToMdv2) = some out)
    (noText : ∀ raw, segment ≠ .text raw) : ValidMarkup out.toList := by
  cases segment with
  | text raw => exact absurd rfl (noText raw)
  | thinking raw =>
    obtain rfl := Option.some.inj rendered
    have icon : Reads {} "💭 ".toList ⟨.text, [], false, false⟩ := rfl
    refine validMarkup_fenced ?_ _
    rw [String.toList_append]
    exact validMarkup_label icon "Thinking"
  | toolCall segment =>
    obtain rfl := Option.some.inj rendered
    exact toolCall_valid segment
  | toolResult name contentText isError =>
    obtain rfl := Option.some.inj rendered
    exact toolResult_valid name contentText isError
  | subagent segment =>
    obtain rfl := Option.some.inj rendered
    exact subagent_valid segment
  | error message =>
    obtain rfl := Option.some.inj rendered
    have icon : Reads {} "⚠️ ".toList ⟨.text, [], false, false⟩ := rfl
    simpa [ErrorSegment.render, telegramCtx] using validMarkup_labelled icon "Error:" message

/-! ### The pieces of a transcript -/

/-- Telegram's marker is a line of its own. -/
theorem reads_prefixMarker :
    Reads {} (prefixMarker (telegramCtx renderMarkdownToMdv2)).toList {} := by
  show Reads {} (escapeMdV2 "... (truncated)\n").toList {}
  decide

/-- Nothing is valid behind the marker that begins with a full stop. -/
theorem dots_invalid (more : List Char) : ¬ ValidMarkup ('.' :: more) := by
  rintro ⟨last, read, -⟩
  cases read

/-- Line feeds in front make no difference. -/
theorem validMarkup_dropLines (text : List Char) :
    ValidMarkup (text.dropWhile fun char => decide (char = '\n')) ↔ ValidMarkup text := by
  induction text with
  | nil => rfl
  | cons char rest ih =>
    by_cases line : char = '\n'
    · rw [List.dropWhile_cons_of_pos (by simp [line]), ih, line]
      exact (validMarkup_line validMarkup_nil rest).symm
    · rw [List.dropWhile_cons_of_neg (by simpa using line)]

/-- The status text is valid exactly if the status is. -/
theorem validMarkup_statusText (status : Option String) :
    ValidMarkup (statusText status).toList ↔ ValidMarkup (status.getD "").toList := by
  cases status with
  | none => rfl
  | some status =>
    unfold statusText
    dsimp only
    split_ifs with empty
    · rw [empty]
      rfl
    · rw [String.toList_append]
      show ValidMarkup ('\n' :: '\n' :: status.toList) ↔ _
      rw [← List.nil_append ('\n' :: '\n' :: status.toList), validMarkup_line validMarkup_nil,
        ← List.nil_append ('\n' :: status.toList), validMarkup_line validMarkup_nil]
      rfl

/-- **A whole transcript** of valid segments is valid exactly if its status is. -/
theorem validMarkup_whole {parts : List String} (valid : ∀ part ∈ parts, ValidMarkup part.toList)
    (status : Option String) :
    ValidMarkup (whole (statusText status) parts).toList ↔ ValidMarkup (status.getD "").toList := by
  obtain ⟨body, behind⟩ := validMarkup_lines valid
  unfold whole
  rw [String.toList_append, ← validMarkup_statusText status]
  cases status with
  | none =>
    show ValidMarkup (_ ++ []) ↔ ValidMarkup []
    rw [List.append_nil]
    exact iff_of_true body validMarkup_nil
  | some status =>
    unfold statusText
    dsimp only
    split_ifs with empty
    · show ValidMarkup (_ ++ []) ↔ ValidMarkup []
      rw [List.append_nil]
      exact iff_of_true body validMarkup_nil
    · rw [String.toList_append]
      show ValidMarkup (_ ++ '\n' :: '\n' :: status.toList) ↔ ValidMarkup ('\n' :: '\n' :: status.toList)
      rw [behind, ← List.nil_append ('\n' :: '\n' :: status.toList), validMarkup_line validMarkup_nil]

/-- So is what is kept behind the marker. -/
theorem validMarkup_behindMarker {parts : List String}
    (valid : ∀ part ∈ parts, ValidMarkup part.toList) (status : Option String) :
    ValidMarkup (behindMarker (prefixMarker (telegramCtx renderMarkdownToMdv2)) (statusText status)
      parts).toList ↔ ValidMarkup (status.getD "").toList := by
  rw [← validMarkup_whole valid status, behindMarker, String.append_assoc, String.toList_append]
  exact reads_prefixMarker.validMarkup_append _

/-! ### The cut -/

/-- **The end of the last segment is cut**: the transcript does not fit, nor does its last segment
behind the marker, and there is room for more than 20 characters of it. -/
def CutsTail (limitChars : Int) (marker suffix : String) (parts : List String) : Prop :=
  ∃ last, parts.getLast? = some last ∧ limitChars < Py.len (whole suffix parts) ∧
    limitChars < Py.len (behindMarker marker suffix [last]) ∧
    20 < limitChars - Py.len marker - Py.len suffix

variable {limitChars : Int} {marker suffix : String}

/-- A longer end is no shorter. -/
theorem len_behindMarker_mono {kept : List String} (some_ : kept ≠ []) (front : List String) :
    Py.len (behindMarker marker suffix kept) ≤ Py.len (behindMarker marker suffix (front ++ kept)) := by
  have body : Py.len (Py.join "\n" kept) ≤ Py.len (Py.join "\n" (front ++ kept)) := by
    by_cases none : front = []
    · rw [none, List.nil_append]
    · rw [Py.join, Py.join, String.intercalate_append_of_ne_nil none some_, Py.len_append]
      exact Nat.le_add_left _ _
  unfold behindMarker
  rw [Py.len_append, Py.len_append, Py.len_append, Py.len_append]
  omega

/-- Where the last segment does not fit, no end does. -/
theorem none_fits {parts kept : List String} {last : String} (isLast : parts.getLast? = some last)
    (long : limitChars < Py.len (behindMarker marker suffix [last])) (inside : kept <:+ parts)
    (some_ : kept ≠ []) : limitChars < Py.len (behindMarker marker suffix kept) := by
  obtain ⟨front, rfl⟩ := inside
  rw [List.getLast?_append_of_ne_nil _ some_] at isLast
  obtain ⟨before, rfl⟩ := List.getLast?_eq_some_iff.mp isLast
  have shorter := @len_behindMarker_mono marker suffix [last] (List.cons_ne_nil _ _) before
  omega

theorem len_sliceFrom_neg {count : Int} (some_ : 0 < count) {text : String}
    (long : count ≤ Py.len text) : (Py.len (Py.sliceFrom (-count) text) : Int) = count := by
  unfold Py.sliceFrom
  rw [if_neg (by omega)]
  unfold Py.drop Py.len at *
  rw [String.toList_ofList, List.length_drop]
  omega

/-- **What is left of a segment that does not fit**: its end behind three dots, if there is room. -/
theorem cutTail_eq {last : String} (filled : last ≠ "")
    (long : limitChars < Py.len (behindMarker marker suffix [last])) :
    cutTail limitChars marker suffix last =
      if 20 < limitChars - Py.len marker - Py.len suffix then
        some (marker ++ ("..." ++ Py.sliceFrom
          (-(limitChars - Py.len marker - Py.len suffix - 3)) last) ++ suffix)
      else none := by
  unfold behindMarker at long
  rw [Py.join_singleton, Py.len_append, Py.len_append] at long
  unfold cutTail
  dsimp only
  by_cases enough : 20 < limitChars - Py.len marker - Py.len suffix
  · have more : limitChars - Py.len marker - Py.len suffix < Py.len last := by omega
    have dots : Py.len "..." = 3 := rfl
    have slice := @len_sliceFrom_neg (limitChars - Py.len marker - Py.len suffix - 3) (by omega) last
      (by omega)
    rw [if_pos ⟨filled, enough⟩, if_pos more, if_pos enough, if_pos]
    rw [Py.len_append, Py.len_append, Py.len_append, dots]
    omega
  · rw [if_neg fun both => enough both.2, if_neg enough]

/-- **The validity of a truncated transcript.** With valid segments, the rendered transcript is valid
exactly if the status is valid and the end of no segment is cut. -/
theorem render_valid_iff (segments : List Segment) (limitChars : Int) (status : Option String)
    (valid : ∀ part ∈ renderedSegments (telegramCtx renderMarkdownToMdv2) segments,
      ValidMarkup part.toList) :
    ValidMarkup (render (telegramCtx renderMarkdownToMdv2) segments limitChars status).toList ↔
      ValidMarkup (status.getD "").toList ∧
        ¬ CutsTail limitChars (prefixMarker (telegramCtx renderMarkdownToMdv2)) (statusText status)
          (renderedSegments (telegramCtx renderMarkdownToMdv2) segments) := by
  have filled : ∀ part ∈ renderedSegments (telegramCtx renderMarkdownToMdv2) segments, part ≠ "" :=
    fun part member => of_decide_eq_true (List.mem_filter.mp member).2
  unfold render
  dsimp only
  rw [joinParts_without]
  generalize renderedSegments (telegramCtx renderMarkdownToMdv2) segments = parts at valid filled ⊢
  split_ifs with fits
  · rw [validMarkup_whole valid]
    refine (and_iff_left ?_).symm
    rintro ⟨last, -, long, -⟩
    exact absurd fits (Int.not_le.mpr long)
  · cases found : dropOldest limitChars (prefixMarker (telegramCtx renderMarkdownToMdv2))
        (statusText status) none parts with
    | inl candidate =>
      obtain ⟨kept, best, rfl⟩ := dropOldest_spec filled found
      dsimp only
      rw [validMarkup_behindMarker fun part member => valid part (best.isSuffix.subset member)]
      refine (and_iff_left ?_).symm
      rintro ⟨last, isLast, -, long, -⟩
      exact absurd best.fits (Int.not_le.mpr (none_fits isLast long best.isSuffix best.some_))
    | inr lastPart =>
      obtain ⟨same, none⟩ := dropOldest_none filled found
      rw [Option.or_none] at same
      dsimp only
      cases isLast : parts.getLast? with
      | none =>
        rw [same, isLast]
        refine (and_iff_left ?_).symm
        rintro ⟨last, isLast', -⟩
        rw [isLast] at isLast'
        cases isLast'
      | some last =>
        have member := List.mem_of_getLast? isLast
        have single : [last] <:+ parts := by
          obtain ⟨before, rfl⟩ := List.getLast?_eq_some_iff.mp isLast
          exact List.suffix_append _ _
        have long := none [last] single (List.cons_ne_nil _ _)
        rw [same, isLast, fallback, cutTail_eq (filled last member) long]
        dsimp only
        by_cases enough : 20 < limitChars - Py.len (prefixMarker (telegramCtx renderMarkdownToMdv2)) -
            Py.len (statusText status)
        · rw [if_pos enough]
          refine iff_of_false ?_ fun both => both.2 ⟨last, isLast, Int.not_le.mp fits, long, enough⟩
          dsimp only
          rw [String.append_assoc, String.toList_append, reads_prefixMarker.validMarkup_append,
            String.toList_append, String.toList_append]
          exact dots_invalid _
        · rw [if_neg enough]
          have whole_ : ¬ CutsTail limitChars (prefixMarker (telegramCtx renderMarkdownToMdv2))
              (statusText status) parts := fun cut => enough cut.choose_spec.2.2.2
          refine Iff.trans ?_ (and_iff_left whole_).symm
          dsimp only
          split_ifs
          · rw [String.toList_append, reads_prefixMarker.validMarkup_append, Py.lstripOf,
              String.toList_ofList, validMarkup_dropLines, validMarkup_statusText]
          · rfl

/-- A transcript without texts has valid segments. -/
theorem renderedSegments_valid {segments : List Segment}
    (noText : ∀ segment ∈ segments, ∀ raw, segment ≠ .text raw) :
    ∀ part ∈ renderedSegments (telegramCtx renderMarkdownToMdv2) segments, ValidMarkup part.toList := by
  intro part member
  obtain ⟨segment, inside, rendered⟩ := List.mem_filterMap.mp (List.mem_filter.mp member).1
  exact rendered_valid rendered (noText segment inside)

/-- Two error messages and a status: the older message is left out. -/
theorem shortError_valid :
    let shown := render (telegramCtx some) [.error "connection refused", .error "overloaded"] 60
      (some "Failed")
    shown = "\\.\\.\\. \\(truncated\\)\n⚠️ *Error:* `overloaded`\n\nFailed" ∧ ValidMarkup shown.toList := by
  refine ⟨by decide +kernel, (render_valid_iff [.error "connection refused", .error "overloaded"] 60
    (some "Failed") ?_).mpr ⟨?_, ?_⟩⟩
  · refine renderedSegments_valid fun segment member raw text => ?_
    rw [text] at member
    simp at member
  · exact ⟨⟨.text, [], false, false⟩, rfl, MarkupState.closed_text false⟩
  · rintro ⟨last, isLast, -, long, -⟩
    obtain rfl := Option.some.inj isLast
    exact absurd long (by decide +kernel)

/-- An error message that does not fit into sixty characters behind the marker. -/
def longError : List Segment := [.error "connection to the upstream provider was reset, stop"]

/-- **A message that is cut is no valid markup**: its segment is, but the three dots in front of its
end are not escaped, and its inline code has lost its beginning. -/
theorem cutError_invalid :
    (∀ part ∈ renderedSegments (telegramCtx some) longError, ValidMarkup part.toList) ∧
      ¬ ValidMarkup (render (telegramCtx some) longError 60 none).toList := by
  constructor
  · refine renderedSegments_valid fun segment member raw text => ?_
    rw [List.mem_singleton.mp member] at text
    cases text
  · rintro ⟨last, read, -⟩
    have stuck : markupMachine.run {} (render (telegramCtx some) longError 60 none).toList = none := by
      decide +kernel
    rw [Reads, stuck] at read
    cases read

end Transcript

end ClaudeProxy
