/-
**The transcript of a chat** (`messaging/transcript.py`).

* `Segment` — what the user is shown: thinking, text, tool calls, tool results, subagents and errors,
  each rendered by the functions of a `RenderCtx`.
* `render` — the whole transcript, or its newest segments behind a marker, or the end of the last
  segment, or the status alone.
* `dropOldest_spec` — the loop stops at the longest end of the transcript that fits.
* **`render_fits`** — the rendered transcript is no longer than the limit and ends with the status; it
  is the whole one if that fits, and otherwise the longest end that fits behind the marker.
-/

import ClaudeProxy.Python

namespace ClaudeProxy

/-- `text.lstrip(char)`, for a single character. -/
def Py.lstripOf (char : Char) (text : String) : String :=
  String.ofList (text.toList.dropWhile fun other => decide (other = char))

/-- `text[start:]`: a negative start counts from the end. -/
def Py.sliceFrom (start : Int) (text : String) : String :=
  if 0 ≤ start then Py.drop text start.toNat
  else Py.drop text (Py.len text - (-start).toNat)

namespace Transcript

/-! ### Segments -/

/-- The functions and limits that a platform renders segments by; Markdown that cannot be rendered
raises. -/
structure RenderCtx where
  bold : String → String
  codeInline : String → String
  escapeCode : String → String
  escapeText : String → String
  renderMarkdown : String → Option String
  thinkingTailMax : Option Int := some 1000
  toolOutputTailMax : Option Int := some 1600
  textTailMax : Option Int := some 2000

structure ToolCallSegment where
  name : String
  indentLevel : Nat := 0

structure SubagentSegment where
  description : String
  toolCalls : Nat := 0
  toolsUsed : List String := []
  currentTool : Option ToolCallSegment := none

inductive Segment where
  | thinking (text : String)
  | text (text : String)
  | toolCall (segment : ToolCallSegment)
  | toolResult (name : Option String) (contentText : String) (isError : Bool)
  | subagent (segment : SubagentSegment)
  | error (message : String)

/-- A text that is too long loses its beginning. -/
def keepTail (tailMax : Option Int) (raw : String) : String :=
  match tailMax with
  | some most => if most < Py.len raw then "..." ++ Py.sliceFrom (-(most - 3)) raw else raw
  | none => raw

def ThinkingSegment.render (ctx : RenderCtx) (text : String) : String :=
  let inner := ctx.escapeCode (keepTail ctx.thinkingTailMax text)
  "💭 " ++ ctx.bold "Thinking" ++ "\n```\n" ++ inner ++ "\n```"

def TextSegment.render (ctx : RenderCtx) (text : String) : Option String :=
  ctx.renderMarkdown (keepTail ctx.textTailMax text)

def ToolCallSegment.render (ctx : RenderCtx) (segment : ToolCallSegment) : String :=
  let indent := Py.join "" (List.replicate segment.indentLevel "  ")
  indent ++ "🛠 " ++ ctx.bold "Tool call:" ++ " " ++ ctx.codeInline segment.name

def ToolResultSegment.render (ctx : RenderCtx) (name : Option String) (contentText : String)
    (isError : Bool) : String :=
  let inner := ctx.escapeCode (keepTail ctx.toolOutputTailMax contentText)
  let label := if isError then "Tool error:" else "Tool result:"
  let maybeName := match name with
    | some name => if name = "" then "" else " " ++ ctx.codeInline name
    | none => ""
  "📤 " ++ ctx.bold label ++ maybeName ++ "\n```\n" ++ inner ++ "\n```"

/-- The names of the tools that were used, in order. -/
def toolsSetRaw (toolsUsed : List String) : String :=
  "\x7b" ++ Py.join ", " (toolsUsed.mergeSort fun first second => decide (first ≤ second)) ++ "\x7d"

def SubagentSegment.render (ctx : RenderCtx) (segment : SubagentSegment) : String :=
  let tool := match segment.currentTool with
    | some tool => [tool.render ctx].filter (· ≠ "")
    | none => []
  Py.join "\n" (["🤖 " ++ ctx.bold "Subagent:" ++ " " ++ ctx.codeInline segment.description] ++ tool ++
    ["  " ++ ctx.bold "Tools used:" ++ " " ++ ctx.codeInline (toolsSetRaw segment.toolsUsed),
      "  " ++ ctx.bold "Tool calls:" ++ " " ++ ctx.codeInline (toString segment.toolCalls)])

def ErrorSegment.render (ctx : RenderCtx) (message : String) : String :=
  "⚠️ " ++ ctx.bold "Error:" ++ " " ++ ctx.codeInline message

/-- `seg.render(ctx)`; `none` is an exception. -/
def Segment.render (ctx : RenderCtx) : Segment → Option String
  | .thinking raw => some (ThinkingSegment.render ctx raw)
  | .text raw => TextSegment.render ctx raw
  | .toolCall segment => some (segment.render ctx)
  | .toolResult name contentText isError =>
    some (ToolResultSegment.render ctx name contentText isError)
  | .subagent segment => some (segment.render ctx)
  | .error message => some (ErrorSegment.render ctx message)

/-! ### The transcript -/

/-- The rendered segments that are not empty. -/
def renderedSegments (ctx : RenderCtx) (segments : List Segment) : List String :=
  (segments.filterMap (Segment.render ctx)).filter fun out => decide (out ≠ "")

/-- The status behind an empty line. -/
def statusText (status : Option String) : String :=
  match status with
  | some status => if status = "" then "" else "\n\n" ++ status
  | none => ""

def prefixMarker (ctx : RenderCtx) : String := ctx.escapeText "... (truncated)\n"

variable (limitChars : Int) (marker suffix : String)

/-- `_join`; the suffix is the status text. -/
def joinParts (parts : List String) (addMarker : Bool) : String :=
  let body := Py.join "\n" parts
  let body := if addMarker ∧ body ≠ "" then marker ++ body else body
  if body ≠ "" ∨ suffix ≠ "" then body ++ suffix else suffix

/-- The loop that drops the oldest segments: the first candidate that fits, or the last part that was
dropped. -/
def dropOldest (lastPart : Option String) : List String → String ⊕ Option String
  | [] => .inr lastPart
  | part :: rest =>
    let candidate := joinParts marker suffix (part :: rest) true
    if Py.len candidate ≤ limitChars then .inl candidate else dropOldest (some part) rest

/-- The end of the last segment, where there is room for more than a few characters. -/
def cutTail (lastPart : String) : Option String :=
  let budget := limitChars - Py.len marker - Py.len suffix
  if lastPart ≠ "" ∧ 20 < budget then
    let tail := if budget < Py.len lastPart then "..." ++ Py.sliceFrom (-(budget - 3)) lastPart
      else lastPart
    let candidate := marker ++ tail ++ suffix
    if Py.len candidate ≤ limitChars then some candidate else none
  else none

/-- The fallbacks behind the loop. -/
def fallback (status : Option String) (lastPart : Option String) : String :=
  match lastPart with
  | some lastPart =>
    match cutTail limitChars marker suffix lastPart with
    | some candidate => candidate
    | none =>
      let minimal := marker ++ Py.lstripOf '\n' suffix
      if Py.len minimal ≤ limitChars then minimal else status.getD ""
  | none => status.getD ""

/-- `TranscriptBuffer.render`. -/
def render (ctx : RenderCtx) (segments : List Segment) (limitChars : Int) (status : Option String) :
    String :=
  let rendered := renderedSegments ctx segments
  let candidate := joinParts (prefixMarker ctx) (statusText status) rendered false
  if Py.len candidate ≤ limitChars then candidate
  else
    match dropOldest limitChars (prefixMarker ctx) (statusText status) none rendered with
    | .inl candidate => candidate
    | .inr lastPart =>
      fallback limitChars (prefixMarker ctx) (statusText status) status lastPart

/-! ### What is asked -/

/-- The whole transcript, with the status. -/
def whole (parts : List String) : String := Py.join "\n" parts ++ suffix

/-- What is kept of a transcript, behind the marker, with the status. -/
def behindMarker (parts : List String) : String := marker ++ Py.join "\n" parts ++ suffix

/-- The longest end of a transcript that fits behind the marker. -/
structure LongestFit (parts kept : List String) : Prop where
  isSuffix : kept <:+ parts
  some_ : kept ≠ []
  fits : Py.len (behindMarker marker suffix kept) ≤ limitChars
  longest : ∀ longer, longer <:+ parts → kept.length < longer.length →
    limitChars < Py.len (behindMarker marker suffix longer)

/-- **The transcript fits and keeps its end.** -/
structure Fits (parts : List String) (status result : String) : Prop where
  short : Py.len result ≤ limitChars
  ends : Py.endsWith result status = true
  complete : Py.len (whole suffix parts) ≤ limitChars → result = whole suffix parts
  longest : limitChars < Py.len (whole suffix parts) →
    (∃ kept, kept <:+ parts ∧ kept ≠ [] ∧ Py.len (behindMarker marker suffix kept) ≤ limitChars) →
    ∃ kept, LongestFit limitChars marker suffix parts kept ∧ result = behindMarker marker suffix kept

/-! ### The loop -/

variable {limitChars : Int} {marker suffix : String}

theorem join_ne_empty {parts : List String} (some_ : parts ≠ []) (filled : ∀ part ∈ parts, part ≠ "") :
    Py.join "\n" parts ≠ "" := by
  obtain ⟨part, rest, rfl⟩ := List.exists_cons_of_ne_nil some_
  intro nothing
  cases rest with
  | nil =>
    rw [Py.join_singleton] at nothing
    exact filled part List.mem_cons_self nothing
  | cons next rest =>
    have chars := congrArg String.toList nothing
    rw [Py.join, String.intercalate_cons_cons] at chars
    simp at chars

theorem joinParts_without (parts : List String) :
    joinParts marker suffix parts false = whole suffix parts := by
  unfold joinParts whole
  simp only [Bool.false_eq_true, false_and, if_false]
  split_ifs with some_
  · rfl
  · obtain ⟨noBody, noSuffix⟩ := not_or.mp some_
    rw [not_not.mp noBody, String.empty_append]

theorem joinParts_behind {parts : List String} (some_ : parts ≠ [])
    (filled : ∀ part ∈ parts, part ≠ "") :
    joinParts marker suffix parts true = behindMarker marker suffix parts := by
  have body := join_ne_empty some_ filled
  unfold joinParts behindMarker
  simp only [true_and]
  rw [if_pos body, if_pos]
  left
  intro nothing
  exact body (String.append_eq_empty_iff.mp nothing).2

/-- **The loop stops at the longest end that fits**, -/
theorem dropOldest_spec {parts : List String} (filled : ∀ part ∈ parts, part ≠ "")
    {lastPart : Option String} {candidate : String}
    (found : dropOldest limitChars marker suffix lastPart parts = .inl candidate) :
    ∃ kept, LongestFit limitChars marker suffix parts kept ∧
      candidate = behindMarker marker suffix kept := by
  induction parts generalizing lastPart with
  | nil => cases found
  | cons part rest ih =>
    rw [dropOldest, joinParts_behind (List.cons_ne_nil _ _) filled] at found
    split_ifs at found with fits
    · refine ⟨part :: rest, ⟨List.suffix_rfl, List.cons_ne_nil _ _, fits, ?_⟩,
        (Sum.inl.inj found).symm⟩
      intro longer inside more
      exact absurd inside.length_le (Nat.not_le.mpr more)
    · obtain ⟨kept, best, same⟩ := ih (fun other member => filled other (.tail _ member)) found
      refine ⟨kept, ⟨best.isSuffix.trans (List.suffix_cons _ _), best.some_, best.fits, ?_⟩, same⟩
      intro longer inside more
      rcases List.suffix_cons_iff.mp inside with rfl | inside
      · exact Int.not_le.mp fits
      · exact best.longest longer inside more

/-- or drops everything, the last segment last. -/
theorem dropOldest_none {parts : List String} (filled : ∀ part ∈ parts, part ≠ "")
    {lastPart last : Option String}
    (found : dropOldest limitChars marker suffix lastPart parts = .inr last) :
    last = parts.getLast?.or lastPart ∧
      ∀ kept, kept <:+ parts → kept ≠ [] → limitChars < Py.len (behindMarker marker suffix kept) := by
  induction parts generalizing lastPart with
  | nil =>
    refine ⟨(Sum.inr.inj found).symm, fun kept inside some_ => ?_⟩
    exact absurd (List.suffix_nil.mp inside) some_
  | cons part rest ih =>
    rw [dropOldest, joinParts_behind (List.cons_ne_nil _ _) filled] at found
    split_ifs at found with fits
    obtain ⟨same, none⟩ := ih (fun other member => filled other (.tail _ member)) found
    refine ⟨?_, ?_⟩
    · rw [same, List.getLast?_cons]
      cases rest.getLast? <;> rfl
    · intro kept inside some_
      rcases List.suffix_cons_iff.mp inside with rfl | inside
      · exact Int.not_le.mp fits
      · exact none kept inside some_

/-! ### The fallbacks -/

theorem endsWith_append (front back : String) : Py.endsWith (front ++ back) back = true := by
  unfold Py.endsWith
  rw [String.toList_append]
  exact decide_eq_true (List.suffix_append _ _)

/-- The status text ends with the status. -/
theorem statusText_ends (status : Option String) :
    ∃ space, statusText status = space ++ status.getD "" := by
  cases status with
  | none => exact ⟨"", rfl⟩
  | some status =>
    unfold statusText
    dsimp only
    split_ifs with empty
    · exact ⟨"", by rw [empty]; rfl⟩
    · exact ⟨"\n\n", rfl⟩

/-- Without its line feeds, it is the status. -/
theorem lstrip_statusText {status : Option String}
    (plain : (status.getD "").toList.head? ≠ some '\n') :
    Py.lstripOf '\n' (statusText status) = status.getD "" := by
  cases status with
  | none => rfl
  | some status =>
    unfold statusText Py.lstripOf
    dsimp only
    split_ifs with empty
    · rw [empty]
      rfl
    · rw [String.toList_append]
      show String.ofList ((('\n' :: '\n' :: status.toList)).dropWhile _) = status
      rw [List.dropWhile_cons_of_pos (by simp), List.dropWhile_cons_of_pos (by simp)]
      rw [Option.getD_some] at plain
      cases chars : status.toList with
      | nil =>
        rw [← String.toList_inj, chars]
        rfl
      | cons char rest =>
        rw [chars, List.head?_cons] at plain
        rw [List.dropWhile_cons_of_neg (by simpa using plain), ← chars, String.ofList_toList]

theorem fallback_fits {status : Option String} (lastPart : Option String)
    (room : (Py.len (status.getD "") : Int) ≤ limitChars)
    (plain : (status.getD "").toList.head? ≠ some '\n') :
    Py.len (fallback limitChars marker (statusText status) status lastPart) ≤ limitChars ∧
      Py.endsWith (fallback limitChars marker (statusText status) status lastPart)
        (status.getD "") = true := by
  have alone : Py.endsWith (status.getD "") (status.getD "") = true :=
    decide_eq_true List.suffix_rfl
  cases lastPart with
  | none => exact ⟨room, alone⟩
  | some lastPart =>
    unfold fallback
    dsimp only
    cases cut : cutTail limitChars marker (statusText status) lastPart with
    | some candidate =>
      unfold cutTail at cut
      dsimp only at cut
      split_ifs at cut with enough long fits fits
      all_goals
        obtain rfl := Option.some.inj cut
        obtain ⟨space, same⟩ := statusText_ends status
        refine ⟨fits, ?_⟩
        rw [same, ← String.append_assoc]
        exact endsWith_append _ _
    | none =>
      dsimp only
      rw [lstrip_statusText plain]
      split_ifs with fits
      · exact ⟨fits, endsWith_append _ _⟩
      · exact ⟨room, alone⟩

/-- **The rendered transcript** is no longer than the limit and ends with the status, if the status is
no longer and does not begin with a line feed; it is the whole transcript if that fits, and otherwise,
if an end of it fits behind the marker, the longest such end. -/
theorem render_fits (ctx : RenderCtx) (segments : List Segment) {limitChars : Int}
    {status : Option String} (room : (Py.len (status.getD "") : Int) ≤ limitChars)
    (plain : (status.getD "").toList.head? ≠ some '\n') :
    Fits limitChars (prefixMarker ctx) (statusText status) (renderedSegments ctx segments)
      (status.getD "") (render ctx segments limitChars status) := by
  have filled : ∀ part ∈ renderedSegments ctx segments, part ≠ "" :=
    fun part member => of_decide_eq_true (List.mem_filter.mp member).2
  obtain ⟨space, same⟩ := statusText_ends status
  have ends (front : String) : Py.endsWith (front ++ statusText status) (status.getD "") = true := by
    rw [same, ← String.append_assoc]
    exact endsWith_append _ _
  unfold render
  dsimp only
  rw [joinParts_without]
  split_ifs with fits
  · exact ⟨fits, ends _, fun _ => rfl, fun long => absurd fits (Int.not_le.mpr long)⟩
  · cases found : dropOldest limitChars (prefixMarker ctx) (statusText status) none
        (renderedSegments ctx segments) with
    | inl candidate =>
      obtain ⟨kept, best, rfl⟩ := dropOldest_spec filled found
      exact ⟨best.fits, ends _, fun short => absurd short fits, fun _ _ => ⟨kept, best, rfl⟩⟩
    | inr lastPart =>
      obtain ⟨-, none⟩ := dropOldest_none filled found
      obtain ⟨short, last⟩ := fallback_fits lastPart room plain
      refine ⟨short, last, fun short => absurd short fits, ?_⟩
      rintro - ⟨kept, inside, some_, fit⟩
      exact absurd fit (Int.not_le.mpr (none kept inside some_))

/-- A platform without markup. -/
def plainCtx : RenderCtx where
  bold := id
  codeInline := id
  escapeCode := id
  escapeText := id
  renderMarkdown := some

/-- Three errors, of which the last one fits behind the marker. -/
theorem lastError_fits :
    render plainCtx [.error "one", .error "two", .error "three"] 40 (some "Done") =
      "... (truncated)\n⚠️ Error: three\n\nDone" ∧
    Fits 40 (prefixMarker plainCtx) (statusText (some "Done"))
      (renderedSegments plainCtx [.error "one", .error "two", .error "three"]) "Done"
      (render plainCtx [.error "one", .error "two", .error "three"] 40 (some "Done")) := by
  refine ⟨by decide +kernel, render_fits _ _ ?_ ?_⟩
  · decide
  · decide

end Transcript

end ClaudeProxy
