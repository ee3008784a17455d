/-
**The think-tag parser** (`core/anthropic/thinking.py`).

* `ThinkTagParser.parse` — one turn of the loop: `_parse_outside_think`, `_parse_inside_think`.
* `ThinkTagParser.feed`, `ThinkTagParser.flush` — the parts that a fragment of content gives.
* **`parse_shrinks`** — a turn behind which the loop goes on has shortened the buffer.
-/

import ClaudeProxy.Python

namespace ClaudeProxy

inductive ContentType where
  | text
  | thinking
  deriving DecidableEq, Repr

structure ContentChunk where
  type : ContentType
  content : String
  deriving DecidableEq, Repr

structure ThinkTagParser where
  buffer : List Char := []
  inThinkTag : Bool := false
  deriving DecidableEq, Repr

def openTag : List Char := "<think>".toList

def closeTag : List Char := "</think>".toList

/-- A chunk, unless it is empty. -/
def chunkOf (type : ContentType) (content : List Char) : Option ContentChunk :=
  if content = [] then none else some ⟨type, String.ofList content⟩

/-- The text may be the beginning of that tag. -/
def isPartOf (tag potentialTag : List Char) : Bool :=
  decide (potentialTag.length < tag.length) && decide (potentialTag <+: tag)

namespace ThinkTagParser

/-- Where a beginning of one of the tags stands at the end of the buffer. -/
def partialTag (buffer : List Char) (tags : List (List Char)) : Option Nat :=
  (Py.rfind? ['<'] buffer).filter fun lastBracket =>
    tags.any fun tag => isPartOf tag (buffer.drop lastBracket)

/-- Emits the buffer but for the beginning of a tag at its end. -/
def emit (parser : ThinkTagParser) (type : ContentType) (tags : List (List Char)) :
    Option ContentChunk × ThinkTagParser :=
  match partialTag parser.buffer tags with
  | some lastBracket =>
    (chunkOf type (parser.buffer.take lastBracket),
      { parser with buffer := parser.buffer.drop lastBracket })
  | none => (chunkOf type parser.buffer, { parser with buffer := [] })

/-- `_parse_outside_think`. -/
def parseOutsideThink (parser : ThinkTagParser) : Option ContentChunk × ThinkTagParser :=
  let thinkStart := Py.find? openTag parser.buffer
  let orphanClose := Py.find? closeTag parser.buffer
  match orphanClose, thinkStart with
  | some orphan, none =>
    (chunkOf .text (parser.buffer.take orphan),
      { parser with buffer := parser.buffer.drop (orphan + closeTag.length) })
  | some orphan, some start =>
    if orphan < start then
      (chunkOf .text (parser.buffer.take orphan),
        { parser with buffer := parser.buffer.drop (orphan + closeTag.length) })
    else
      (chunkOf .text (parser.buffer.take start),
        { buffer := parser.buffer.drop (start + openTag.length), inThinkTag := true })
  | none, some start =>
    (chunkOf .text (parser.buffer.take start),
      { buffer := parser.buffer.drop (start + openTag.length), inThinkTag := true })
  | none, none => parser.emit .text [openTag, closeTag]

/-- `_parse_inside_think`. -/
def parseInsideThink (parser : ThinkTagParser) : Option ContentChunk × ThinkTagParser :=
  match Py.find? closeTag parser.buffer with
  | none => parser.emit .thinking [closeTag]
  | some thinkEnd =>
    (chunkOf .thinking (parser.buffer.take thinkEnd),
      { buffer := parser.buffer.drop (thinkEnd + closeTag.length), inThinkTag := false })

def parse (parser : ThinkTagParser) : Option ContentChunk × ThinkTagParser :=
  if parser.inThinkTag then parser.parseInsideThink else parser.parseOutsideThink

/-- A turn drops a beginning of the buffer, and not nothing when it emits a chunk. -/
theorem parse_drops (parser : ThinkTagParser) : ∃ count,
    parser.parse.2.buffer = parser.buffer.drop count ∧ (parser.parse.1.isSome = true → 0 < count) := by
  have emits : ∀ type tags, ∃ count, (parser.emit type tags).2.buffer = parser.buffer.drop count ∧
      ((parser.emit type tags).1.isSome = true → 0 < count) := by
    intro type tags
    unfold emit
    split
    · rename_i lastBracket _
      refine ⟨lastBracket, rfl, fun some => Nat.pos_of_ne_zero ?_⟩
      rintro rfl
      cases some
    · refine ⟨parser.buffer.length, List.drop_length.symm, fun some => ?_⟩
      apply List.length_pos_of_ne_nil
      intro empty
      unfold chunkOf at some
      rw [if_pos empty] at some
      cases some
  unfold parse
  split_ifs
  · unfold parseInsideThink
    split
    · exact emits _ _
    · exact ⟨_, rfl, fun _ => Nat.add_pos_right _ (by decide)⟩
  · unfold parseOutsideThink
    dsimp only
    split
    · exact ⟨_, rfl, fun _ => Nat.add_pos_right _ (by decide)⟩
    · split_ifs <;> exact ⟨_, rfl, fun _ => Nat.add_pos_right _ (by decide)⟩
    · exact ⟨_, rfl, fun _ => Nat.add_pos_right _ (by decide)⟩
    · exact emits _ _

/-- **A turn behind which the loop goes on has shortened the buffer.** -/
theorem parse_shrinks {parser : ThinkTagParser} (more : parser.buffer ≠ [])
    (goesOn : ¬ (parser.parse.1 = none ∧
      parser.parse.2.buffer.length = parser.buffer.length)) :
    parser.parse.2.buffer.length < parser.buffer.length := by
  obtain ⟨count, buffer, emitted⟩ := parser.parse_drops
  have inside : 0 < parser.buffer.length := List.length_pos_of_ne_nil more
  rw [buffer, List.length_drop] at goesOn ⊢
  cases chunk : parser.parse.1 with
  | some chunk =>
    have positive := emitted (by rw [chunk]; rfl)
    omega
  | none =>
    have shorter : parser.buffer.length - count ≠ parser.buffer.length :=
      fun same => goesOn ⟨chunk, same⟩
    omega

/-- The loop of `feed`. -/
def feedLoop (parser : ThinkTagParser) : List ContentChunk × ThinkTagParser :=
  if _more : parser.buffer = [] then ([], parser)
  else if _stuck : parser.parse.1 = none ∧
      parser.parse.2.buffer.length = parser.buffer.length then ([], parser.parse.2)
  else
    let (later, last) := parser.parse.2.feedLoop
    (parser.parse.1.toList ++ later, last)
termination_by parser.buffer.length
decreasing_by exact parse_shrinks _more _stuck

/-- `feed`. -/
def feed (parser : ThinkTagParser) (content : String) : List ContentChunk × ThinkTagParser :=
  ({ parser with buffer := parser.buffer ++ content.toList } : ThinkTagParser).feedLoop

/-- `flush`. -/
def flush (parser : ThinkTagParser) : Option ContentChunk × ThinkTagParser :=
  (chunkOf (if parser.inThinkTag then .thinking else .text) parser.buffer,
    { parser with buffer := [] })

end ThinkTagParser

end ClaudeProxy
