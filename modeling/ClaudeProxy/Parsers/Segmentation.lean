/-
**The think-tag parser segments its text in one pass.**

* `segmentFrom` — the segmentation: each character of the text with its type, the tags left out.
* `segment_free` — where no tag starts, the characters keep their type.
* `segment_parse` — a turn of the parser emits the front of the segmentation, whatever text comes
  behind the buffer; **`segment_feedLoop`** — so does the loop.
* **`outputs_segment`** — the parts of a text that arrives in chunks, merged, are its segmentation.
-/

import ClaudeProxy.Parsers.ThinkTag

namespace ClaudeProxy

/-! ### The segmentation -/

/-- The type of the text in a mode. -/
def typeOf (inThinkTag : Bool) : ContentType := if inThinkTag then .thinking else .text

/-- The tags that a mode looks for. -/
def tagsOf (inThinkTag : Bool) : List (List Char) :=
  if inThinkTag then [closeTag] else [openTag, closeTag]

/-- One pass over the text, with `skip` characters of a tag still to be left out. -/
def segmentFrom (inThinkTag : Bool) (skip : Nat) : List Char → List (ContentType × Char)
  | [] => []
  | char :: rest =>
    match skip with
    | skip + 1 => segmentFrom inThinkTag skip rest
    | 0 =>
      if closeTag <+: char :: rest then segmentFrom false (closeTag.length - 1) rest
      else if inThinkTag = false ∧ openTag <+: char :: rest then
        segmentFrom true (openTag.length - 1) rest
      else (typeOf inThinkTag, char) :: segmentFrom inThinkTag 0 rest

/-- The segmentation of the text in a mode. -/
def segment (inThinkTag : Bool) (text : List Char) : List (ContentType × Char) :=
  segmentFrom inThinkTag 0 text

theorem segmentFrom_eq (inThinkTag : Bool) (skip : Nat) (text : List Char) :
    segmentFrom inThinkTag skip text = segment inThinkTag (text.drop skip) := by
  induction text generalizing skip with
  | nil => cases skip <;> rfl
  | cons char rest ih =>
    cases skip with
    | zero => rfl
    | succ skip =>
      rw [segmentFrom, ih, List.drop_succ_cons]

/-- A tag begins with the only bracket in it. -/
theorem tag_bracket {inThinkTag : Bool} {tag : List Char} (isTag : tag ∈ tagsOf inThinkTag) :
    ∃ rest, tag = '<' :: rest ∧ '<' ∉ rest := by
  have either : tag = openTag ∨ tag = closeTag := by
    cases inThinkTag <;> simp [tagsOf] at isTag <;> tauto
  rcases either with rfl | rfl
  · exact ⟨openTag.tail, by decide, by decide⟩
  · exact ⟨closeTag.tail, by decide, by decide⟩

/-- Behind a closing tag there is text. -/
theorem segment_close (inThinkTag : Bool) (rest : List Char) :
    segment inThinkTag (closeTag ++ rest) = segment false rest := by
  obtain ⟨behind, isTag, -⟩ := @tag_bracket inThinkTag closeTag (by cases inThinkTag <;> simp [tagsOf])
  have here : closeTag <+: '<' :: (behind ++ rest) := by
    rw [isTag]
    exact ⟨rest, rfl⟩
  have size : closeTag.length - 1 = behind.length := by
    rw [isTag]
    rfl
  have whole : closeTag ++ rest = '<' :: (behind ++ rest) := by
    rw [isTag, List.cons_append]
  rw [whole, segment, segmentFrom, if_pos here, segmentFrom_eq, size, List.drop_left]

/-- Behind an opening tag there is thinking. -/
theorem segment_open (rest : List Char) : segment false (openTag ++ rest) = segment true rest := by
  obtain ⟨behind, isTag, -⟩ := @tag_bracket false openTag (by simp [tagsOf])
  have here : openTag <+: '<' :: (behind ++ rest) := by
    rw [isTag]
    exact ⟨rest, rfl⟩
  have size : openTag.length - 1 = behind.length := by
    rw [isTag]
    rfl
  have whole : openTag ++ rest = '<' :: (behind ++ rest) := by
    rw [isTag, List.cons_append]
  have other : ¬ closeTag <+: '<' :: (behind ++ rest) := by
    intro both
    rcases List.prefix_of_prefix_length_le here both (by decide) with ⟨more, longer⟩
    have second := congrArg (fun chars => chars[1]?) longer
    rw [List.getElem?_append_left (by decide)] at second
    exact absurd second (by decide)
  rw [whole, segment, segmentFrom, if_neg other, if_pos ⟨rfl, here⟩, segmentFrom_eq, size,
    List.drop_left]

/-- **Where no tag starts**, the characters keep their type. -/
theorem segment_free {inThinkTag : Bool} {text rest : List Char}
    (free : ∀ position < text.length, ∀ tag ∈ tagsOf inThinkTag,
      ¬ tag <+: (text ++ rest).drop position) :
    segment inThinkTag (text ++ rest) =
      text.map (Prod.mk (typeOf inThinkTag)) ++ segment inThinkTag rest := by
  induction text with
  | nil => rfl
  | cons char text ih =>
    have here := free 0 (by simp)
    have noClose : ¬ closeTag <+: char :: (text ++ rest) :=
      here closeTag (by cases inThinkTag <;> simp [tagsOf])
    have noOpen : ¬ (inThinkTag = false ∧ openTag <+: char :: (text ++ rest)) := by
      rintro ⟨rfl, opens⟩
      exact here openTag (by simp [tagsOf]) opens
    have later := ih fun position less tag isTag =>
      free (position + 1) (by simpa using less) tag isTag
    rw [List.cons_append, segment, segmentFrom, if_neg noClose, if_neg noOpen, ← segment, later]
    rfl

/-! ### One turn of the parser -/

/-- The parts with their types, character by character. -/
def typed (parts : List ContentChunk) : List (ContentType × Char) :=
  parts.flatMap fun part => part.content.toList.map (Prod.mk part.type)

theorem typed_append (first second : List ContentChunk) :
    typed (first ++ second) = typed first ++ typed second := List.flatMap_append

theorem typed_chunkOf (type : ContentType) (content : List Char) :
    typed (chunkOf type content).toList = content.map (Prod.mk type) := by
  unfold chunkOf
  split_ifs with empty
  · rw [empty]
    rfl
  · simp [typed]

/-- **A tag that is not whole in the buffer** starts at its last bracket. -/
theorem partial_of_starts {inThinkTag : Bool} {tag buffer rest : List Char} {position : Nat}
    (isTag : tag ∈ tagsOf inThinkTag) (inside : position < buffer.length)
    (starts : tag <+: (buffer ++ rest).drop position) (partly : ¬ tag <+: buffer.drop position) :
    Py.rfind? ['<'] buffer = some position ∧ isPartOf tag (buffer.drop position) = true := by
  obtain ⟨behind, rfl, only⟩ := tag_bracket isTag
  rw [List.drop_append_of_le_length (le_of_lt inside)] at starts
  have within : buffer.drop position <+: '<' :: behind :=
    (List.prefix_or_prefix_of_prefix starts (List.prefix_append _ _)).resolve_left partly
  have shorter : (buffer.drop position).length < ('<' :: behind).length := by
    refine lt_of_le_of_ne within.length_le fun same => partly ?_
    rw [within.eq_of_length same]
  obtain ⟨others, isOthers⟩ : ∃ others, buffer.drop position = '<' :: others := by
    cases held : buffer.drop position with
    | nil =>
      have length := congrArg List.length held
      simp only [List.length_drop, List.length_nil] at length
      omega
    | cons char others =>
      rw [held, List.cons_prefix_cons] at within
      exact ⟨others, by rw [within.1]⟩
  rw [isOthers, List.cons_prefix_cons] at within
  have noMore : '<' ∉ others := fun member => only (within.2.subset member)
  refine ⟨?_, ?_⟩
  · cases found : Py.rfind? ['<'] buffer with
    | none =>
      have nowhere := Py.rfind?_eq_none found position inside
      rw [isOthers] at nowhere
      exact absurd (by simp) nowhere
    | some last =>
      obtain ⟨occurs, latest⟩ := Py.rfind?_eq_some found
      have notBefore : position ≤ last := by
        by_contra before
        refine latest position (by omega) inside ?_
        rw [isOthers]
        simp
      rcases notBefore.lt_or_eq with after | same
      · obtain ⟨distance, rfl⟩ : ∃ distance, last = position + 1 + distance :=
          ⟨last - position - 1, by omega⟩
        rw [Nat.add_assoc, ← List.drop_drop, isOthers, Nat.add_comm, List.drop_succ_cons] at occurs
        exact absurd (List.mem_of_mem_drop (occurs.subset List.mem_cons_self)) noMore
      · rw [same]
  · rw [isPartOf, Bool.and_eq_true, decide_eq_true_eq, decide_eq_true_eq]
    refine ⟨shorter, ?_⟩
    rw [isOthers, List.cons_prefix_cons]
    exact ⟨rfl, within.2⟩

namespace ThinkTagParser

/-- Nothing is looked for in the buffer. -/
def Free (inThinkTag : Bool) (buffer : List Char) : Prop :=
  ∀ tag ∈ tagsOf inThinkTag, ∀ position, ¬ tag <+: buffer.drop position

/-- A buffer without tags is emitted up to the beginning of one. -/
theorem segment_emit {parser : ThinkTagParser} (free : Free parser.inThinkTag parser.buffer)
    (rest : List Char) :
    segment parser.inThinkTag (parser.buffer ++ rest) =
      typed (parser.emit (typeOf parser.inThinkTag) (tagsOf parser.inThinkTag)).1.toList ++
        segment parser.inThinkTag
          ((parser.emit (typeOf parser.inThinkTag) (tagsOf parser.inThinkTag)).2.buffer ++ rest) := by
  unfold emit
  split
  · rename_i last found
    obtain ⟨isLast, -⟩ := Option.filter_eq_some_iff.mp found
    have whole : parser.buffer ++ rest =
        parser.buffer.take last ++ (parser.buffer.drop last ++ rest) := by
      rw [← List.append_assoc, List.take_append_drop]
    dsimp only
    rw [typed_chunkOf, whole]
    apply segment_free
    intro position less tag isTag starts
    rw [← whole] at starts
    rw [List.length_take] at less
    have same := (partial_of_starts isTag (by omega) starts (free tag isTag position)).1
    rw [isLast] at same
    cases same
    omega
  · rename_i nowhere
    dsimp only
    rw [typed_chunkOf, List.nil_append]
    apply segment_free
    intro position less tag isTag starts
    obtain ⟨last, isPart⟩ := partial_of_starts isTag less starts (free tag isTag position)
    have found : partialTag parser.buffer (tagsOf parser.inThinkTag) = some position :=
      Option.filter_eq_some_iff.mpr ⟨last, List.any_eq_true.mpr ⟨tag, isTag, isPart⟩⟩
    rw [found] at nowhere
    cases nowhere

/-- The text up to the first tag. -/
theorem segment_before {inThinkTag : Bool} {buffer tag : List Char} {position : Nat}
    (occurs : tag <+: buffer.drop position)
    (first : ∀ other ∈ tagsOf inThinkTag, ∀ earlier < position, ¬ other <+: buffer.drop earlier)
    (isTag : tag ∈ tagsOf inThinkTag) (rest : List Char) :
    segment inThinkTag (buffer ++ rest) =
      (buffer.take position).map (Prod.mk (typeOf inThinkTag)) ++
        segment inThinkTag (tag ++ (buffer.drop (position + tag.length) ++ rest)) := by
  obtain ⟨behind, isBehind⟩ := occurs
  obtain ⟨others, isBracket, only⟩ := tag_bracket isTag
  have dropped : buffer.drop (position + tag.length) = behind := by
    rw [← List.drop_drop, ← isBehind, List.drop_left]
  have whole : buffer ++ rest = buffer.take position ++ (tag ++ (behind ++ rest)) := by
    rw [← List.append_assoc tag, isBehind, ← List.append_assoc, List.take_append_drop]
  have fits : position < buffer.length := by
    by_contra outside
    rw [List.drop_eq_nil_of_le (by omega), isBracket] at isBehind
    cases isBehind
  rw [dropped, whole]
  apply segment_free
  intro earlier less other isOther starts
  rw [← whole] at starts
  rw [List.length_take] at less
  have before : earlier < position := by omega
  have last := (partial_of_starts isOther (by omega) starts (first other isOther earlier before)).1
  -- but there is a bracket behind it
  refine (Py.rfind?_eq_some last).2 position before fits ?_
  rw [← isBehind, isBracket]
  simp

/-- What a turn of the loop can do: it finds the first tag, or there is none. -/
inductive Turn (parser : ThinkTagParser) : Option ContentChunk × ThinkTagParser → Prop
  | emits (free : Free parser.inThinkTag parser.buffer) :
      Turn parser (parser.emit (typeOf parser.inThinkTag) (tagsOf parser.inThinkTag))
  | closes (position : Nat) (occurs : closeTag <+: parser.buffer.drop position)
      (first : ∀ other ∈ tagsOf parser.inThinkTag, ∀ earlier < position,
        ¬ other <+: parser.buffer.drop earlier) :
      Turn parser (chunkOf (typeOf parser.inThinkTag) (parser.buffer.take position),
        ⟨parser.buffer.drop (position + closeTag.length), false⟩)
  | opens (position : Nat) (outside : parser.inThinkTag = false)
      (occurs : openTag <+: parser.buffer.drop position)
      (first : ∀ other ∈ tagsOf false, ∀ earlier < position,
        ¬ other <+: parser.buffer.drop earlier) :
      Turn parser (chunkOf .text (parser.buffer.take position),
        ⟨parser.buffer.drop (position + openTag.length), true⟩)

theorem turn_inside (buffer : List Char) :
    Turn ⟨buffer, true⟩ (parseInsideThink ⟨buffer, true⟩) := by
  have only : ∀ other ∈ tagsOf true, other = closeTag := by simp [tagsOf]
  rw [parseInsideThink]
  cases found : Py.find? closeTag buffer with
  | none =>
    apply Turn.emits
    intro tag isTag position
    rw [only tag isTag]
    exact Py.find?_eq_none found position
  | some position =>
    obtain ⟨occurs, first⟩ := Py.find?_eq_some found
    refine Turn.closes position occurs fun other isTag earlier less => ?_
    rw [only other isTag]
    exact first earlier less

theorem turn_outside (buffer : List Char) :
    Turn ⟨buffer, false⟩ (parseOutsideThink ⟨buffer, false⟩) := by
  have either : ∀ other ∈ tagsOf false, other = openTag ∨ other = closeTag := by simp [tagsOf]
  rw [parseOutsideThink]
  dsimp only
  cases opens : Py.find? openTag buffer with
  | none =>
    have noOpen := Py.find?_eq_none opens
    cases closes : Py.find? closeTag buffer with
    | none =>
      apply Turn.emits
      intro tag isTag position
      rcases either tag isTag with rfl | rfl
      · exact noOpen position
      · exact Py.find?_eq_none closes position
    | some orphan =>
      obtain ⟨occurs, first⟩ := Py.find?_eq_some closes
      refine Turn.closes orphan occurs fun other isTag earlier less => ?_
      rcases either other isTag with rfl | rfl
      · exact noOpen earlier
      · exact first earlier less
  | some start =>
    obtain ⟨occursOpen, firstOpen⟩ := Py.find?_eq_some opens
    cases closes : Py.find? closeTag buffer with
    | none =>
      refine Turn.opens start rfl occursOpen fun other isTag earlier less => ?_
      rcases either other isTag with rfl | rfl
      · exact firstOpen earlier less
      · exact Py.find?_eq_none closes earlier
    | some orphan =>
      obtain ⟨occursClose, firstClose⟩ := Py.find?_eq_some closes
      dsimp only
      by_cases before : orphan < start
      · rw [if_pos before]
        refine Turn.closes orphan occursClose fun other isTag earlier less => ?_
        rcases either other isTag with rfl | rfl
        · exact firstOpen earlier (by omega)
        · exact firstClose earlier less
      · rw [if_neg before]
        refine Turn.opens start rfl occursOpen fun other isTag earlier less => ?_
        rcases either other isTag with rfl | rfl
        · exact firstOpen earlier less
        · exact firstClose earlier (by omega)

theorem turn_parse (parser : ThinkTagParser) : Turn parser parser.parse := by
  obtain ⟨buffer, inThinkTag⟩ := parser
  cases inThinkTag with
  | true => exact turn_inside buffer
  | false => exact turn_outside buffer

theorem emit_inThinkTag (parser : ThinkTagParser) (type : ContentType) (tags : List (List Char)) :
    (parser.emit type tags).2.inThinkTag = parser.inThinkTag := by
  unfold emit
  split <;> rfl

/-- **A turn** emits the front of the segmentation, whatever text comes behind the buffer. -/
theorem segment_turn {parser : ThinkTagParser} {result : Option ContentChunk × ThinkTagParser}
    (turn : Turn parser result) (rest : List Char) :
    segment parser.inThinkTag (parser.buffer ++ rest) =
      typed result.1.toList ++ segment result.2.inThinkTag (result.2.buffer ++ rest) := by
  cases turn with
  | emits free =>
    rw [emit_inThinkTag]
    exact segment_emit free rest
  | closes position occurs first =>
    rw [segment_before occurs first (by cases parser.inThinkTag <;> simp [tagsOf]), segment_close,
      typed_chunkOf]
  | opens position outside occurs first =>
    rw [outside, segment_before occurs first (by simp [tagsOf]), segment_open, typed_chunkOf]
    rfl

/-- A turn that shortens nothing has found no tag. -/
theorem free_of_turn {parser : ThinkTagParser} {result : Option ContentChunk × ThinkTagParser}
    (turn : Turn parser result) (more : parser.buffer ≠ [])
    (stuck : result.2.buffer.length = parser.buffer.length) :
    result.2.inThinkTag = parser.inThinkTag ∧ Free parser.inThinkTag parser.buffer := by
  have inside := List.length_pos_of_ne_nil more
  cases turn with
  | emits free => exact ⟨emit_inThinkTag _ _ _, free⟩
  | closes position occurs first =>
    have size : 0 < closeTag.length := by decide
    simp only [List.length_drop] at stuck
    omega
  | opens position outside occurs first =>
    have size : 0 < openTag.length := by decide
    simp only [List.length_drop] at stuck
    omega

/-! ### The loop and the chunks -/

/-- **The loop** emits the front of the segmentation, and leaves no tag in the buffer. -/
theorem segment_feedLoop (parser : ThinkTagParser) :
    (∀ rest, segment parser.inThinkTag (parser.buffer ++ rest) =
      typed parser.feedLoop.1 ++
        segment parser.feedLoop.2.inThinkTag (parser.feedLoop.2.buffer ++ rest)) ∧
      Free parser.feedLoop.2.inThinkTag parser.feedLoop.2.buffer := by
  induction parser using feedLoop.induct with
  | case1 parser empty =>
    rw [feedLoop, dif_pos empty]
    refine ⟨fun rest => by simp [typed], fun tag isTag position starts => ?_⟩
    obtain ⟨others, isBracket, -⟩ := tag_bracket isTag
    rw [empty, List.drop_nil, isBracket] at starts
    exact absurd (List.prefix_nil.mp starts) (List.cons_ne_nil _ _)
  | case2 parser more stuck =>
    obtain ⟨mode, free⟩ := free_of_turn parser.turn_parse more stuck.2
    obtain ⟨count, dropped, -⟩ := parser.parse_drops
    have same : parser.parse.2.buffer = parser.buffer := by
      have size := stuck.2
      have inside := List.length_pos_of_ne_nil more
      rw [dropped, List.length_drop] at size
      rw [dropped, show count = 0 by omega, List.drop_zero]
    rw [feedLoop, dif_neg more, dif_pos stuck]
    refine ⟨fun rest => ?_, ?_⟩
    · rw [mode, same]
      simp [typed]
    · rw [mode, same]
      exact free
  | case3 parser more goesOn later last looped ih =>
    rw [looped] at ih
    rw [feedLoop, dif_neg more, dif_neg goesOn, looped]
    refine ⟨fun rest => ?_, ih.2⟩
    dsimp only
    rw [segment_turn parser.turn_parse rest, ih.1 rest, typed_append, List.append_assoc]

/-- The parts of a text that arrives in chunks. -/
def feedAll (parser : ThinkTagParser) : List String → List ContentChunk × ThinkTagParser
  | [] => ([], parser)
  | chunk :: chunks =>
    let (parts, next) := parser.feed chunk
    let (later, last) := next.feedAll chunks
    (parts ++ later, last)

/-- All that is emitted, the flush included. -/
def outputs (chunks : List String) : List ContentChunk :=
  (({} : ThinkTagParser).feedAll chunks).1 ++ (({} : ThinkTagParser).feedAll chunks).2.flush.1.toList

/-- **Chunks** emit the front of the segmentation of the whole text. -/
theorem segment_feedAll {parser : ThinkTagParser} (free : Free parser.inThinkTag parser.buffer)
    (chunks : List String) :
    segment parser.inThinkTag (parser.buffer ++ (Py.join "" chunks).toList) =
        typed (parser.feedAll chunks).1 ++
          segment (parser.feedAll chunks).2.inThinkTag (parser.feedAll chunks).2.buffer ∧
      Free (parser.feedAll chunks).2.inThinkTag (parser.feedAll chunks).2.buffer := by
  induction chunks generalizing parser with
  | nil => simpa [feedAll, typed] using free
  | cons chunk chunks ih =>
    obtain ⟨emits, left⟩ := segment_feedLoop { parser with buffer := parser.buffer ++ chunk.toList }
    obtain ⟨later, last⟩ := ih left
    refine ⟨?_, last⟩
    have whole : (Py.join "" (chunk :: chunks)).toList =
        chunk.toList ++ (Py.join "" chunks).toList := by
      rw [← List.singleton_append, Py.join_append, Py.join_singleton, String.toList_append]
    have front := emits (Py.join "" chunks).toList
    dsimp only at front
    rw [whole, ← List.append_assoc, front, feedAll]
    dsimp only
    rw [typed_append, List.append_assoc]
    exact congrArg _ later

end ThinkTagParser

/-! ### Merged parts -/

/-- A part in front of others: it is merged with the first one, if that has its type. -/
def joinFront (part : ContentChunk) : List ContentChunk → List ContentChunk
  | [] => [part]
  | next :: later =>
    if next.type = part.type then ⟨part.type, part.content ++ next.content⟩ :: later
    else part :: next :: later

/-- The parts with adjacent ones of one type merged. -/
def merged (parts : List ContentChunk) : List ContentChunk := parts.foldr joinFront []

/-- The characters with their types, in parts. -/
def grouped (chars : List (ContentType × Char)) : List ContentChunk :=
  chars.foldr (fun part => joinFront ⟨part.1, String.singleton part.2⟩) []

/-- The one-pass segmentation of a text. -/
def segmentation (text : String) : List ContentChunk := grouped (segment false text.toList)

theorem joinFront_append (type : ContentType) (first second : String) (parts : List ContentChunk) :
    joinFront ⟨type, first⟩ (joinFront ⟨type, second⟩ parts) = joinFront ⟨type, first ++ second⟩ parts := by
  cases parts with
  | nil => simp [joinFront]
  | cons next later =>
    by_cases same : next.type = type
    · simp [joinFront, same, String.append_assoc]
    · simp [joinFront, same]

theorem grouped_map (type : ContentType) {content : List Char} (some : content ≠ [])
    (rest : List (ContentType × Char)) :
    grouped (content.map (Prod.mk type) ++ rest) =
      joinFront ⟨type, String.ofList content⟩ (grouped rest) := by
  induction content with
  | nil => exact absurd rfl some
  | cons char content ih =>
    have front : grouped ((char :: content).map (Prod.mk type) ++ rest) =
        joinFront ⟨type, String.singleton char⟩ (grouped (content.map (Prod.mk type) ++ rest)) := rfl
    rw [front]
    cases content with
    | nil => rfl
    | cons second content =>
      rw [ih (List.cons_ne_nil _ _), joinFront_append]
      congr 2
      apply String.toList_injective
      simp

/-- **Merging parts** that are not empty groups their characters. -/
theorem merged_eq_grouped {parts : List ContentChunk} (some : ∀ part ∈ parts, part.content ≠ "") :
    merged parts = grouped (typed parts) := by
  induction parts with
  | nil => rfl
  | cons part parts ih =>
    have visible : part.content.toList ≠ [] := fun empty =>
      some part List.mem_cons_self (String.toList_injective empty)
    have rest := ih fun other inside => some other (List.mem_cons_of_mem _ inside)
    show joinFront part (merged parts) = grouped (part.content.toList.map _ ++ typed parts)
    rw [grouped_map part.type visible, rest, String.ofList_toList]

namespace ThinkTagParser

theorem chunkOf_visible {type : ContentType} {content : List Char} {part : ContentChunk}
    (given : part ∈ (chunkOf type content).toList) : part.content ≠ "" := by
  unfold chunkOf at given
  split_ifs at given with empty
  · cases given
  · rw [Option.toList_some, List.mem_singleton] at given
    rw [given]
    intro blank
    exact empty (by simpa using congrArg String.toList blank)

/-- No part is empty. -/
theorem feedLoop_visible (parser : ThinkTagParser) :
    ∀ part ∈ parser.feedLoop.1, part.content ≠ "" := by
  induction parser using feedLoop.induct with
  | case1 parser empty =>
    rw [feedLoop, dif_pos empty]
    simp
  | case2 parser more stuck =>
    rw [feedLoop, dif_neg more, dif_pos stuck]
    simp
  | case3 parser more goesOn later last looped ih =>
    rw [looped] at ih
    rw [feedLoop, dif_neg more, dif_neg goesOn, looped]
    intro part member
    rcases List.mem_append.mp member with here | isLater
    · have turn := parser.turn_parse
      revert here
      generalize parser.parse = result at turn
      intro here
      cases turn with
      | emits =>
        unfold emit at here
        split at here <;> exact chunkOf_visible here
      | closes => exact chunkOf_visible here
      | opens => exact chunkOf_visible here
    · exact ih part isLater

theorem outputs_visible (chunks : List String) : ∀ part ∈ outputs chunks, part.content ≠ "" := by
  have fed : ∀ (chunks : List String) (parser : ThinkTagParser),
      ∀ part ∈ (parser.feedAll chunks).1, part.content ≠ "" := by
    intro chunks
    induction chunks with
    | nil => simp [feedAll]
    | cons chunk chunks ih =>
      intro parser part member
      rcases List.mem_append.mp member with here | isLater
      · exact feedLoop_visible _ part here
      · exact ih _ part isLater
  intro part member
  rcases List.mem_append.mp member with here | flushed
  · exact fed chunks _ part here
  · exact chunkOf_visible flushed

/-- **The parser segments its text in one pass**, however the text is cut into chunks. -/
theorem outputs_segment (chunks : List String) :
    merged (outputs chunks) = segmentation (Py.join "" chunks) := by
  have free : Free false [] := by
    intro tag isTag position starts
    obtain ⟨others, isBracket, -⟩ := tag_bracket isTag
    rw [List.drop_nil, isBracket] at starts
    exact absurd (List.prefix_nil.mp starts) (List.cons_ne_nil _ _)
  obtain ⟨whole, left⟩ := @segment_feedAll {} free chunks
  rw [List.nil_append] at whole
  set last := (({} : ThinkTagParser).feedAll chunks).2 with isLast
  have held : segment last.inThinkTag last.buffer = typed last.flush.1.toList := by
    have all := @segment_free last.inThinkTag last.buffer [] (by
      intro position _ tag isTag starts
      rw [List.append_nil] at starts
      exact left tag isTag position starts)
    rw [List.append_nil] at all
    rw [all, flush, typed_chunkOf]
    exact List.append_nil _
  rw [merged_eq_grouped (outputs_visible chunks), segmentation, whole, outputs, typed_append, held]

/-- Two tags, and a near miss of one. -/
example : segmentation "a<think>b</thin</think>c" =
    [⟨.text, "a"⟩, ⟨.thinking, "b</thin"⟩, ⟨.text, "c"⟩] := by
  decide

end ThinkTagParser

end ClaudeProxy
