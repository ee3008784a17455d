/-
**Plain text through the OpenAI transport.**

* `textDeltas` — the `text_delta` payloads that the client receives, concatenated.
* `Writes` — the variables of a call that has written this text, and no thinking; `writes_writeText`,
  `writes_toolUses`.
* `Telling` — those of one that has read a plain text: what it has written and what its parsers keep
  are the text, but where a call was taken out; **`telling_handleChunk`**, **`delivers_closing`**.
* **`plainText_conserved_iff`** — when a plain text, cut in this way, reaches the client whole.
-/

import ClaudeProxy.Parsers.PlainText
import ClaudeProxy.Provider.OpenaiStopReason

namespace ClaudeProxy

open Json (getKey)
open RecoveryHoldbackBuffer (Outgoing)

/-! ### The text that the client receives -/

/-- The payload of a `text_delta`. -/
def SseEvent.textDelta? (event : SseEvent) : Option String :=
  if event.event = "content_block_delta" ∧ event.deltaType = .str "text_delta" then
    (getKey ((event.delta.asObj?).getD []) "text").asStr?
  else none

/-- The payloads of the `text_delta`s, concatenated. -/
def textDeltas (events : List SseEvent) : String :=
  Py.join "" (events.filterMap SseEvent.textDelta?)

@[simp] theorem textDeltas_append (first second : List SseEvent) :
    textDeltas (first ++ second) = textDeltas first ++ textDeltas second := by
  rw [textDeltas, List.filterMap_append, Py.join_append]
  rfl

theorem textDeltas_emitted (index : Int) (content : String) :
    textDeltas [contentBlockDelta index [("type", .str "text_delta"), ("text", .str content)]] =
      content :=
  Py.join_singleton "" content

/-- A chunk without reasoning and without tool calls. -/
def ChatChunk.ContentOnly (chunk : ChatChunk) : Prop :=
  (chunk.delta.bind ChoiceDelta.reasoningContent).getD "" = "" ∧ chunk.toolCalls = []

namespace OpenaiCall

variable {call : OpenaiCall} {state : ChatState}

/-! ### Writing text -/

/-- The call has written this text and nothing else. -/
structure Writes (told : String) (state : ChatState) : Prop where
  sent : ∃ out, Outgoing state.yielded state.holdback out ∧ textDeltas out = told
  tools : state.sse.blocks.toolStates = ∅
  thinking : state.sse.blocks.thinkingIndex = -1
  quiet : state.sse.blocks.thinkingStarted = false
  reasoning : state.sse.accumulatedReasoningParts = []
  nextIndex : 0 ≤ state.sse.blocks.nextIndex
  textIndex : state.sse.blocks.textIndex = -1 ↔ told = ""
  open_ : state.sse.blocks.textStarted = true → told ≠ ""
  aliasBuffers : state.aliasBuffers = ∅

theorem append_ne_empty {told content : String} (some : content ≠ "") : told ++ content ≠ "" := by
  intro empty
  have chars := congrArg String.toList empty
  rw [String.toList_append] at chars
  exact some (String.toList_injective (List.append_eq_nil_iff.mp chars).2)

/-- **A text that is written** comes behind what was written. -/
theorem writes_writeText {told content : String} (some : content ≠ "") (writes : Writes told state) :
    ∃ next, call.writeText content state = .ok () next ∧ Writes (told ++ content) next ∧
      next.parsers = state.parsers := by
  obtain ⟨out, outgoing, isTold⟩ := writes.sent
  have longer := @append_ne_empty told content some
  set emit := SseBuilder.ensureTextBlock.followedBy (SseBuilder.emitTextDelta content) with isEmit
  obtain ⟨holdback, pushes, yielded, run, pushed⟩ :=
    @pushAll_eq call { state with sse := (emit state.sse).2 } out outgoing (emit state.sse).1
  refine ⟨_, (write_eq emit state).trans (congrArg (EStateM.Result.ok ()) run), ?_, rfl⟩
  cases started : state.sse.blocks.textStarted with
  | true =>
    have emitted : emit state.sse = ([contentBlockDelta state.sse.blocks.textIndex
        [("type", .str "text_delta"), ("text", .str content)]],
        { state.sse with accumulatedTextParts := state.sse.accumulatedTextParts ++ [content] }) := by
      simp [isEmit, Emit.followedBy, SseBuilder.ensureTextBlock, SseBuilder.emitTextDelta,
        writes.quiet, started]
    rw [emitted] at pushed ⊢
    refine ⟨⟨_, pushed, ?_⟩, writes.tools, writes.thinking, writes.quiet, writes.reasoning,
      writes.nextIndex, ?_, fun _ => longer, writes.aliasBuffers⟩
    · rw [textDeltas_append, isTold]
      exact congrArg (told ++ ·) (textDeltas_emitted state.sse.blocks.textIndex content)
    · exact iff_of_false (fun none => writes.open_ started (writes.textIndex.mp none)) longer
  | false =>
    have emitted : emit state.sse = ([contentBlockStart state.sse.blocks.nextIndex
          [("type", .str "text"), ("text", .str "")],
        contentBlockDelta state.sse.blocks.nextIndex
          [("type", .str "text_delta"), ("text", .str content)]],
        { state.sse with
          accumulatedTextParts := state.sse.accumulatedTextParts ++ [content]
          blocks := { state.sse.blocks with
            nextIndex := state.sse.blocks.nextIndex + 1
            textIndex := state.sse.blocks.nextIndex
            textStarted := true } }) := by
      simp [isEmit, Emit.followedBy, SseBuilder.ensureTextBlock, SseBuilder.startTextBlock,
        SseBuilder.emitTextDelta, writes.quiet, started]
    have positive := writes.nextIndex
    rw [emitted] at pushed ⊢
    refine ⟨⟨_, pushed, ?_⟩, writes.tools, writes.thinking, writes.quiet, writes.reasoning, ?_, ?_,
      fun _ => longer, writes.aliasBuffers⟩
    · rw [textDeltas_append, isTold]
      exact congrArg (told ++ ·) (textDeltas_emitted state.sse.blocks.nextIndex content)
    · show 0 ≤ state.sse.blocks.nextIndex + 1
      omega
    · refine iff_of_false (fun none => ?_) longer
      change state.sse.blocks.nextIndex = -1 at none
      omega

/-- The end of a text block tells no text. -/
theorem closeContentBlocks_of_quiet {sse : SseBuilder} (quiet : sse.blocks.thinkingStarted = false) :
    textDeltas (SseBuilder.closeContentBlocks sse).1 = "" ∧ (SseBuilder.closeContentBlocks sse).2 =
      { sse with blocks := { sse.blocks with textStarted := false } } := by
  have whole : sse = { sse with blocks := { sse.blocks with
      thinkingStarted := sse.blocks.thinkingStarted
      textStarted := sse.blocks.textStarted } } := rfl
  rw [whole, quiet]
  cases sse.blocks.textStarted <;> exact ⟨rfl, rfl⟩

/-- **A call that is taken out** tells no text. -/
theorem writes_toolUse {told : String} (toolUse : HeuristicTool) (writes : Writes told state) :
    ∃ next, call.write (call.iterHeuristicToolUseSse toolUse) state = .ok () next ∧
      Writes told next ∧ next.parsers = state.parsers := by
  obtain ⟨out, outgoing, isTold⟩ := writes.sent
  set emit := call.iterHeuristicToolUseSse toolUse with isEmit
  obtain ⟨holdback, pushes, yielded, run, pushed⟩ :=
    @pushAll_eq call { state with sse := (emit state.sse).2 } out outgoing (emit state.sse).1
  refine ⟨_, (write_eq emit state).trans (congrArg (EStateM.Result.ok ()) run), ?_, rfl⟩
  have closed := closeContentBlocks_of_quiet writes.quiet
  have silent : textDeltas (emit state.sse).1 = "" := by
    rw [isEmit, iterHeuristicToolUseSse, Emit.followedBy, textDeltas_append, closed.1]
    rfl
  have blocks : (emit state.sse).2 = { state.sse with blocks := { state.sse.blocks with
      nextIndex := state.sse.blocks.nextIndex + 1
      textStarted := false } } := by
    rw [isEmit, iterHeuristicToolUseSse, Emit.followedBy]
    dsimp only
    rw [closed.2]
  have positive := writes.nextIndex
  rw [blocks]
  refine ⟨⟨_, pushed, ?_⟩, writes.tools, writes.thinking, writes.quiet, writes.reasoning, ?_,
    writes.textIndex, fun started => absurd started Bool.false_ne_true, writes.aliasBuffers⟩
  · rw [textDeltas_append, isTold, silent, String.append_empty]
  · show 0 ≤ state.sse.blocks.nextIndex + 1
    omega

/-- All the calls that are taken out. -/
theorem writes_toolUses {told : String} (toolUses : List HeuristicTool) (writes : Writes told state) :
    ∃ next, toolUses.forM (fun toolUse => call.write (call.iterHeuristicToolUseSse toolUse)) state =
        .ok () next ∧ Writes told next ∧ next.parsers = state.parsers := by
  induction toolUses generalizing state with
  | nil => exact ⟨state, rfl, writes, rfl⟩
  | cons toolUse toolUses ih =>
    obtain ⟨middle, ranFirst, writesFirst, parsersFirst⟩ := @writes_toolUse call _ _ toolUse writes
    obtain ⟨next, ranRest, writesRest, parsersRest⟩ := ih writesFirst
    exact ⟨next, bind_eq_ok.mpr ⟨(), middle, ranFirst, ranRest⟩, writesRest,
      parsersRest.trans parsersFirst⟩

/-! ### TextReading plain text -/

/-- The call has read this text and written `told`; its parsers keep what `reading` says. -/
structure Telling (reading : TextReading) (text : List Char) (told : String) (state : ChatState) :
    Prop where
  writes : Writes told state
  think : state.thinkParser = ⟨reading.pending, false⟩
  pending : reading.pending = partialEnd text
  waits : state.heuristicParser.Waits
  held : state.heuristicParser.buffer = reading.kept
  inside : ∃ front, front ++ reading.looked = settled text
  whole : reading.called = false → told.toList ++ reading.kept = settled text
  /-- What was taken out is missing. -/
  lost : reading.called = true → told.toList.length + reading.kept.length + 8 ≤ (settled text).length

/-- A part of the text, and the calls in it. -/
theorem writes_handleTextPart {told content : String} (writes : Writes told state)
    {result : String × List HeuristicTool × HeuristicToolParser}
    (fed : state.heuristicParser.feed call.heuristicId call.isAlnum call.runtime content =
      .ok result) :
    ∃ next, call.handleTextPart content state = .ok () next ∧ Writes (told ++ result.1) next ∧
      next.thinkParser = state.thinkParser ∧ next.heuristicParser = result.2.2 := by
  obtain ⟨filtered, tools, parser⟩ := result
  have fedWrites : Writes told { state with heuristicParser := parser } :=
    ⟨writes.sent, writes.tools, writes.thinking, writes.quiet, writes.reasoning, writes.nextIndex,
      writes.textIndex, writes.open_, writes.aliasBuffers⟩
  by_cases empty : filtered = ""
  · obtain ⟨next, ran, nextWrites, parsers⟩ := @writes_toolUses call _ _ tools fedWrites
    refine ⟨next, ?_, ?_, congrArg ContentParsers.think parsers,
      congrArg ContentParsers.heuristic parsers⟩
    · rw [handleTextPart, get_bind_eq_ok, fed]
      dsimp only
      rw [set_bind_eq_ok, if_neg (not_not.mpr empty)]
      exact ran
    · rwa [empty, String.append_empty]
  · obtain ⟨middle, wrote, middleWrites, middleParsers⟩ :=
      @writes_writeText call _ _ _ empty fedWrites
    obtain ⟨next, ran, nextWrites, parsers⟩ := @writes_toolUses call _ _ tools middleWrites
    have same := parsers.trans middleParsers
    refine ⟨next, ?_, nextWrites, congrArg ContentParsers.think same,
      congrArg ContentParsers.heuristic same⟩
    rw [handleTextPart, get_bind_eq_ok, fed]
    dsimp only
    rw [set_bind_eq_ok, if_pos empty]
    exact bind_eq_ok.mpr ⟨(), middle, wrote, ran⟩

/-- **A part of the text**: a call is taken out of it, or all that is not kept is written. -/
theorem plain_handleTextPart {told : String} {front piece back whole : List Char} {next : ChatState}
    (writes : Writes told state) (waits : state.heuristicParser.Waits)
    (plain : PlainText call.isAlnum whole)
    (isWhole : front ++ (state.heuristicParser.buffer ++ piece) ++ back = whole)
    (ran : call.handleTextPart (String.ofList piece) state = .ok () next) :
    next.thinkParser = state.thinkParser ∧ next.heuristicParser.Waits ∧ ∃ told', Writes told' next ∧
      (HeuristicToolParser.webCalled call.isAlnum call.runtime
            (state.heuristicParser.buffer ++ piece) = true ∧ told' = told ∧
          next.heuristicParser.buffer = [] ∧ 8 ≤ (state.heuristicParser.buffer ++ piece).length ∨
        HeuristicToolParser.webCalled call.isAlnum call.runtime
            (state.heuristicParser.buffer ++ piece) = false ∧
          next.heuristicParser.buffer = heldBack (state.heuristicParser.buffer ++ piece) ∧
          told'.toList ++ next.heuristicParser.buffer =
            told.toList ++ (state.heuristicParser.buffer ++ piece)) := by
  have markless : Markless (state.heuristicParser.buffer ++ piece) :=
    plain.toMarkless.of_infix ⟨front, back, isWhole⟩
  cases fed : state.heuristicParser.feed call.heuristicId call.isAlnum call.runtime
      (String.ofList piece) with
  | error error =>
    rw [handleTextPart, get_bind_eq_ok, fed] at ran
    exact nomatch ran
  | ok result =>
    obtain ⟨last, ranLast, lastWrites, think, heuristic⟩ := @writes_handleTextPart call _ _ _ writes _ fed
    cases ran.symm.trans ranLast
    have isPiece : (String.ofList piece).toList = piece := String.toList_ofList
    rw [heuristic]
    cases called : HeuristicToolParser.webCalled call.isAlnum call.runtime
        (state.heuristicParser.buffer ++ piece) with
    | true =>
      have matched : webToolCalls call.isAlnum none 0 (state.heuristicParser.buffer ++ piece) ≠ [] := by
        intro none_
        rw [HeuristicToolParser.webCalled, none_] at called
        exact Bool.false_ne_true called
      obtain ⟨long, atHead⟩ := webToolCalls_part plain isWhole matched
      obtain ⟨nothing, empty, waitsLast⟩ := HeuristicToolParser.feed_called call.heuristicId
        call.isAlnum call.runtime waits (by rwa [isPiece]) (by rwa [isPiece]) fed (by rwa [isPiece])
      refine ⟨think, waitsLast, told, ?_, .inl ⟨rfl, rfl, empty, long⟩⟩
      rwa [nothing, String.append_empty] at lastWrites
    | false =>
      obtain ⟨-, all, held, waitsLast⟩ := HeuristicToolParser.feed_markless call.heuristicId
        call.isAlnum call.runtime waits (by rwa [isPiece]) fed (by rwa [isPiece])
      rw [isPiece] at all held
      refine ⟨think, waitsLast, told ++ result.1, lastWrites, .inr ⟨rfl, held, ?_⟩⟩
      rw [String.toList_append, List.append_assoc, all]

theorem settled_partialEnd (text : List Char) : settled (partialEnd text) = [] := by
  have whole := settled_append (partialEnd text)
  rw [partialEnd_partialEnd] at whole
  exact List.append_left_eq_self.mp whole

/-- What the think-tag parser gives of the next piece follows what it gave. -/
theorem settled_next (text more : List Char) :
    settled (text ++ more) = settled text ++ settled (partialEnd text ++ more) := by
  have before := settled_append text
  have after := settled_append (partialEnd text ++ more)
  rw [partialEnd_append] at after
  -- both sides are read before the same rest, which may be the start of a tag
  have same : settled (text ++ more) ++ partialEnd (text ++ more)
      = settled text ++ settled (partialEnd text ++ more) ++ partialEnd (text ++ more) := by
    rw [settled_append, List.append_assoc, after, ← List.append_assoc, before]
  exact List.append_cancel_right same

/-- **The content of a chunk** is read on. -/
theorem telling_handleContent {reading : TextReading} {text whole back : List Char} {told content : String}
    {next : ChatState} (telling : Telling reading text told state)
    (plain : PlainText call.isAlnum whole) (isWhole : text ++ content.toList ++ back = whole)
    (ran : call.handleContent content state = .ok () next) :
    ∃ told', Telling (reading.next call.isAlnum call.runtime content) (text ++ content.toList) told'
      next := by
  have writes := telling.writes
  have thought : ∀ thinkParser, Writes told { state with thinkParser } := fun _ =>
    ⟨writes.sent, writes.tools, writes.thinking, writes.quiet, writes.reasoning, writes.nextIndex,
      writes.textIndex, writes.open_, writes.aliasBuffers⟩
  have further := settled_next text content.toList
  have rest : reading.pending ++ content.toList = partialEnd text ++ content.toList := by
    rw [telling.pending]
  set piece := settled (partialEnd text ++ content.toList) with isPiece
  -- without a piece for the heuristic parser only the think-tag parser goes on
  have quiet : piece = [] → state.thinkParser = ⟨partialEnd text, false⟩ →
      ∃ told', Telling (reading.next call.isAlnum call.runtime content) (text ++ content.toList) told'
        { state with thinkParser := ⟨partialEnd (text ++ content.toList), false⟩ } := by
    intro none _
    have same : reading.next call.isAlnum call.runtime content =
        { reading with pending := partialEnd (text ++ content.toList) } := by
      rw [TextReading.next, rest, ← isPiece, none, partialEnd_append]
      exact if_pos rfl
    rw [none, List.append_nil] at further
    rw [same]
    refine ⟨told, thought _, rfl, rfl, telling.waits, telling.held, ?_, ?_, ?_⟩
    · rw [further]
      exact telling.inside
    · rw [further]
      exact telling.whole
    · rw [further]
      exact telling.lost
  have think : state.thinkParser = ⟨partialEnd text, false⟩ := by rw [telling.think, telling.pending]
  by_cases empty : content = ""
  · have none : piece = [] := by
      rw [isPiece, empty]
      show settled (partialEnd text ++ []) = []
      rw [List.append_nil, settled_partialEnd]
    have stays : { state with thinkParser := ⟨partialEnd (text ++ content.toList), false⟩ } = state := by
      rw [empty]
      show { state with thinkParser := ⟨partialEnd (text ++ []), false⟩ } = state
      rw [List.append_nil, ← think]
    rw [handleContent, if_neg (not_not.mpr empty)] at ran
    cases ran
    exact stays ▸ quiet none think
  · have infixEnd : partialEnd text ++ content.toList <:+: whole := by
      obtain ⟨front, isFront⟩ := partialEnd_suffix text
      refine ⟨front, back, ?_⟩
      rw [← List.append_assoc, isFront, isWhole]
    have fed : state.thinkParser.feed content =
        ((chunkOf .text piece).toList, ⟨partialEnd (text ++ content.toList), false⟩) := by
      rw [think, ThinkTagParser.feed_untagged (fun inside => plain.openFree (inside.trans infixEnd))
        (fun inside => plain.closeFree (inside.trans infixEnd)), partialEnd_append]
    rw [handleContent, if_pos empty, get_bind_eq_ok, fed] at ran
    by_cases none : piece = []
    · rw [chunkOf, if_pos none] at ran
      cases ran
      exact quiet none think
    · rw [chunkOf, if_neg none] at ran
      obtain ⟨⟨⟩, middle, ranPart, isMiddle⟩ := bind_eq_ok.mp (set_bind_eq_ok.mp ran)
      cases isMiddle
      obtain ⟨front, isLooked⟩ := telling.inside
      obtain ⟨dropped, isDropped⟩ := heldBack_suffix reading.looked
      have isKept : front ++ dropped ++ reading.kept = settled text := by
        rw [List.append_assoc, TextReading.kept, isDropped, isLooked]
      have isText : front ++ dropped ++ (reading.kept ++ piece) = settled (text ++ content.toList) := by
        rw [← List.append_assoc, isKept, further]
      have size := congrArg List.length further
      rw [List.length_append] at size
      obtain ⟨thinkNext, waits, told', toldWrites, taken⟩ :=
        @plain_handleTextPart call
          { state with thinkParser := ⟨partialEnd (text ++ content.toList), false⟩ } told
          (front ++ dropped) piece (partialEnd (text ++ content.toList) ++ back) whole next (thought _)
          telling.waits plain (by
            show front ++ dropped ++ (state.heuristicParser.buffer ++ piece) ++ _ = whole
            rw [telling.held, isText, ← List.append_assoc, settled_append, isWhole]) ranPart
      change (HeuristicToolParser.webCalled call.isAlnum call.runtime
          (state.heuristicParser.buffer ++ piece) = true ∧ _ ∧ _ ∧
            8 ≤ (state.heuristicParser.buffer ++ piece).length ∨
        HeuristicToolParser.webCalled call.isAlnum call.runtime
          (state.heuristicParser.buffer ++ piece) = false ∧
          _ = heldBack (state.heuristicParser.buffer ++ piece) ∧
          _ = told.toList ++ (state.heuristicParser.buffer ++ piece)) at taken
      rw [telling.held] at taken
      have isNext : reading.next call.isAlnum call.runtime content =
          if HeuristicToolParser.webCalled call.isAlnum call.runtime (reading.kept ++ piece) then
            { pending := partialEnd (text ++ content.toList), called := true }
          else { reading with
            pending := partialEnd (text ++ content.toList), looked := reading.kept ++ piece } := by
        rw [TextReading.next, rest, ← isPiece, partialEnd_append]
        exact if_neg none
      have toldText : reading.called = false →
          told.toList ++ (reading.kept ++ piece) = settled (text ++ content.toList) := by
        intro uncalled
        rw [← List.append_assoc, telling.whole uncalled, further]
      have shorter : told.toList.length + reading.kept.length ≤ (settled text).length := by
        cases called : reading.called with
        | true => exact (Nat.le_add_right _ 8).trans (telling.lost called)
        | false => rw [← List.length_append, telling.whole called]
      rw [isNext]
      rcases taken with ⟨called, rfl, none_, long⟩ | ⟨uncalled, held, all⟩
      · rw [if_pos called]
        rw [List.length_append] at long
        refine ⟨told', toldWrites, thinkNext, rfl, waits, none_, ⟨_, List.append_nil _⟩,
          fun never => absurd never.symm Bool.false_ne_true, fun _ => ?_⟩
        show told'.toList.length + 0 + 8 ≤ _
        omega
      · rw [if_neg (Bool.eq_false_iff.mp uncalled)]
        refine ⟨told', toldWrites, thinkNext, rfl, waits, held, ⟨_, isText⟩, fun never => ?_,
          fun before => ?_⟩
        · show told'.toList ++ heldBack (reading.kept ++ piece) = _
          rw [← held, all, toldText never]
        · have sizes := congrArg List.length all
          have missing := telling.lost before
          simp only [List.length_append] at sizes
          show told'.toList.length + (heldBack (reading.kept ++ piece)).length + 8 ≤ _
          rw [← held]
          omega

/-- **A chunk** is read on. -/
theorem telling_handleChunk {reading : TextReading} {text whole back : List Char} {told : String}
    {chunk : ChatChunk} {next : ChatState} (only : chunk.ContentOnly)
    (telling : Telling reading text told state) (plain : PlainText call.isAlnum whole)
    (isWhole : text ++ chunk.content.toList ++ back = whole)
    (ran : call.handleChunk chunk state = .ok () next) :
    ∃ told', Telling (reading.next call.isAlnum call.runtime chunk.content)
      (text ++ chunk.content.toList) told' next := by
  obtain ⟨noReasoning, noCalls⟩ := only
  have noted : ∀ usage finishReason, Telling reading text told { state with usage, finishReason } :=
    fun _ _ => ⟨⟨telling.writes.sent, telling.writes.tools, telling.writes.thinking,
      telling.writes.quiet, telling.writes.reasoning, telling.writes.nextIndex,
      telling.writes.textIndex, telling.writes.open_, telling.writes.aliasBuffers⟩, telling.think,
      telling.pending, telling.waits, telling.held, telling.inside, telling.whole, telling.lost⟩
  -- a chunk without content is read as one whose content is empty
  have nothing : ∀ usage, call.handleContent "" { state with usage } = .ok () { state with usage } :=
    fun _ => rfl
  rcases chunk with ⟨_ | ⟨⟨_ | delta, reason⟩, rest⟩, usage⟩
  · cases ran
    exact telling_handleContent (noted _ _) plain isWhole (nothing _)
  · cases ran
    exact telling_handleContent (noted _ _) plain isWhole (nothing _)
  · change delta.reasoningContent.getD "" = "" at noReasoning
    change delta.toolCalls = [] at noCalls
    rw [handleChunk, modify_bind_eq_ok] at ran
    dsimp only at ran
    rw [modify_bind_eq_ok, handleReasoning, if_neg fun given => given.2 noReasoning] at ran
    obtain ⟨⟨⟩, silent, isSilent, ranRest⟩ := bind_eq_ok.mp ran
    cases isSilent
    obtain ⟨⟨⟩, last, ranContent, ranCalls⟩ := bind_eq_ok.mp ranRest
    rw [handleToolCalls, if_neg (not_not.mpr noCalls)] at ranCalls
    cases ranCalls
    exact telling_handleContent (noted _ _) plain isWhole ranContent

/-- The contents of a stream, one behind the other. -/
def contentText (chunks : List ChatChunk) : String := Py.join "" (chunks.map ChatChunk.content)

theorem contentText_cons (chunk : ChatChunk) (chunks : List ChatChunk) :
    (contentText (chunk :: chunks)).toList = chunk.content.toList ++ (contentText chunks).toList := by
  rw [contentText, List.map_cons, ← List.singleton_append, Py.join_append, Py.join_singleton,
    String.toList_append]
  rfl

/-- **The chunk loop** reads the text on. -/
theorem telling_chunks {reading : TextReading} {text whole : List Char} {told : String}
    {chunks : List ChatChunk} {next : ChatState} (only : ∀ chunk ∈ chunks, chunk.ContentOnly)
    (telling : Telling reading text told state) (plain : PlainText call.isAlnum whole)
    (isWhole : text ++ (contentText chunks).toList = whole)
    (ran : chunks.forM call.handleChunk state = .ok () next) :
    ∃ told', Telling ((chunks.map ChatChunk.content).foldl
      (TextReading.next call.isAlnum call.runtime) reading) whole told' next := by
  induction chunks generalizing state reading text told with
  | nil =>
    cases ran
    change text ++ [] = whole at isWhole
    rw [List.append_nil] at isWhole
    exact ⟨told, isWhole ▸ telling⟩
  | cons chunk chunks ih =>
    rw [contentText_cons, ← List.append_assoc] at isWhole
    obtain ⟨⟨⟩, middle, ranFirst, ranRest⟩ := bind_eq_ok.mp ran
    obtain ⟨toldFirst, tellingFirst⟩ :=
      telling_handleChunk (only chunk List.mem_cons_self) telling plain isWhole ranFirst
    exact ih (fun other inside => only other (List.mem_cons_of_mem _ inside)) tellingFirst isWhole ranRest

/-! ### The end of the text -/

/-- A message without text gets a blank. -/
def shown (told : String) : String := if told = "" then " " else told

/-- What the think-tag parser holds is written. -/
theorem writes_flushThinkParser {reading : TextReading} {text : List Char} {told : String}
    (telling : Telling reading text told state) :
    ∃ next, call.flushThinkParser state = .ok () next ∧
      Writes (told ++ String.ofList (partialEnd text)) next ∧
      next.heuristicParser = state.heuristicParser := by
  have writes := telling.writes
  have emptied : ∀ thinkParser, Writes told { state with thinkParser } := fun _ =>
    ⟨writes.sent, writes.tools, writes.thinking, writes.quiet, writes.reasoning,
      writes.nextIndex, writes.textIndex, writes.open_, writes.aliasBuffers⟩
  have flushed : state.thinkParser.flush = (chunkOf .text (partialEnd text), ⟨[], false⟩) := by
    rw [telling.think, telling.pending]
    rfl
  by_cases none : partialEnd text = []
  · refine ⟨{ state with thinkParser := ⟨[], false⟩ }, ?_, ?_, rfl⟩
    · rw [flushThinkParser, get_bind_eq_ok, flushed, chunkOf, if_pos none]
      rfl
    · rw [none, String.ofList_nil, String.append_empty]
      exact emptied _
  · have some : String.ofList (partialEnd text) ≠ "" := fun empty =>
      none (by simpa using congrArg String.toList empty)
    obtain ⟨next, wrote, nextWrites, parsers⟩ :=
      @writes_writeText call _ _ _ some (emptied ⟨[], false⟩)
    refine ⟨next, ?_, nextWrites, congrArg ContentParsers.heuristic parsers⟩
    rw [flushThinkParser, get_bind_eq_ok, flushed, chunkOf, if_neg none]
    exact set_bind_eq_ok.mpr wrote

/-- A parser that is at no call gives no tool call out at the end. -/
theorem flush_of_waits {parser : HeuristicToolParser} (waits : parser.Waits) :
    parser.flush.1 = [] := by
  rcases waits with isText | ⟨isMatching, -⟩
  · rw [HeuristicToolParser.flush, isText]
  · rw [HeuristicToolParser.flush, isMatching]

/-- The minimal text block. -/
theorem writes_ensureContent {told : String} (writes : Writes told state) :
    ∃ next, call.ensureContent state = .ok () next ∧ Writes (shown told) next := by
  have noStarted : state.sse.blocks.hasEmittedToolBlock = false := by
    rw [ContentBlockManager.hasEmittedToolBlock, writes.tools]
    rfl
  have noReasoning : Py.strip state.sse.accumulatedReasoning = "" := by
    rw [SseBuilder.accumulatedReasoning, writes.reasoning]
    decide
  rw [ensureContent, shown]
  by_cases blank : told = ""
  · have none : state.sse.blocks.textIndex = -1 := writes.textIndex.mpr blank
    obtain ⟨next, wrote, nextWrites, -⟩ := @writes_writeText call _ _ " " (by decide) writes
    refine ⟨next, ?_, ?_⟩
    · rw [get_bind_eq_ok]
      simpa [none, writes.thinking, noStarted] using wrote
    · rw [if_pos blank]
      rwa [blank, String.empty_append] at nextWrites
  · have some : state.sse.blocks.textIndex ≠ -1 := fun none => blank (writes.textIndex.mp none)
    refine ⟨state, ?_, ?_⟩
    · rw [get_bind_eq_ok]
      simp [some, noReasoning]
      rfl
    · rwa [if_neg blank]

/-- The end of all blocks tells no text. -/
theorem closeAllBlocks_silent {told : String} (writes : Writes told state) :
    textDeltas (SseBuilder.closeAllBlocks state.sse).1 = "" := by
  have noTools : ∀ sse : SseBuilder, sse.blocks.toolStates = ∅ → sse.startedToolStates = [] := by
    intro sse none
    rw [SseBuilder.startedToolStates, none]
    rfl
  unfold SseBuilder.closeAllBlocks SseBuilder.closeContentBlocks Emit.followedBy
  cases started : state.sse.blocks.textStarted with
  | true =>
    simp only [writes.quiet, started, Bool.false_eq_true, if_false, if_true, SseBuilder.stopTextBlock]
    rw [noTools]
    · rfl
    · exact writes.tools
  | false =>
    simp only [writes.quiet, started, Bool.false_eq_true, if_false]
    rw [noTools _ writes.tools]
    rfl

/-- What is flushed and closed before the last two events. -/
def closing (call : OpenaiCall) : Chat Unit := do
  call.flushContent
  call.flushTaskArgBuffers
  call.write SseBuilder.closeAllBlocks

/-- **All that is flushed**: the rest of the text, or a blank. -/
theorem delivers_closing {reading : TextReading} {text : List Char} {told : String}
    (telling : Telling reading text told state) :
    ∃ next out, call.closing state = .ok () next ∧ Outgoing next.yielded next.holdback out ∧
      textDeltas out = shown (told ++ String.ofList (partialEnd text)) := by
  obtain ⟨thought, ranThink, writes, heuristic⟩ := @writes_flushThinkParser call _ _ _ _ telling
  set said := told ++ String.ofList (partialEnd text)
  have noTools : thought.heuristicParser.flush.1 = [] := by
    rw [heuristic]
    exact flush_of_waits telling.waits
  set detected : ChatState :=
    { thought with heuristicParser := thought.heuristicParser.flush.2 } with isDetected
  have ranHeuristic : call.flushHeuristicParser thought = .ok () detected := by
    rw [flushHeuristicParser, get_bind_eq_ok]
    rcases flushed : thought.heuristicParser.flush with ⟨toolUses, parser⟩
    rw [flushed] at noTools isDetected
    dsimp only at noTools isDetected ⊢
    rw [set_bind_eq_ok, noTools, isDetected]
    rfl
  have kept : Writes said detected :=
    ⟨writes.sent, writes.tools, writes.thinking, writes.quiet, writes.reasoning, writes.nextIndex,
      writes.textIndex, writes.open_, writes.aliasBuffers⟩
  obtain ⟨filled, ranContent, filledWrites⟩ := @writes_ensureContent call _ _ kept
  have ranAliases : call.flushToolArgumentAliasBuffers filled = .ok () filled := by
    rw [flushToolArgumentAliasBuffers, get_bind_eq_ok, filledWrites.aliasBuffers]
    rfl
  have ranTask : call.flushTaskArgBuffers filled = .ok () filled := by
    have nothing :
        filled.sse.blocks.flushTaskArgBuffers call.runtime = .ok ([], filled.sse.blocks) := by
      rw [ContentBlockManager.flushTaskArgBuffers, filledWrites.tools]
      rfl
    rw [flushTaskArgBuffers, get_bind_eq_ok, nothing]
    rfl
  have ranFlush : call.flushContent state = .ok () filled :=
    bind_eq_ok.mpr ⟨(), thought, ranThink, bind_eq_ok.mpr ⟨(), detected, ranHeuristic,
      bind_eq_ok.mpr ⟨(), filled, ranContent, ranAliases⟩⟩⟩
  obtain ⟨out, outgoing, isTold⟩ := filledWrites.sent
  obtain ⟨holdback, pushes, yielded, run, pushed⟩ :=
    @pushAll_eq call { filled with sse := (SseBuilder.closeAllBlocks filled.sse).2 } out outgoing
      (SseBuilder.closeAllBlocks filled.sse).1
  have ranClose : call.write SseBuilder.closeAllBlocks filled = .ok () _ :=
    (write_eq SseBuilder.closeAllBlocks filled).trans (congrArg (EStateM.Result.ok ()) run)
  refine ⟨_, _, bind_eq_ok.mpr ⟨(), filled, ranFlush, bind_eq_ok.mpr ⟨(), filled, ranTask, ranClose⟩⟩,
    pushed, ?_⟩
  rw [textDeltas_append, isTold, closeAllBlocks_silent filledWrites, String.append_empty]

/-- The last two events, behind all the others. -/
def ending (call : OpenaiCall) : Chat Unit := do
  let outputTokens ← call.outputTokens
  let state ← get
  call.holdEvents [state.sse.messageDelta (mapStopReason state.finishReason) outputTokens]
  call.holdEvents [SseBuilder.messageStop]
  flushHoldback

theorem finish_eq (call : OpenaiCall) : call.finish = (do call.closing; call.ending) := by
  rw [finish, closing, bind_assoc]
  refine congrArg (call.flushContent >>= ·) (funext fun _ => ?_)
  rw [bind_assoc]
  rfl

/-- The last two events tell no text. -/
theorem delivers_ending {out : List SseEvent} {next : ChatState}
    (outgoing : Outgoing state.yielded state.holdback out) (ran : call.ending state = .ok () next) :
    textDeltas next.yielded = textDeltas out := by
  unfold ending at ran
  obtain ⟨tokens, counted, estimated, countedRan⟩ := bind_eq_ok.mp ran
  obtain rfl := state_of_outputTokens estimated
  rw [get_bind_eq_ok] at countedRan
  obtain ⟨⟨⟩, delta, heldDelta, deltaRan⟩ := bind_eq_ok.mp countedRan
  obtain ⟨⟨⟩, stop, heldStop, lastRan⟩ := bind_eq_ok.mp deltaRan
  cases heldDelta
  cases heldStop
  cases lastRan
  set last := counted.sse.messageDelta (mapStopReason counted.finishReason) tokens
  have pushed := (outgoing.push last (call.measured counted.pushes last)).push SseBuilder.messageStop
    (call.measured (counted.pushes + 1) SseBuilder.messageStop)
  have given := pushed.flushed
  have silent : textDeltas (out ++ [last] ++ [SseBuilder.messageStop]) = textDeltas out := by
    rw [textDeltas_append, textDeltas_append]
    show textDeltas out ++ "" ++ "" = textDeltas out
    rw [String.append_empty, String.append_empty]
  rw [← silent, ← given]
  rfl

/-! ### Complete responses -/

/-- An attempt that begins has read nothing. -/
theorem telling_begun {ids : Nat} {requests : Nat} {body : Body}
    {toolArgumentAliases : Dict String (Dict String String)} (begun : Begun call ids state) :
    Telling {} [] "" { state with streamOpened := true, body, requests, toolArgumentAliases } := by
  have think : state.thinkParser = {} := congrArg ContentParsers.think begun.parsers
  have heuristic : state.heuristicParser = { ids } :=
    congrArg ContentParsers.heuristic begun.parsers
  refine ⟨⟨⟨[], begun.outgoing, rfl⟩, ?_, ?_, ?_, ?_, ?_, ?_, ?_, begun.aliasBuffers⟩, think, rfl, ?_,
    ?_, ⟨[], rfl⟩, fun _ => rfl, nofun⟩
  · rw [begun.sse]
    rfl
  · rw [begun.sse]
    rfl
  · rw [begun.sse]
    rfl
  · rw [begun.sse]
    rfl
  · rw [begun.sse]
    exact le_rfl
  · rw [begun.sse]
    exact iff_of_true rfl rfl
  · rw [begun.sse]
    exact fun started => absurd started Bool.false_ne_true
  · show HeuristicToolParser.Waits state.heuristicParser
    rw [heuristic]
    exact Or.inl rfl
  · show state.heuristicParser.buffer = []
    rw [heuristic]

/-- What the parsers of a response have kept at its end. -/
def reading (call : OpenaiCall) (upstream : Upstream) : TextReading :=
  TextReading.ofPieces call.isAlnum call.runtime (upstream.chunks.map ChatChunk.content)

/-- **What the client receives** of a plain text: all but what the heuristic parser keeps or takes
out. -/
theorem delivers_of_completes {upstream : Upstream} {final : ChatState} {retries ids : Nat}
    (completes : Completes call upstream final retries state) (begun : Begun call ids state)
    (only : ∀ chunk ∈ upstream.chunks, chunk.ContentOnly) {text : List Char}
    (isText : (contentText upstream.chunks).toList = text) (plain : PlainText call.isAlnum text) :
    ∃ told ended, Telling (call.reading upstream) text told ended ∧
      textDeltas final.yielded = shown (told ++ String.ofList (partialEnd text)) := by
  induction completes generalizing ids with
  | @finishes retries requests state ended stream body used created chunks aliases connected
      finished =>
    have loop := connect_ok created aliases connected
    rw [chunks] at loop
    have start := @telling_begun call state ids requests body upstream.aliases begun
    obtain ⟨told, telling⟩ := telling_chunks only start plain isText loop
    obtain ⟨closed, out, closing, outgoing, delivers⟩ := @delivers_closing call _ _ _ _ telling
    rw [finish_eq] at finished
    obtain ⟨⟨⟩, left, closes, ends⟩ := bind_eq_ok.mp finished
    cases closes.symm.trans closing
    exact ⟨told, _, telling, (delivers_ending outgoing ends).trans delivers⟩
  | startsOver interrupted _ again _ ih =>
    have kept := keeps_connect.of_error (Kept.fresh begun.sse begun.outgoing begun.aliasBuffers)
      interrupted
    exact ih (begun_startOver kept again)

/-- The client of the response receives its text. -/
def Conserved (call : OpenaiCall) (upstream : Upstream) : Prop :=
  textDeltas call.streamResponse.1 = contentText upstream.chunks

instance (call : OpenaiCall) (upstream : Upstream) : Decidable (Conserved call upstream) :=
  inferInstanceAs (Decidable (_ = _))

/-- What is written and given out at the end is the text. -/
theorem shown_eq_iff {reading : TextReading} {text : String} {told : String}
    (telling : Telling reading text.toList told state) :
    shown (told ++ String.ofList (partialEnd text.toList)) = text ↔
      text ≠ "" ∧ reading.called = false ∧ Released reading.looked := by
  have whole := settled_append text.toList
  rw [← heldBack_eq_nil_iff]
  constructor
  · intro received
    rw [shown] at received
    split_ifs at received with blank
    · -- a text that is one blank is written, not made up
      exfalso
      have isBlank : text.toList = [' '] := by
        rw [← received]
        rfl
      have isTold : told.toList = [] := by
        have chars := congrArg String.toList blank
        rw [String.toList_append] at chars
        exact (List.append_eq_nil_iff.mp chars).1
      have alone : settled [' '] = [' '] := by decide
      have nothing : heldBack [' '] = [] := by decide
      cases called : reading.called with
      | true =>
        have missing := telling.lost called
        rw [isBlank, alone, List.length_singleton] at missing
        omega
      | false =>
        have all := telling.whole called
        obtain ⟨front, isLooked⟩ := telling.inside
        rw [isTold, List.nil_append, isBlank, alone, TextReading.kept] at all
        rw [isBlank, alone] at isLooked
        rcases List.suffix_cons_iff.mp ⟨front, isLooked⟩ with same | none_
        · rw [same, nothing] at all
          exact List.cons_ne_nil _ _ all.symm
        · rw [List.suffix_nil.mp none_] at all
          exact List.cons_ne_nil _ _ all.symm
    · have chars := congrArg String.toList received
      rw [String.toList_append, String.toList_ofList] at chars
      have same : told.toList = settled text.toList := List.append_cancel_right (chars.trans whole.symm)
      refine ⟨fun empty => blank (received.trans empty), ?_⟩
      cases called : reading.called with
      | true =>
        have missing := telling.lost called
        rw [same] at missing
        omega
      | false =>
        have all := telling.whole called
        rw [← same] at all
        exact ⟨rfl, List.append_right_eq_self.mp all⟩
  · rintro ⟨some, uncalled, released⟩
    have all := telling.whole uncalled
    rw [TextReading.kept, released, List.append_nil] at all
    have isText : told ++ String.ofList (partialEnd text.toList) = text := by
      apply String.toList_injective
      rw [String.toList_append, String.toList_ofList, all, whole]
    rw [isText, shown, if_neg some]

/-- **A plain text that comes in these pieces reaches the client whole** exactly when it is not empty,
none of it was taken for a call of a web tool, and nothing of what was looked at last is held back: the
end of the stream drops that. -/
theorem plainText_conserved_iff {upstream : Upstream} {final : ChatState}
    (responds : Responds call upstream final) (only : ∀ chunk ∈ upstream.chunks, chunk.ContentOnly)
    (plain : PlainText call.isAlnum (contentText upstream.chunks).toList) :
    Conserved call upstream ↔ contentText upstream.chunks ≠ "" ∧
      (call.reading upstream).called = false ∧ Released (call.reading upstream).looked := by
  obtain ⟨told, ended, telling, delivers⟩ :=
    delivers_of_completes responds (begun_initialState call) only rfl plain
  rw [Conserved, streamResponse_of_responds responds, ← List.singleton_append, textDeltas_append,
    delivers, ← shown_eq_iff telling]
  exact iff_of_eq (congrArg (· = _) String.empty_append)

/-- A script of contents. -/
def contents (pieces : List String) : List ChatChunk :=
  pieces.map (fun piece => ⟨[⟨some { content := some piece }, none⟩], none⟩) ++
    [⟨[⟨some {}, some "stop"⟩], none⟩]

theorem contents_only (pieces : List String) : ∀ chunk ∈ contents pieces, chunk.ContentOnly := by
  intro chunk member
  rcases List.mem_append.mp member with inside | last
  · obtain ⟨piece, -, rfl⟩ := List.mem_map.mp inside
    exact ⟨rfl, rfl⟩
  · rw [List.mem_singleton.mp last]
    exact ⟨rfl, rfl⟩

/-- Unfinished marks in the middle of a text, the name of a tool in a longer word, and the beginning of
a tag at the end. -/
theorem nearMisses_conserved : Conserved (scripted (contents ["1 <| a ", "> my", "WebFetcher |> 2 </", "th"]))
    ⟨contents ["1 <| a ", "> my", "WebFetcher |> 2 </", "th"], ∅, 0⟩ := by
  obtain ⟨final, responds⟩ := @scripted_responds
    (contents ["1 <| a ", "> my", "WebFetcher |> 2 </", "th"]) (by decide +kernel)
  exact (plainText_conserved_iff responds (contents_only _) (by decide +kernel)).mpr
    ⟨by decide +kernel, by decide +kernel, by decide +kernel⟩

/-- The last item of a list is dropped. -/
theorem lastBullet_dropped :
    (∃ final, Responds (scripted (contents ["Plan:\n", "● go"])) ⟨contents ["Plan:\n", "● go"], ∅, 0⟩ final) ∧
      PlainText Char.isAlphanum (contentText (contents ["Plan:\n", "● go"])).toList ∧
      ¬ Conserved (scripted (contents ["Plan:\n", "● go"])) ⟨contents ["Plan:\n", "● go"], ∅, 0⟩ :=
  ⟨scripted_responds (by decide +kernel), by decide +kernel, by decide +kernel⟩

end OpenaiCall

end ClaudeProxy
