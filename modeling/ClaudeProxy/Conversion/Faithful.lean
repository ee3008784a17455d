/-
**What the chat messages say.**

* `Block.contentText`, `Block.reasoningText` — the text a block is written as, by the place it is
  written to; `ToolCall.Copies` — an entry of `tool_calls` with the values of its block.
* `ChatMessage.Faithful` — every piece of a chat message that was read from a block is that block's
  text, and is in the string that is sent; every tool call has its block's values, and a tool message
  its result's id.
* `Yields` — a run that, if it returns, yields a value with a property; closed under sequencing and
  loops, so that each loop of the converter has one lemma.
* **`convertMessages_faithful`** — whatever `convert_messages` returns is faithful, and holds the
  texts of the string messages in order.
-/

import ClaudeProxy.Conversion.Chat

namespace ClaudeProxy

/-! ### What a block is written as -/

/-- The text of a block in the content of a chat message of this role. -/
def Block.contentText (printing : Printing) : ChatRole → Block → Option String
  | .assistant, .text given => some given
  | .user, .text given => some given
  | .assistant, .thinking thought => some s!"<think>\n{thought}\n</think>"
  | .tool, .toolResult _ content => some (serializeToolResultContent printing content)
  | _, _ => none

/-- The text of a block in the `reasoning_content` of a chat message. -/
def Block.reasoningText : Block → Option String
  | .thinking thought => some thought
  | _ => none

section Faithful

variable {β : Type} (view : β → Block) (printing : Printing)

/-- `block.tool_use_id`. -/
def resultId (block : β) : Option String :=
  match view block with
  | .toolResult id _ => id
  | _ => none

/-- The pieces that were read from a block are what the block says, and every piece is in the
rendered string. -/
structure Text.Says (text : Text β) (written : Block → Option String) : Prop where
  reads : ∀ part ∈ text.parts, ∀ block, part.source = some block →
    written (view block) = some part.text
  shows : ∀ part ∈ text.parts, ∃ before after, text.render = before ++ part.text ++ after

/-- The entry has the id, the name, the printed input and the extra content of its block. -/
structure ToolCall.Copies (call : ToolCall β) : Prop where
  block : ∃ input extraContent, view call.source = .toolUse call.id call.name input extraContent ∧
    (call.arguments = printing.dumps input ∨
      (∀ fields, input ≠ .obj fields) ∧ call.arguments = printing.str input) ∧
    ∀ key value fields, extraContent = .obj ((key, value) :: fields) →
      call.extraContent = some ((key, value) :: fields)

/-- Every piece of the chat message that was read from a block is what that block says. -/
structure ChatMessage.Faithful (message : ChatMessage β) : Prop where
  content : message.content.Says view (Block.contentText printing message.role)
  reasoning : message.reasoningContent.Says view Block.reasoningText
  toolCalls : ∀ call ∈ message.toolCalls, call.Copies view printing
  toolCallId : message.role = .tool → ∀ block ∈ message.content.sources,
    message.toolCallId = resultId view block

/-- The pieces of the content that no block is the source of. -/
def ChatMessage.plainTexts (message : ChatMessage β) : List String :=
  (message.content.parts.filter fun part => part.source.isNone).map Part.text

/-- The text of a string message, behind the reasoning where that is replayed in its tags. -/
def Message.plainTexts (replay : ReasoningReplayMode) (message : Message β) : List String :=
  match message.content with
  | .blocks _ => []
  | .plain text =>
    match message.role, cleanReasoningContent message.reasoningContent, replay with
    | .assistant, some thought, .thinkTags =>
      s!"<think>\n{thought}\n</think>" :: (if text = "" then [] else [text])
    | _, _, _ => [text]

/-! ### Rendering -/

/-- A joined part is in the text. -/
theorem mem_join (separator : String) {parts : List String} {part : String}
    (member : part ∈ parts) :
    ∃ before after, Py.join separator parts = before ++ part ++ after := by
  induction parts with
  | nil => exact absurd member List.not_mem_nil
  | cons head rest ih =>
    cases rest with
    | nil =>
      obtain rfl := List.mem_singleton.mp member
      refine ⟨"", "", ?_⟩
      rw [Py.join_singleton, String.empty_append, String.append_empty]
    | cons second later =>
      have apart : Py.join separator (head :: second :: later) =
          head ++ separator ++ Py.join separator (second :: later) :=
        String.intercalate_cons_cons
      rcases List.mem_cons.mp member with rfl | member
      · refine ⟨"", separator ++ Py.join separator (second :: later), ?_⟩
        rw [apart, String.empty_append, String.append_assoc]
      · obtain ⟨before, after, found⟩ := ih member
        refine ⟨head ++ separator ++ before, after, ?_⟩
        rw [apart, found, String.append_assoc, String.append_assoc, String.append_assoc,
          String.append_assoc, String.append_assoc]

/-- Every part is in the string that is written. -/
theorem Text.shows_of_mem (text : Text β) {part : Part β} (member : part ∈ text.parts) :
    ∃ before after, text.render = before ++ part.text ++ after := by
  obtain ⟨before, after, found⟩ := mem_join text.separator (List.mem_map_of_mem (f := Part.text) member)
  unfold Text.render Text.joined
  by_cases empty : Py.join text.separator (text.parts.map Part.text) = ""
  · have nothing : part.text = "" := by
      rw [found, String.append_eq_empty_iff, String.append_eq_empty_iff] at empty
      exact empty.1.2
    refine ⟨"", text.filler, ?_⟩
    rw [if_pos empty, nothing, String.empty_append, String.empty_append]
  · exact ⟨before, after, by rw [if_neg empty, found]⟩

/-- The part was read from a block and is what that block says. -/
def Part.Reads (written : Block → Option String) (part : Part β) : Prop :=
  ∃ block, part.source = some block ∧ written (view block) = some part.text

/-- A text of such parts says what its blocks say. -/
theorem Text.of_reads {text : Text β} {written : Block → Option String}
    (reads : ∀ part ∈ text.parts, part.Reads view written) : text.Says view written := by
  refine ⟨?_, fun part member => text.shows_of_mem member⟩
  intro part member block source
  obtain ⟨other, found, said⟩ := reads part member
  rw [source] at found
  obtain rfl := Option.some.inj found
  exact said

/-- So does a text without blocks. -/
theorem Text.of_sourceless {text : Text β} {written : Block → Option String}
    (sourceless : ∀ part ∈ text.parts, part.source = none) : text.Says view written := by
  refine ⟨?_, fun part member => text.shows_of_mem member⟩
  intro part member block source
  rw [sourceless part member] at source
  exact nomatch source

theorem Text.plain_faithful (text : String) (written : Block → Option String) :
    (Text.plain text : Text β).Says view written := by
  refine Text.of_sourceless view ?_
  intro part member
  rw [List.mem_singleton.mp member]

theorem Text.empty_faithful (written : Block → Option String) :
    (Text.empty : Text β).Says view written :=
  Text.of_sourceless view (fun _ member => absurd member List.not_mem_nil)

/-- A chat message that blocks alone were written to. -/
structure ChatMessage.OfBlocks (message : ChatMessage β) : Prop where
  faithful : message.Faithful view printing
  noPlain : message.plainTexts = []

/-- Parts that were read from blocks leave no other texts. -/
theorem plainTexts_of_reads {message : ChatMessage β} {written : Block → Option String}
    (reads : ∀ part ∈ message.content.parts, part.Reads view written) : message.plainTexts = [] := by
  unfold ChatMessage.plainTexts
  rw [List.map_eq_nil_iff, List.filter_eq_nil_iff]
  intro part member
  obtain ⟨block, source, -⟩ := reads part member
  rw [source]
  exact Bool.false_ne_true

/-! ### Runs -/

/-- Every value the run yields has the property. -/
def Yields {α : Type} (run : Except PyError α) (property : α → Prop) : Prop :=
  ∀ value, run = .ok value → property value

namespace Yields

variable {α γ : Type}

theorem ok {value : α} {property : α → Prop} (holds : property value) :
    Yields (.ok value) property := by
  intro other same
  obtain rfl := Except.ok.inj same
  exact holds

theorem error (raised : PyError) (property : α → Prop) : Yields (.error raised) property :=
  fun _ same => nomatch same

theorem bind {run : Except PyError α} {next : α → Except PyError γ} {middle : α → Prop}
    {property : γ → Prop} (first : Yields run middle)
    (then_ : ∀ value, middle value → Yields (next value) property) :
    Yields (run >>= next) property := by
  cases run with
  | error raised => exact error raised property
  | ok value => exact then_ value (first value rfl)

/-- A loop keeps what each of its steps keeps. -/
theorem foldlM {step : γ → α → Except PyError γ} {invariant : γ → Prop}
    (each : ∀ state value, invariant state → Yields (step state value) invariant)
    (list : List α) {state : γ} (start : invariant state) :
    Yields (list.foldlM step state) invariant := by
  induction list generalizing state with
  | nil => exact ok start
  | cons value rest ih =>
    rw [List.foldlM_cons]
    exact bind (each state value start) fun next kept => ih kept

theorem anything (run : Except PyError α) : Yields run fun _ => True :=
  fun _ _ => trivial

end Yields

/-! ### One assistant message -/

/-- An entry made from a `tool_use` block has its values. -/
theorem toolCallFromToolUse_copies {block : β} {id : Option String} {name : String}
    {input extraContent : Json} (read : view block = .toolUse id name input extraContent) :
    (toolCallFromToolUse printing block id name input extraContent).Copies view printing := by
  refine ⟨input, extraContent, read, ?_, ?_⟩
  · cases input with
    | obj fields => exact .inl rfl
    | _ => exact .inr ⟨nofun, rfl⟩
  · rintro key value fields rfl
    rfl

theorem iterToolUsesInOrder_copies (blocks : List β) :
    ∀ call ∈ iterToolUsesInOrder view printing blocks, call.Copies view printing := by
  intro call member
  obtain ⟨block, -, made⟩ := List.mem_filterMap.mp member
  split at made
  · rename_i id name input extraContent read
    obtain rfl := Option.some.inj made
    exact toolCallFromToolUse_copies view printing read
  · exact nomatch made

/-- What the loop of `_convert_assistant_message` has collected was read from blocks. -/
structure AssistantParts.OfBlocks (parts : AssistantParts β) : Prop where
  content : ∀ part ∈ parts.contentParts,
    part.Reads view (Block.contentText printing .assistant)
  thinking : ∀ part ∈ parts.thinkingParts, part.Reads view Block.reasoningText
  toolCalls : ∀ call ∈ parts.toolCalls, call.Copies view printing

theorem AssistantParts.add_ofBlocks (reasoning : Option String) (replay : ReasoningReplayMode)
    (parts : AssistantParts β) (block : β) (ofBlocks : parts.OfBlocks view printing) :
    Yields (parts.add view printing reasoning replay block)
      (AssistantParts.OfBlocks view printing) := by
  have onto {α : Type} {property : α → Prop} {list : List α} {last : α}
      (all : ∀ value ∈ list, property value) (holds : property last) :
      ∀ value ∈ list ++ [last], property value := by
    intro value member
    rcases List.mem_append.mp member with member | member
    · exact all value member
    · rw [List.mem_singleton.mp member]
      exact holds
  obtain ⟨content, thinking, toolCalls⟩ := ofBlocks
  rw [AssistantParts.add]
  cases read : view block with
  | text text =>
    exact .ok ⟨onto content ⟨block, rfl, by rw [read]; rfl⟩, thinking, toolCalls⟩
  | thinking thought =>
    cases replay with
    | disabled => exact .ok ⟨content, thinking, toolCalls⟩
    | thinkTags =>
      exact .ok ⟨onto content ⟨block, rfl, by rw [read]; rfl⟩, thinking, toolCalls⟩
    | reasoningContent =>
      dsimp only
      split_ifs
      · exact .ok ⟨content, onto thinking ⟨block, rfl, by rw [read]; rfl⟩, toolCalls⟩
      · exact .ok ⟨content, thinking, toolCalls⟩
  | redactedThinking => exact .ok ⟨content, thinking, toolCalls⟩
  | toolUse id name input extraContent =>
    exact .ok ⟨content, thinking, onto toolCalls (toolCallFromToolUse_copies view printing read)⟩
  | _ => exact (Yields.anything _).bind fun _ _ => .ok ⟨content, thinking, toolCalls⟩

/-- The message built from what was read says what its blocks say. -/
theorem AssistantParts.message_ofBlocks (reasoning : Option String) (replay : ReasoningReplayMode)
    {parts : AssistantParts β} (ofBlocks : parts.OfBlocks view printing) :
    (parts.message reasoning replay).OfBlocks view printing := by
  have reasons : (parts.message reasoning replay).reasoningContent.Says view
      Block.reasoningText := by
    cases replay with
    | disabled | thinkTags => exact Text.empty_faithful view _
    | reasoningContent =>
      cases reasoning with
      | none => exact Text.of_reads view ofBlocks.thinking
      | some thought => exact Text.plain_faithful view thought _
  refine ⟨⟨Text.of_reads view ofBlocks.content, reasons, ofBlocks.toolCalls, nofun⟩, ?_⟩
  exact plainTexts_of_reads view ofBlocks.content

theorem convertAssistantMessage_ofBlocks (reasoning : Option String)
    (replay : ReasoningReplayMode) (content : List β) :
    Yields (convertAssistantMessage view printing reasoning replay content)
      (ChatMessage.OfBlocks view printing) := by
  have none : ({} : AssistantParts β).OfBlocks view printing := by
    refine ⟨?_, ?_, ?_⟩ <;> exact fun _ member => absurd member List.not_mem_nil
  refine (Yields.foldlM (fun parts block ofBlocks =>
    parts.add_ofBlocks view printing reasoning replay block ofBlocks) content none).bind ?_
  intro parts ofBlocks
  exact .ok (AssistantParts.message_ofBlocks view printing reasoning replay ofBlocks)

/-- Taking one space out of the content leaves the rest as it was. -/
theorem ChatMessage.unblanked_ofBlocks {message : ChatMessage β}
    (ofBlocks : message.OfBlocks view printing) :
    message.unblanked.OfBlocks view printing := by
  obtain ⟨⟨content, reasoning, toolCalls, toolCallId⟩, noPlain⟩ := ofBlocks
  unfold ChatMessage.unblanked
  split_ifs
  · refine ⟨⟨⟨content.reads, fun part member => Text.shows_of_mem _ member⟩, reasoning, toolCalls,
      toolCallId⟩, noPlain⟩
  · exact ⟨⟨Text.empty_faithful view _, reasoning, toolCalls,
      fun _ _ member => absurd member List.not_mem_nil⟩, rfl⟩
  · exact ⟨⟨content, reasoning, toolCalls, toolCallId⟩, noPlain⟩

theorem preMessage_ofBlocks (reasoning : Option String) (replay : ReasoningReplayMode)
    (pre : List β) :
    Yields (preMessage view printing reasoning replay pre)
      (ChatMessage.OfBlocks view printing) := by
  unfold preMessage
  split
  · refine .ok ⟨⟨Text.empty_faithful view _, ?_, fun _ member => absurd member List.not_mem_nil, nofun⟩,
      rfl⟩
    dsimp only
    split
    · exact Text.plain_faithful view _ _
    · exact Text.empty_faithful view _
  · exact convertAssistantMessage_ofBlocks view printing reasoning replay pre

theorem convertAssistantMessageWithSplit_ofBlocks (reasoning : Option String)
    (replay : ReasoningReplayMode) (content : List β) (firstToolIndex : Nat) :
    Yields (convertAssistantMessageWithSplit view printing reasoning replay content
      firstToolIndex) fun result => result.1.OfBlocks view printing := by
  unfold convertAssistantMessageWithSplit
  dsimp only
  split
  · exact (convertAssistantMessage_ofBlocks view printing reasoning replay content).bind
      fun _ ofBlocks => .ok ofBlocks
  · refine (preMessage_ofBlocks view printing reasoning replay _).bind fun pre ofBlocks => ?_
    obtain ⟨faithful, noPlain⟩ := ChatMessage.unblanked_ofBlocks view printing ofBlocks
    have called : { pre.unblanked with
        toolCalls := iterToolUsesInOrder view printing content }.OfBlocks view printing :=
      ⟨⟨faithful.content, faithful.reasoning, iterToolUsesInOrder_copies view printing content,
        faithful.toolCallId⟩, noPlain⟩
    split
    · exact .ok called
    · exact .ok called

theorem deferredPostToolToMessages_ofBlocks (pending : PendingAfterTools β) :
    Yields (deferredPostToolToMessages view printing pending) fun messages =>
      ∀ message ∈ messages, message.OfBlocks view printing := by
  unfold deferredPostToolToMessages
  split
  · exact .ok fun _ member => absurd member List.not_mem_nil
  · refine (convertAssistantMessage_ofBlocks view printing _ _ _).bind fun message ofBlocks => ?_
    refine .ok fun other member => ?_
    rw [List.mem_singleton.mp member]
    exact ofBlocks

/-! ### One user message -/

/-- The loops over a user message's blocks have written blocks alone. -/
structure UserParts.OfBlocks (parts : UserParts β) : Prop where
  result : ∀ message ∈ parts.result, message.OfBlocks view printing
  texts : ∀ part ∈ parts.textParts, part.Reads view (Block.contentText printing .user)

theorem UserParts.flushed_ofBlocks {parts : UserParts β} (ofBlocks : parts.OfBlocks view printing) :
    ∀ message ∈ parts.flushed, message.OfBlocks view printing := by
  intro message member
  rcases List.mem_append.mp member with member | member
  · exact ofBlocks.result message member
  · rw [flushText] at member
    split at member
    · exact absurd member List.not_mem_nil
    · rw [List.mem_singleton.mp member]
      exact ⟨⟨Text.of_reads view ofBlocks.texts, Text.empty_faithful view _,
        fun _ member => absurd member List.not_mem_nil, nofun⟩,
        plainTexts_of_reads view ofBlocks.texts⟩

/-- The tool message of a result says the result, under its id. -/
theorem toolMessage_ofBlocks {block : β} {toolUseId : Option String} {content : Json}
    (read : view block = .toolResult toolUseId content) :
    (toolMessage printing block toolUseId content).OfBlocks view printing := by
  have reads : ∀ part ∈ (toolMessage printing block toolUseId content).content.parts,
      part.Reads view (Block.contentText printing .tool) := by
    intro part member
    rw [List.mem_singleton.mp member]
    exact ⟨block, rfl, by rw [read]; rfl⟩
  refine ⟨⟨Text.of_reads view reads, Text.empty_faithful view _,
    fun _ member => absurd member List.not_mem_nil, fun _ other member => ?_⟩,
    plainTexts_of_reads view reads⟩
  rw [List.mem_singleton.mp member, resultId, read]
  rfl

/-- The messages so far, and then the tool message of a result. -/
theorem UserParts.answered_ofBlocks {parts : UserParts β} (ofBlocks : parts.OfBlocks view printing)
    {block : β} {toolUseId : Option String} {content : Json}
    (read : view block = .toolResult toolUseId content) :
    ∀ message ∈ parts.flushed ++ [toolMessage printing block toolUseId content],
      message.OfBlocks view printing := by
  intro message member
  rcases List.mem_append.mp member with member | member
  · exact UserParts.flushed_ofBlocks view printing ofBlocks message member
  · rw [List.mem_singleton.mp member]
    exact toolMessage_ofBlocks view printing read

theorem UserParts.add_ofBlocks (parts : UserParts β) (block : β)
    (ofBlocks : parts.OfBlocks view printing) :
    Yields (parts.add view printing block) (UserParts.OfBlocks view printing) := by
  rw [UserParts.add]
  cases read : view block with
  | text text =>
    refine .ok ⟨ofBlocks.result, fun part member => ?_⟩
    rcases List.mem_append.mp member with member | member
    · exact ofBlocks.texts part member
    · rw [List.mem_singleton.mp member]
      exact ⟨block, rfl, by rw [read]; rfl⟩
  | image => exact .error _ _
  | toolResult toolUseId content =>
    exact .ok ⟨UserParts.answered_ofBlocks view printing ofBlocks read,
      fun _ member => absurd member List.not_mem_nil⟩
  | _ => exact .ok ofBlocks

/-- Before the first block nothing is written. -/
theorem UserParts.ofBlocks_nil : ({} : UserParts β).OfBlocks view printing :=
  ⟨fun _ member => absurd member List.not_mem_nil, fun _ member => absurd member List.not_mem_nil⟩

theorem convertUserMessage_ofBlocks (content : List β) :
    Yields (convertUserMessage view printing content) fun messages =>
      ∀ message ∈ messages, message.OfBlocks view printing := by
  refine (Yields.foldlM (fun parts block ofBlocks =>
    parts.add_ofBlocks view printing block ofBlocks) content
    (UserParts.ofBlocks_nil view printing)).bind ?_
  intro parts ofBlocks
  exact .ok (UserParts.flushed_ofBlocks view printing ofBlocks)

theorem Injection.add_ofBlocks (state : Injection β) (block : β)
    (ofBlocks : state.parts.OfBlocks view printing) :
    Yields (state.add view printing block) fun next => next.parts.OfBlocks view printing := by
  unfold Injection.add
  cases read : view block with
  | toolResult toolUseId content =>
    have answered := UserParts.answered_ofBlocks view printing ofBlocks read
    dsimp only
    split
    · refine (deferredPostToolToMessages_ofBlocks view printing _).bind fun deferred written => ?_
      refine .ok ⟨fun message member => ?_, fun _ member => absurd member List.not_mem_nil⟩
      rcases List.mem_append.mp member with member | member
      · exact answered message member
      · exact written message member
    · exact .ok ⟨answered, fun _ member => absurd member List.not_mem_nil⟩
  | _ =>
    exact (state.parts.add_ofBlocks view printing block ofBlocks).bind fun _ kept => .ok kept

theorem convertUserMessageWithInjection_ofBlocks (content : List β)
    (pending : PendingAfterTools β) :
    Yields (convertUserMessageWithInjection view printing content pending) fun result =>
      ∀ message ∈ result.1, message.OfBlocks view printing := by
  unfold convertUserMessageWithInjection
  split
  · exact (convertUserMessage_ofBlocks view printing content).bind fun _ written => .ok written
  · have ofBlocks_add : ∀ (state : Injection β) (block : β), state.parts.OfBlocks view printing →
        Yields (state.add view printing block) fun next => next.parts.OfBlocks view printing :=
      fun state block ofBlocks => state.add_ofBlocks view printing block ofBlocks
    refine (Yields.foldlM ofBlocks_add content (UserParts.ofBlocks_nil view printing)).bind ?_
    intro state ofBlocks
    exact .ok (UserParts.flushed_ofBlocks view printing ofBlocks)

/-! ### The history -/

/-- The chat messages so far are faithful and hold these texts of string messages. -/
structure Conversion.Holds (texts : List String) (state : Conversion β) : Prop where
  faithful : ∀ message ∈ state.result, message.Faithful view printing
  plainTexts : state.result.flatMap ChatMessage.plainTexts = texts

/-- Messages that were written from blocks bring no such text. -/
theorem Conversion.Holds.append {texts : List String} {state : Conversion β}
    (holds : state.Holds view printing texts) {messages : List (ChatMessage β)}
    (written : ∀ message ∈ messages, message.OfBlocks view printing)
    (pending : Option (PendingAfterTools β)) :
    Conversion.Holds view printing texts ⟨state.result ++ messages, pending⟩ := by
  refine ⟨?_, ?_⟩
  · intro message member
    rcases List.mem_append.mp member with member | member
    · exact holds.faithful message member
    · exact (written message member).faithful
  · have nothing : messages.flatMap ChatMessage.plainTexts = [] :=
      List.flatMap_eq_nil_iff.mpr fun message member => (written message member).noPlain
    rw [List.flatMap_append, nothing, List.append_nil, holds.plainTexts]

theorem Conversion.flushDeferred_holds {texts : List String} {state : Conversion β}
    (holds : state.Holds view printing texts) :
    Yields (state.flushDeferred view printing) (Conversion.Holds view printing texts) := by
  unfold Conversion.flushDeferred
  split
  · exact .ok holds
  · split
    · exact (deferredPostToolToMessages_ofBlocks view printing _).bind fun _ written =>
        .ok (holds.append view printing written none)
    · exact .ok holds

theorem Conversion.addAssistantBlocks_holds (replay : ReasoningReplayMode)
    (reasoning : Option String) {texts : List String} {state : Conversion β}
    (holds : state.Holds view printing texts) (content : List β) :
    Yields (state.addAssistantBlocks view printing replay reasoning content)
      (Conversion.Holds view printing texts) := by
  have alone {message : ChatMessage β} (ofBlocks : message.OfBlocks view printing) :
      ∀ other ∈ [message], other.OfBlocks view printing := by
    intro other member
    rw [List.mem_singleton.mp member]
    exact ofBlocks
  unfold Conversion.addAssistantBlocks
  refine (Conversion.flushDeferred_holds view printing holds).bind fun flushed kept => ?_
  split
  · refine (Yields.anything _).bind fun _ _ => ?_
    refine (convertAssistantMessageWithSplit_ofBlocks view printing reasoning replay content
      _).bind fun _ ofBlocks => ?_
    exact .ok (kept.append view printing (alone ofBlocks) _)
  · refine (Yields.anything _).bind fun _ _ => ?_
    refine (convertAssistantMessage_ofBlocks view printing reasoning replay content).bind
      fun _ ofBlocks => ?_
    exact .ok (kept.append view printing (alone ofBlocks) _)

theorem Conversion.addUserBlocks_holds {texts : List String} {state : Conversion β}
    (holds : state.Holds view printing texts) (content : List β) :
    Yields (state.addUserBlocks view printing content)
      (Conversion.Holds view printing texts) := by
  have plainly {state : Conversion β} (holds : state.Holds view printing texts) :
      Yields (convertUserMessage view printing content >>= fun messages =>
          .ok { state with result := state.result ++ messages })
        (Conversion.Holds view printing texts) :=
    (convertUserMessage_ofBlocks view printing content).bind fun _ written =>
      .ok (holds.append view printing written _)
  unfold Conversion.addUserBlocks
  split
  · exact plainly holds
  · split_ifs
    · exact plainly holds
    · exact (Conversion.flushDeferred_holds view printing holds).bind fun _ kept => plainly kept
    · refine (convertUserMessageWithInjection_ofBlocks view printing content _).bind
        fun _ written => ?_
      exact .ok (holds.append view printing written _)

/-- A string message brings its text. -/
theorem convertPlainMessage_holds (replay : ReasoningReplayMode) {texts : List String}
    {state : Conversion β} (holds : state.Holds view printing texts) (role : Role) (text : String)
    (thought : Option String) (pending : Option (PendingAfterTools β)) :
    Conversion.Holds view printing
      (texts ++ (⟨role, .plain text, thought⟩ : Message β).plainTexts replay)
      ⟨state.result ++ [convertPlainMessage role text (cleanReasoningContent thought) replay],
        pending⟩ := by
  have message : (convertPlainMessage role text (cleanReasoningContent thought) replay :
        ChatMessage β).Faithful view printing ∧
      (convertPlainMessage role text (cleanReasoningContent thought) replay :
        ChatMessage β).plainTexts = (⟨role, .plain text, thought⟩ : Message β).plainTexts replay := by
    have noCalls : ∀ call ∈ ([] : List (ToolCall β)), call.Copies view printing :=
      fun _ member => absurd member List.not_mem_nil
    unfold convertPlainMessage Message.plainTexts
    cases role with
    | user =>
      exact ⟨⟨Text.plain_faithful view _ _, Text.empty_faithful view _, noCalls, nofun⟩, rfl⟩
    | assistant =>
      cases cleanReasoningContent thought with
      | none => exact ⟨⟨Text.plain_faithful view _ _, Text.empty_faithful view _, noCalls, nofun⟩, rfl⟩
      | some thought =>
        cases replay with
        | disabled =>
          exact ⟨⟨Text.plain_faithful view _ _, Text.empty_faithful view _, noCalls, nofun⟩, rfl⟩
        | reasoningContent =>
          exact ⟨⟨Text.plain_faithful view _ _, Text.plain_faithful view _ _, noCalls, nofun⟩, rfl⟩
        | thinkTags =>
          refine ⟨⟨Text.of_sourceless view ?_, Text.empty_faithful view _, noCalls, nofun⟩, ?_⟩
          · intro part member
            dsimp only at member
            split_ifs at member
            · rw [List.mem_singleton.mp member]
            · rcases List.mem_cons.mp member with rfl | member
              · rfl
              · rw [List.mem_singleton.mp member]
          · unfold ChatMessage.plainTexts
            dsimp only
            split_ifs <;> rfl
  refine ⟨?_, ?_⟩
  · intro other member
    rcases List.mem_append.mp member with member | member
    · exact holds.faithful other member
    · rw [List.mem_singleton.mp member]
      exact message.1
  · rw [List.flatMap_append, List.flatMap_singleton, holds.plainTexts, message.2]

/-- One message of the history. -/
theorem Conversion.add_holds (replay : ReasoningReplayMode) {texts : List String}
    {state : Conversion β} (holds : state.Holds view printing texts) (message : Message β) :
    Yields (state.add view printing replay message)
      (Conversion.Holds view printing (texts ++ message.plainTexts replay)) := by
  obtain ⟨role, content, thought⟩ := message
  unfold Conversion.add
  cases content with
  | blocks content =>
    have nothing : (⟨role, .blocks content, thought⟩ : Message β).plainTexts replay = [] := rfl
    rw [nothing, List.append_nil]
    cases role with
    | assistant => exact Conversion.addAssistantBlocks_holds view printing replay _ holds content
    | user => exact Conversion.addUserBlocks_holds view printing holds content
  | plain text =>
    cases role with
    | assistant => exact .ok (convertPlainMessage_holds view printing replay holds _ text thought _)
    | user =>
      refine (Conversion.flushDeferred_holds view printing holds).bind fun flushed kept => ?_
      exact .ok (convertPlainMessage_holds view printing replay kept _ text thought _)

/-- **The run lemma**: the chat messages of a history stay faithful and hold its plain texts. -/
theorem foldlM_holds (replay : ReasoningReplayMode) (history : List (Message β))
    {texts : List String} {state : Conversion β} (holds : state.Holds view printing texts) :
    Yields (history.foldlM (Conversion.add view printing replay) state)
      (Conversion.Holds view printing (texts ++ history.flatMap (Message.plainTexts replay))) := by
  induction history generalizing texts state with
  | nil =>
    rw [List.flatMap_nil, List.append_nil]
    exact .ok holds
  | cons message rest ih =>
    rw [List.foldlM_cons, List.flatMap_cons, ← List.append_assoc]
    exact (Conversion.add_holds view printing replay holds message).bind fun _ kept => ih kept

/-- **Whatever `convert_messages` returns is faithful**, and holds the texts of the string messages,
in order. -/
theorem convertMessages_faithful (replay : ReasoningReplayMode) {history : List (Message β)}
    {output : List (ChatMessage β)}
    (converted : convertMessages view printing replay history = .ok output) :
    (∀ chat ∈ output, chat.Faithful view printing) ∧
      output.flatMap ChatMessage.plainTexts = history.flatMap (Message.plainTexts replay) := by
  have start : ({} : Conversion β).Holds view printing [] :=
    ⟨fun _ member => absurd member List.not_mem_nil, rfl⟩
  have returned : Yields (convertMessages view printing replay history) fun output =>
      (∀ chat ∈ output, chat.Faithful view printing) ∧
        output.flatMap ChatMessage.plainTexts = history.flatMap (Message.plainTexts replay) := by
    refine (foldlM_holds view printing replay history start).bind fun last holds => ?_
    refine (Conversion.flushDeferred_holds view printing holds).bind fun flushed kept => ?_
    exact .ok ⟨kept.faithful, kept.plainTexts⟩
  exact returned output converted

end Faithful

end ClaudeProxy
