/-
**What one converted message carries.**

* `OnlyConversionErrors` — a run that, if it raises, raises `OpenAIConversionError`; closed under
  sequencing and loops, so it holds of every function of the converter.
* `Message.Refused` — a block the converter raises on.
* `convertAssistantMessage_eq`, `convertUserMessage_eq`, `convertUserMessageWithInjection_eq` — a
  message without such a block is converted, and the chat messages carry exactly its `delivered`
  blocks, the pending content once for every emission.
-/

import ClaudeProxy.Conversion.Chat
import Mathlib.Algebra.Order.Group.Multiset
import Mathlib.Data.List.TakeWhile
import Mathlib.Data.Multiset.Filter
import Mathlib.Tactic.Abel

namespace ClaudeProxy

/-! ### The errors of the converter -/

section Errors

variable {α β γ : Type}

/-- If the run raises, it raises `OpenAIConversionError`. -/
def OnlyConversionErrors (run : Except PyError α) : Prop :=
  ∀ error, run = .error error → ∃ message, error = .openAIConversionError message

namespace OnlyConversionErrors

theorem ok (value : α) : OnlyConversionErrors (.ok value) :=
  fun _ raised => nomatch raised

theorem error (message : String) :
    OnlyConversionErrors (.error (.openAIConversionError message) : Except PyError α) :=
  fun _ raised => ⟨message, by cases raised; rfl⟩

theorem bind {run : Except PyError α} {next : α → Except PyError γ}
    (first : OnlyConversionErrors run) (then_ : ∀ value, OnlyConversionErrors (next value)) :
    OnlyConversionErrors (run >>= next) := by
  cases run with
  | error raised =>
    intro error same
    obtain ⟨message, found⟩ := first raised rfl
    cases same
    exact ⟨message, found⟩
  | ok value => exact then_ value

theorem foldlM {step : γ → α → Except PyError γ}
    (each : ∀ state value, OnlyConversionErrors (step state value)) (list : List α) (state : γ) :
    OnlyConversionErrors (list.foldlM step state) := by
  induction list generalizing state with
  | nil => exact ok state
  | cons value rest ih =>
    rw [List.foldlM_cons]
    exact bind (each state value) fun next => ih next

theorem forM {step : α → Except PyError PUnit}
    (each : ∀ value, OnlyConversionErrors (step value)) (list : List α) :
    OnlyConversionErrors (list.forM step) := by
  induction list with
  | nil => exact ok _
  | cons value rest ih => exact bind (each value) fun _ => ih

end OnlyConversionErrors

end Errors

section Converter

variable {β : Type} (view : β → Block) (printing : Printing)

theorem assertNoForbiddenAssistantBlock_errors (block : Block) :
    OnlyConversionErrors (assertNoForbiddenAssistantBlock block) := by
  cases block <;> first | exact .ok _ | exact .error _

theorem AssistantParts.add_errors (reasoning : Option String) (replay : ReasoningReplayMode)
    (parts : AssistantParts β) (block : β) :
    OnlyConversionErrors (parts.add view printing reasoning replay block) := by
  rw [AssistantParts.add]
  split
  · exact .ok _
  · split
    · exact .ok _
    · exact .ok _
    · split_ifs
      · exact .ok _
      · exact .ok _
  · exact .ok _
  · exact .ok _
  · exact (assertNoForbiddenAssistantBlock_errors _).bind fun _ => .ok _

theorem convertAssistantMessage_errors (reasoning : Option String)
    (replay : ReasoningReplayMode) (content : List β) :
    OnlyConversionErrors (convertAssistantMessage view printing reasoning replay content) :=
  (OnlyConversionErrors.foldlM
    (fun parts block => AssistantParts.add_errors view printing reasoning replay parts block)
    content {}).bind fun _ => .ok _

theorem deferredPostToolToMessages_errors (pending : PendingAfterTools β) :
    OnlyConversionErrors (deferredPostToolToMessages view printing pending) := by
  rw [deferredPostToolToMessages]
  split_ifs
  · exact .ok _
  · exact (convertAssistantMessage_errors view printing _ _ _).bind fun _ => .ok _

theorem convertAssistantMessageWithSplit_errors (reasoning : Option String)
    (replay : ReasoningReplayMode) (content : List β) (firstToolIndex : Nat) :
    OnlyConversionErrors
      (convertAssistantMessageWithSplit view printing reasoning replay content firstToolIndex) := by
  have preErrors (pre : List β) :
      OnlyConversionErrors (preMessage view printing reasoning replay pre) := by
    unfold preMessage
    split
    · exact .ok _
    · exact convertAssistantMessage_errors view printing _ _ _
  unfold convertAssistantMessageWithSplit
  dsimp only
  split
  · exact (convertAssistantMessage_errors view printing _ _ _).bind fun _ => .ok _
  · refine (preErrors _).bind fun _ => ?_
    split
    · exact .ok _
    · exact .ok _

theorem UserParts.add_errors (parts : UserParts β) (block : β) :
    OnlyConversionErrors (parts.add view printing block) := by
  rw [UserParts.add]
  split
  · exact .ok _
  · exact .error _
  · exact .ok _
  · exact .ok _

theorem convertUserMessage_errors (content : List β) :
    OnlyConversionErrors (convertUserMessage view printing content) :=
  (OnlyConversionErrors.foldlM (fun parts block => UserParts.add_errors view printing parts block)
    content {}).bind fun _ => .ok _

theorem Injection.add_errors (state : Injection β) (block : β) :
    OnlyConversionErrors (state.add view printing block) := by
  unfold Injection.add
  split
  · dsimp only
    split_ifs
    · exact (deferredPostToolToMessages_errors view printing _).bind fun _ => .ok _
    · exact .ok _
  · exact (UserParts.add_errors view printing _ _).bind fun _ => .ok _

theorem convertUserMessageWithInjection_errors (content : List β)
    (pending : PendingAfterTools β) :
    OnlyConversionErrors (convertUserMessageWithInjection view printing content pending) := by
  unfold convertUserMessageWithInjection
  split_ifs
  · exact (convertUserMessage_errors view printing _).bind fun _ => .ok _
  · exact (OnlyConversionErrors.foldlM
      (fun state block => Injection.add_errors view printing state block) content _).bind
        fun _ => .ok _

theorem Conversion.flushDeferred_errors (state : Conversion β) :
    OnlyConversionErrors (state.flushDeferred view printing) := by
  unfold Conversion.flushDeferred
  split
  · exact .ok _
  · split_ifs
    · exact (deferredPostToolToMessages_errors view printing _).bind fun _ => .ok _
    · exact .ok _

theorem Conversion.addAssistantBlocks_errors (replay : ReasoningReplayMode)
    (reasoning : Option String) (state : Conversion β) (content : List β) :
    OnlyConversionErrors (state.addAssistantBlocks view printing replay reasoning content) := by
  unfold Conversion.addAssistantBlocks
  refine (Conversion.flushDeferred_errors view printing state).bind fun flushed => ?_
  split
  · refine (OnlyConversionErrors.forM (fun block => ?_) content).bind fun _ => ?_
    · split_ifs
      · exact .ok _
      · exact assertNoForbiddenAssistantBlock_errors _
    · exact (convertAssistantMessageWithSplit_errors view printing _ _ _ _).bind fun _ => .ok _
  · refine (OnlyConversionErrors.forM
      (fun block => assertNoForbiddenAssistantBlock_errors _) content).bind fun _ => ?_
    exact (convertAssistantMessage_errors view printing _ _ _).bind fun _ => .ok _

theorem Conversion.addUserBlocks_errors (state : Conversion β) (content : List β) :
    OnlyConversionErrors (state.addUserBlocks view printing content) := by
  have plainErrors := convertUserMessage_errors view printing content
  unfold Conversion.addUserBlocks
  split
  · exact plainErrors.bind fun _ => .ok _
  · split_ifs
    · exact plainErrors.bind fun _ => .ok _
    · exact (Conversion.flushDeferred_errors view printing state).bind fun _ =>
        plainErrors.bind fun _ => .ok _
    · exact (convertUserMessageWithInjection_errors view printing _ _).bind fun _ => .ok _

theorem Conversion.add_errors (replay : ReasoningReplayMode) (state : Conversion β)
    (message : Message β) : OnlyConversionErrors (state.add view printing replay message) := by
  unfold Conversion.add
  split
  · exact Conversion.addAssistantBlocks_errors view printing _ _ _ _
  · exact Conversion.addUserBlocks_errors view printing _ _
  · exact .ok _
  · exact (Conversion.flushDeferred_errors view printing state).bind fun _ => .ok _

/-- **The converter raises nothing but its own error.** -/
theorem convertMessages_errors (replay : ReasoningReplayMode) (messages : List (Message β)) :
    OnlyConversionErrors (convertMessages view printing replay messages) :=
  (OnlyConversionErrors.foldlM
    (fun state message => Conversion.add_errors view printing replay state message)
    messages {}).bind fun _ =>
      (Conversion.flushDeferred_errors view printing _).bind fun _ => .ok _

end Converter

/-! ### The blocks a message is to carry -/

/-- A block whose text goes into the content of an assistant message. -/
def Block.inContent (replay : ReasoningReplayMode) : Block → Bool
  | .text _ => true
  | .thinking _ => replay = .thinkTags
  | _ => false

/-- A block whose text goes into the `reasoning_content` of an assistant message. -/
def Block.inReasoning (reasoning : Option String) (replay : ReasoningReplayMode) : Block → Bool
  | .thinking _ => replay = .reasoningContent ∧ reasoning = none
  | _ => false

/-- A block that an assistant message hands on. -/
def Block.ofAssistant (reasoning : Option String) (replay : ReasoningReplayMode)
    (block : Block) : Bool :=
  block.inContent replay || block.isToolUse || block.inReasoning reasoning replay

/-- A block that a user message hands on. -/
def Block.ofUser : Block → Bool
  | .text _ => true
  | .toolResult .. => true
  | _ => false

/-- A block `_assert_no_forbidden_assistant_block` lets pass. -/
def Block.allowedInAssistant : Block → Bool
  | .image | .serverToolUse | .webSearchToolResult | .webFetchToolResult => false
  | _ => true

theorem assertNoForbiddenAssistantBlock_iff (block : Block) :
    assertNoForbiddenAssistantBlock block = .ok () ↔ block.allowedInAssistant = true := by
  cases block <;> simp [assertNoForbiddenAssistantBlock,
    assertNoForbiddenAssistantBlock.serverToolError, Block.allowedInAssistant]

section Carried

variable {β : Type}

/-- The blocks that chat messages carry. -/
def carriedBy (messages : List (ChatMessage β)) : Multiset β :=
  ↑(messages.flatMap ChatMessage.carried)

@[simp] theorem carriedBy_nil : carriedBy ([] : List (ChatMessage β)) = 0 := rfl

@[simp] theorem carriedBy_append (first second : List (ChatMessage β)) :
    carriedBy (first ++ second) = carriedBy first + carriedBy second := by
  rw [carriedBy, List.flatMap_append, ← Multiset.coe_add, carriedBy, carriedBy]

@[simp] theorem carriedBy_singleton (message : ChatMessage β) :
    carriedBy [message] = ↑message.carried := by
  rw [carriedBy, List.flatMap_singleton]

/-- Two disjoint selections together are the selection of either. -/
theorem filter_add_filter (first second : β → Bool)
    (disjoint : ∀ block, first block = true → second block = false) (list : List β) :
    (↑(list.filter first) + ↑(list.filter second) : Multiset β) =
      ↑(list.filter fun block => first block || second block) := by
  induction list with
  | nil => rfl
  | cons block rest ih =>
    by_cases inFirst : first block = true
    · have notSecond : second block = false := disjoint block inFirst
      rw [List.filter_cons_of_pos inFirst, List.filter_cons_of_neg (by rw [notSecond]; decide),
        List.filter_cons_of_pos (by rw [inFirst]; rfl), ← Multiset.cons_coe, ← Multiset.cons_coe,
        Multiset.cons_add, ih]
    · have notFirst : first block = false := by simpa using inFirst
      by_cases inSecond : second block = true
      · rw [List.filter_cons_of_neg inFirst, List.filter_cons_of_pos inSecond,
          List.filter_cons_of_pos (by rw [inSecond, Bool.or_true]), ← Multiset.cons_coe,
          ← Multiset.cons_coe, Multiset.add_cons, ih]
      · have notSecond : second block = false := by simpa using inSecond
        rw [List.filter_cons_of_neg inFirst, List.filter_cons_of_neg inSecond,
          List.filter_cons_of_neg (by rw [notFirst, notSecond]; decide), ih]

end Carried

/-! ### One assistant message -/

section Assistant

variable {β : Type} (view : β → Block) (printing : Printing)

/-- The content part an assistant's block gives. -/
def contentPart (replay : ReasoningReplayMode) (block : β) : Option (Part β) :=
  match view block with
  | .text text => some ⟨text, some block⟩
  | .thinking thinking =>
    if replay = .thinkTags then some ⟨thinkTagContent thinking, some block⟩ else none
  | _ => none

/-- The reasoning part an assistant's block gives. -/
def thinkingPart (reasoning : Option String) (replay : ReasoningReplayMode) (block : β) :
    Option (Part β) :=
  match view block with
  | .thinking thinking =>
    if replay = .reasoningContent ∧ reasoning = none then some ⟨thinking, some block⟩ else none
  | _ => none

/-- What the loop of `_convert_assistant_message` collects from blocks it does not raise on. -/
def assistantParts (reasoning : Option String) (replay : ReasoningReplayMode)
    (content : List β) : AssistantParts β :=
  { contentParts := content.filterMap (contentPart view replay)
    thinkingParts := content.filterMap (thinkingPart view reasoning replay)
    toolCalls := iterToolUsesInOrder view printing content }

/-- The message such blocks are converted to. -/
def assistantMessage (reasoning : Option String) (replay : ReasoningReplayMode)
    (content : List β) : ChatMessage β :=
  (assistantParts view printing reasoning replay content).message reasoning replay

theorem AssistantParts.add_of_allowed (reasoning : Option String) (replay : ReasoningReplayMode)
    (parts : AssistantParts β) (block : β) (allowed : (view block).allowedInAssistant = true) :
    parts.add view printing reasoning replay block =
      .ok { contentParts := parts.contentParts ++ [block].filterMap (contentPart view replay)
            thinkingParts := parts.thinkingParts ++
              [block].filterMap (thinkingPart view reasoning replay)
            toolCalls := parts.toolCalls ++ iterToolUsesInOrder view printing [block] } := by
  have passes := (assertNoForbiddenAssistantBlock_iff (view block)).mpr allowed
  cases read : view block with
  | thinking thinking =>
    cases replay with
    | disabled => simp [AssistantParts.add, contentPart, thinkingPart, iterToolUsesInOrder, read]
    | thinkTags => simp [AssistantParts.add, contentPart, thinkingPart, iterToolUsesInOrder, read]
    | reasoningContent =>
      by_cases absent : reasoning = none
      · simp [AssistantParts.add, contentPart, thinkingPart, iterToolUsesInOrder, read, absent]
      · simp [AssistantParts.add, contentPart, thinkingPart, iterToolUsesInOrder, read, absent]
  | image | serverToolUse | webSearchToolResult | webFetchToolResult =>
    rw [read] at allowed
    exact absurd allowed (by decide)
  | text _ | toolUse _ _ _ _ | redactedThinking =>
    simp [AssistantParts.add, contentPart, thinkingPart, iterToolUsesInOrder, read]
  | document | toolResult _ _ | unknown =>
    rw [read] at passes
    simp [AssistantParts.add, contentPart, thinkingPart, iterToolUsesInOrder, read, passes]
    rfl

theorem foldlM_assistant (reasoning : Option String) (replay : ReasoningReplayMode)
    (content : List β) (parts : AssistantParts β)
    (allowed : ∀ block ∈ content, (view block).allowedInAssistant = true) :
    content.foldlM (AssistantParts.add view printing reasoning replay) parts =
      .ok { contentParts := parts.contentParts ++ content.filterMap (contentPart view replay)
            thinkingParts := parts.thinkingParts ++
              content.filterMap (thinkingPart view reasoning replay)
            toolCalls := parts.toolCalls ++ iterToolUsesInOrder view printing content } := by
  induction content generalizing parts with
  | nil => simp [iterToolUsesInOrder]; rfl
  | cons block rest ih =>
    have here := AssistantParts.add_of_allowed view printing reasoning replay parts block
      (allowed block List.mem_cons_self)
    rw [List.foldlM_cons, here]
    refine (ih _ fun other member => allowed other (List.mem_cons_of_mem _ member)).trans ?_
    have split (f : β → Option (Part β)) :
        (block :: rest).filterMap f = [block].filterMap f ++ rest.filterMap f := by
      rw [← List.filterMap_append, List.singleton_append]
    have calls : iterToolUsesInOrder view printing (block :: rest) =
        iterToolUsesInOrder view printing [block] ++ iterToolUsesInOrder view printing rest := by
      rw [iterToolUsesInOrder, iterToolUsesInOrder, iterToolUsesInOrder, ← List.filterMap_append,
        List.singleton_append]
    rw [split, split, calls, List.append_assoc, List.append_assoc, List.append_assoc]

/-- **Blocks that are all allowed are converted to one message.** -/
theorem convertAssistantMessage_eq (reasoning : Option String) (replay : ReasoningReplayMode)
    (content : List β) (allowed : ∀ block ∈ content, (view block).allowedInAssistant = true) :
    convertAssistantMessage view printing reasoning replay content =
      .ok (assistantMessage view printing reasoning replay content) := by
  rw [convertAssistantMessage, foldlM_assistant view printing reasoning replay content {} allowed]
  rfl

/-- The content parts were read from the blocks that go into the content. -/
theorem sources_contentParts (replay : ReasoningReplayMode) (content : List β) :
    (content.filterMap (contentPart view replay)).filterMap Part.source =
      content.filter fun block => (view block).inContent replay := by
  rw [List.filterMap_filterMap, ← List.filterMap_eq_filter]
  congr 1
  funext block
  cases read : view block <;> simp [contentPart, read, Block.inContent, Option.guard]
  split_ifs <;> rfl

/-- The reasoning parts were read from the blocks that go into the reasoning. -/
theorem sources_thinkingParts (reasoning : Option String) (replay : ReasoningReplayMode)
    (content : List β) :
    (content.filterMap (thinkingPart view reasoning replay)).filterMap Part.source =
      content.filter fun block => (view block).inReasoning reasoning replay := by
  rw [List.filterMap_filterMap, ← List.filterMap_eq_filter]
  congr 1
  funext block
  cases read : view block <;> simp [thinkingPart, read, Block.inReasoning, Option.guard]
  split_ifs <;> rfl

/-- The tool calls were read from the `tool_use` blocks. -/
theorem sources_iterToolUses (content : List β) :
    (iterToolUsesInOrder view printing content).map ToolCall.source =
      content.filter fun block => (view block).isToolUse := by
  rw [iterToolUsesInOrder, List.map_filterMap, ← List.filterMap_eq_filter]
  congr 1
  funext block
  cases read : view block <;> simp [Block.isToolUse, Option.guard, toolCallFromToolUse, read]

/-- Without a mode or a block for it, no reasoning is collected. -/
theorem sources_reasoning (reasoning : Option String) (replay : ReasoningReplayMode)
    (content : List β) :
    (assistantMessage view printing reasoning replay content).reasoningContent.sources =
      content.filter fun block => (view block).inReasoning reasoning replay := by
  have collected := sources_thinkingParts view reasoning replay content
  have nothing (off : ∀ block : Block, block.inReasoning reasoning replay = false) :
      ([] : List β) = content.filter fun block => (view block).inReasoning reasoning replay :=
    (List.filter_eq_nil_iff.mpr fun block _ => by simp [off]).symm
  cases replay with
  | disabled => exact nothing fun block => by cases block <;> rfl
  | thinkTags => exact nothing fun block => by cases block <;> rfl
  | reasoningContent =>
    cases reasoning with
    | none => exact collected
    | some text => exact nothing fun block => by cases block <;> rfl

/-- **An assistant message carries the blocks it hands on, each once.** -/
theorem carried_assistantMessage (reasoning : Option String) (replay : ReasoningReplayMode)
    (content : List β) :
    ((assistantMessage view printing reasoning replay content).carried : Multiset β) =
      ↑(content.filter fun block => (view block).ofAssistant reasoning replay) := by
  have contentSources :
      (assistantMessage view printing reasoning replay content).content.sources =
        content.filter fun block => (view block).inContent replay :=
    sources_contentParts view replay content
  have callSources :
      (assistantMessage view printing reasoning replay content).toolCalls.map ToolCall.source =
        content.filter fun block => (view block).isToolUse :=
    sources_iterToolUses view printing content
  rw [ChatMessage.carried, contentSources, callSources, sources_reasoning, ← Multiset.coe_add,
    ← Multiset.coe_add, filter_add_filter, filter_add_filter]
  · rfl
  · intro block inFirst
    cases read : view block <;> rw [read] at inFirst <;>
      simp_all [Block.inContent, Block.isToolUse, Block.inReasoning]
  · intro block inFirst
    cases read : view block <;> rw [read] at inFirst <;>
      simp_all [Block.inContent, Block.isToolUse]

/-! ### An assistant message with tool calls -/

/-- The blocks before the first `tool_use`. -/
def beforeTools (content : List β) : List β :=
  content.takeWhile fun block => !(view block).isToolUse

/-- The blocks from the first `tool_use` on. -/
def fromTools (content : List β) : List β :=
  content.dropWhile fun block => !(view block).isToolUse

/-- The blocks after the first `tool_use` that are none themselves. -/
def postToolBlocks (content : List β) : List β :=
  (fromTools view content).filter fun block => !(view block).isToolUse

/-- The text the blocks before the first `tool_use` are joined to. -/
def preText (replay : ReasoningReplayMode) (content : List β) : String :=
  Py.join "\n\n"
    (((beforeTools view content).filterMap (contentPart view replay)).map Part.text)

/-- A message with tool calls whose text before them is one space, which is written as no text. -/
def swallowsText (replay : ReasoningReplayMode) (content : List β) : Bool :=
  !(fromTools view content).isEmpty && preText view replay content = " "

/-- The blocks an assistant message hands on, a swallowed text apart. -/
def deliveredByAssistant (reasoning : Option String) (replay : ReasoningReplayMode)
    (content : List β) : List β :=
  if swallowsText view replay content then
    ((beforeTools view content).filter fun block => (view block).inReasoning reasoning replay) ++
      (fromTools view content).filter fun block => (view block).ofAssistant reasoning replay
  else content.filter fun block => (view block).ofAssistant reasoning replay

/-- What the message leaves pending. -/
def pendingAfter (reasoning : Option String) (replay : ReasoningReplayMode) (content : List β) :
    Option (PendingAfterTools β) :=
  if (postToolBlocks view content).isEmpty then none
  else
    some
      { remainingToolIds := awaitedIds (iterToolUsesInOrder view printing content)
        deferredBlocks := postToolBlocks view content
        topLevelReasoning := reasoning
        reasoningReplay := replay
        deferredEmitted := false }

/-- The blocks the pending content will carry when it is emitted. -/
def PendingAfterTools.owed (pending : PendingAfterTools β) : Multiset β :=
  ↑(pending.deferredBlocks.filter fun block =>
    (view block).ofAssistant pending.topLevelReasoning pending.reasoningReplay)

/-- The blocks that wait to be emitted. -/
def owedBy (pending : Option (PendingAfterTools β)) : Multiset β :=
  match pending with
  | none => 0
  | some pending => pending.owed view

theorem beforeTools_append_fromTools (content : List β) :
    beforeTools view content ++ fromTools view content = content :=
  List.takeWhile_append_dropWhile

theorem not_isToolUse_of_beforeTools {content : List β} {block : β}
    (member : block ∈ beforeTools view content) : (view block).isToolUse = false := by
  have holds := List.mem_takeWhile_imp member
  simpa using holds

theorem fromTools_eq_nil_iff (content : List β) :
    fromTools view content = [] ↔ ∀ block ∈ content, (view block).isToolUse = false := by
  rw [fromTools, List.dropWhile_eq_nil_iff]
  simp

/-- The first `tool_use` splits the content where its index says. -/
theorem indexFirstToolUse_spec {content : List β} {firstToolIndex : Nat}
    (found : indexFirstToolUse view content = some firstToolIndex) :
    content.take firstToolIndex = beforeTools view content ∧
      deferredPostToolBlocks view content firstToolIndex = postToolBlocks view content ∧
      fromTools view content ≠ [] := by
  obtain ⟨inside, here, before⟩ := List.findIdx?_eq_some_iff_getElem.mp found
  have apart : content = content.take firstToolIndex ++
      content[firstToolIndex] :: content.drop (firstToolIndex + 1) := by
    rw [List.getElem_cons_drop, List.take_append_drop]
  have free : ∀ block ∈ content.take firstToolIndex, (!(view block).isToolUse) = true := by
    intro block member
    obtain ⟨index, bound, rfl⟩ := List.mem_take_iff_getElem.mp member
    simpa using before index (by omega)
  have taken : beforeTools view content = content.take firstToolIndex := by
    conv_lhs => rw [beforeTools, apart]
    rw [List.takeWhile_append_of_pos free, List.takeWhile_cons, if_neg (by simpa using here),
      List.append_nil]
  have dropped : fromTools view content =
      content[firstToolIndex] :: content.drop (firstToolIndex + 1) := by
    conv_lhs => rw [fromTools, apart]
    rw [List.dropWhile_append_of_pos free, List.dropWhile_cons, if_neg (by simpa using here)]
  refine ⟨taken.symm, ?_, ?_⟩
  · rw [deferredPostToolBlocks, postToolBlocks, dropped, List.filter_cons,
      if_neg (by simpa using here)]
  · rw [dropped]
    exact List.cons_ne_nil _ _

theorem indexFirstToolUse_eq_none (content : List β) :
    indexFirstToolUse view content = none ↔ fromTools view content = [] := by
  rw [indexFirstToolUse, List.findIdx?_eq_none_iff, fromTools_eq_nil_iff]

/-- `pre_msg["content"]` loses its parts exactly where they are joined to one space. -/
theorem ChatMessage.unblanked_sources (message : ChatMessage β) :
    message.unblanked.content.sources =
      if message.content.joined = " " then [] else message.content.sources := by
  rw [ChatMessage.unblanked, Text.render]
  by_cases empty : message.content.joined = ""
  · have notBlank : message.content.joined ≠ " " := by
      rw [empty]
      decide
    rw [if_pos empty, if_neg notBlank, if_pos empty]
    split_ifs
    · rfl
    · rfl
  · rw [if_neg empty]
    by_cases blank : message.content.joined = " "
    · rw [if_pos blank, if_neg empty, if_pos blank]
      rfl
    · rw [if_neg blank, if_neg blank]

@[simp] theorem ChatMessage.unblanked_reasoningContent (message : ChatMessage β) :
    message.unblanked.reasoningContent = message.reasoningContent := by
  rw [ChatMessage.unblanked]
  split_ifs <;> rfl

@[simp] theorem ChatMessage.unblanked_role (message : ChatMessage β) :
    message.unblanked.role = message.role := by
  rw [ChatMessage.unblanked]
  split_ifs <;> rfl

/-- What `pre_msg` is and carries, before it gets its tool calls. -/
theorem preMessage_eq (reasoning : Option String) (replay : ReasoningReplayMode)
    (pre : List β) (allowed : ∀ block ∈ pre, (view block).allowedInAssistant = true) :
    ∃ message, preMessage view printing reasoning replay pre = .ok message ∧
      message.role = .assistant ∧
      message.content.joined =
        Py.join "\n\n" ((pre.filterMap (contentPart view replay)).map Part.text) ∧
      message.content.sources = pre.filter (fun block => (view block).inContent replay) ∧
      message.reasoningContent.sources =
        pre.filter (fun block => (view block).inReasoning reasoning replay) := by
  by_cases none : pre = []
  · subst none
    refine ⟨_, rfl, rfl, ?_, rfl, ?_⟩
    · simp [Text.joined, Text.empty]
    · cases replay <;> cases reasoning <;> rfl
  · refine ⟨assistantMessage view printing reasoning replay pre, ?_, rfl, rfl,
      sources_contentParts view replay pre, sources_reasoning view printing reasoning replay pre⟩
    unfold preMessage
    rw [if_neg (by simpa using none), convertAssistantMessage_eq view printing _ _ _ allowed]

/-- The blocks of a message with tool calls are those before the first of them, the calls, and the
deferred ones. -/
theorem filter_ofAssistant_split (reasoning : Option String) (replay : ReasoningReplayMode)
    (content : List β) :
    (↑((fromTools view content).filter fun block =>
        (view block).ofAssistant reasoning replay) : Multiset β) =
      ↑(content.filter fun block => (view block).isToolUse) +
        ↑((postToolBlocks view content).filter fun block =>
          (view block).ofAssistant reasoning replay) := by
  have calls : (content.filter fun block => (view block).isToolUse) =
      (fromTools view content).filter fun block => (view block).isToolUse := by
    conv_lhs => rw [← beforeTools_append_fromTools view content, List.filter_append]
    rw [List.filter_eq_nil_iff.mpr fun block member => by
      rw [not_isToolUse_of_beforeTools view member]; decide, List.nil_append]
  rw [calls, postToolBlocks, List.filter_filter, filter_add_filter]
  · congr 2
    funext block
    cases read : view block <;> simp [Block.ofAssistant, Block.isToolUse]
  · intro block isCall
    rw [isCall, Bool.not_true, Bool.and_false]

/-- **A message with tool calls: its calls, and its blocks shared out between the chat message and
the content that stays pending.** -/
theorem convertAssistantMessageWithSplit_eq (reasoning : Option String)
    (replay : ReasoningReplayMode) (content : List β) (firstToolIndex : Nat)
    (found : indexFirstToolUse view content = some firstToolIndex)
    (allowed : ∀ block ∈ content, (view block).allowedInAssistant = true) :
    ∃ message, convertAssistantMessageWithSplit view printing reasoning replay content
        firstToolIndex = .ok (message, pendingAfter view printing reasoning replay content) ∧
      message.role = .assistant ∧
      message.toolCalls = iterToolUsesInOrder view printing content ∧
      (message.carried : Multiset β) +
          owedBy view (pendingAfter view printing reasoning replay content) =
        ↑(deliveredByAssistant view reasoning replay content) := by
  obtain ⟨taken, deferred, someTool⟩ := indexFirstToolUse_spec view found
  have preAllowed : ∀ block ∈ beforeTools view content,
      (view block).allowedInAssistant = true := fun block member =>
    allowed block (List.takeWhile_subset _ member)
  obtain ⟨pre, built, role, joined, sources, reasons⟩ :=
    preMessage_eq view printing reasoning replay _ preAllowed
  have someCall : (iterToolUsesInOrder view printing content).isEmpty = false := by
    by_contra noCall
    have nothing : (iterToolUsesInOrder view printing content).map ToolCall.source = [] := by
      simpa using noCall
    rw [sources_iterToolUses, List.filter_eq_nil_iff] at nothing
    exact someTool ((fromTools_eq_nil_iff view content).mpr fun block member => by
      simpa using nothing block member)
  refine ⟨{ pre.unblanked with toolCalls := iterToolUsesInOrder view printing content },
    ?_, by simp [role], rfl, ?_⟩
  · rw [convertAssistantMessageWithSplit]
    simp only [someCall, Bool.false_eq_true, if_false, deferred, taken, built]
    show (if _ then _ else _) = _
    rw [pendingAfter]
    split_ifs <;> rfl
  · have owed : owedBy view (pendingAfter view printing reasoning replay content) =
        ↑((postToolBlocks view content).filter fun block =>
          (view block).ofAssistant reasoning replay) := by
      rw [pendingAfter]
      by_cases noDeferred : postToolBlocks view content = []
      · rw [if_pos (by simp [noDeferred]), noDeferred]
        rfl
      · rw [if_neg (by simpa using noDeferred)]
        rfl
    have preBlocks : (↑((beforeTools view content).filter fun block =>
          (view block).ofAssistant reasoning replay) : Multiset β) =
        ↑((beforeTools view content).filter fun block => (view block).inContent replay) +
          ↑((beforeTools view content).filter fun block =>
            (view block).inReasoning reasoning replay) := by
      rw [filter_add_filter]
      · congr 1
        refine List.filter_congr fun block member => ?_
        rw [Block.ofAssistant, not_isToolUse_of_beforeTools view member, Bool.or_false]
      · intro block inFirst
        cases read : view block <;> rw [read] at inFirst <;>
          simp_all [Block.inContent, Block.inReasoning]
    rw [owed, ChatMessage.carried, ChatMessage.unblanked_sources,
      ChatMessage.unblanked_reasoningContent, reasons, joined, sources, sources_iterToolUses,
      deliveredByAssistant]
    have swallows : swallowsText view replay content = true ↔
        Py.join "\n\n" (((beforeTools view content).filterMap (contentPart view replay)).map
          Part.text) = " " := by
      rw [swallowsText, preText, Bool.and_eq_true, decide_eq_true_eq]
      simp only [List.isEmpty_iff, someTool, Bool.not_eq_true', Bool.eq_false_iff, ne_eq,
        not_false_eq_true, true_and]
    by_cases blank : Py.join "\n\n"
        (((beforeTools view content).filterMap (contentPart view replay)).map Part.text) = " "
    · rw [if_pos blank, if_pos (swallows.mpr blank), List.nil_append, ← Multiset.coe_add,
        ← Multiset.coe_add, filter_ofAssistant_split]
      abel
    · rw [if_neg blank, if_neg fun holds => blank (swallows.mp holds), ← Multiset.coe_add,
        ← Multiset.coe_add]
      conv_rhs => rw [← beforeTools_append_fromTools view content, List.filter_append]
      rw [← Multiset.coe_add, preBlocks, filter_ofAssistant_split]
      abel

end Assistant

/-! ### One user message -/

section User

variable {β : Type} (view : β → Block) (printing : Printing)

theorem carriedBy_flushText (textParts : List (Part β)) :
    carriedBy (flushText textParts) = ↑(textParts.filterMap Part.source) := by
  rw [flushText]
  by_cases empty : textParts = []
  · rw [if_pos (by simp [empty]), empty]
    rfl
  · rw [if_neg (by simpa using empty), carriedBy_singleton, ChatMessage.carried, ChatMessage.user,
      Text.sources, List.map_nil, List.append_nil]
    exact congrArg _ (List.append_nil _)

theorem UserParts.carriedBy_flushed (parts : UserParts β) :
    carriedBy parts.flushed =
      carriedBy parts.result + ↑(parts.textParts.filterMap Part.source) := by
  rw [UserParts.flushed, carriedBy_append, carriedBy_flushText]

@[simp] theorem carried_toolMessage (source : β) (toolUseId : Option String) (content : Json) :
    (toolMessage printing source toolUseId content).carried = [source] := rfl

/-- A block of a user message that is no image adds itself, where it is handed on. -/
theorem UserParts.add_eq (parts : UserParts β) (block : β) (noImage : view block ≠ .image) :
    ∃ next, parts.add view printing block = .ok next ∧
      carriedBy next.flushed =
        carriedBy parts.flushed + ↑([block].filter fun block => (view block).ofUser) := by
  rw [UserParts.add]
  cases read : view block with
  | text text =>
    refine ⟨_, rfl, ?_⟩
    rw [UserParts.carriedBy_flushed, UserParts.carriedBy_flushed, List.filterMap_append,
      ← Multiset.coe_add, List.filter_singleton, read, add_assoc]
    rfl
  | toolResult toolUseId content =>
    refine ⟨_, rfl, ?_⟩
    rw [UserParts.carriedBy_flushed, List.filterMap_nil, carriedBy_append, carriedBy_singleton,
      carried_toolMessage, List.filter_singleton, read, Multiset.coe_nil, add_zero]
    rfl
  | image => exact absurd read noImage
  | _ =>
    refine ⟨_, rfl, ?_⟩
    rw [List.filter_singleton, read]
    exact (add_zero _).symm

theorem foldlM_user (content : List β) (parts : UserParts β)
    (noImage : ∀ block ∈ content, view block ≠ .image) :
    ∃ next, content.foldlM (UserParts.add view printing) parts = .ok next ∧
      carriedBy next.flushed =
        carriedBy parts.flushed + ↑(content.filter fun block => (view block).ofUser) := by
  induction content generalizing parts with
  | nil => exact ⟨parts, rfl, (add_zero _).symm⟩
  | cons block rest ih =>
    obtain ⟨middle, stepped, carried⟩ := UserParts.add_eq view printing parts block
      (noImage block List.mem_cons_self)
    obtain ⟨next, ran, more⟩ := ih middle fun other member =>
      noImage other (List.mem_cons_of_mem _ member)
    refine ⟨next, ?_, ?_⟩
    · rw [List.foldlM_cons, stepped]
      exact ran
    · have split : (block :: rest).filter (fun block => (view block).ofUser) =
          [block].filter (fun block => (view block).ofUser) ++
            rest.filter fun block => (view block).ofUser := by
        rw [← List.filter_append, List.singleton_append]
      rw [more, carried, split, ← Multiset.coe_add, add_assoc]

/-- **A user message without an image is converted, and its texts and tool results are carried,
each once.** -/
theorem convertUserMessage_eq (content : List β)
    (noImage : ∀ block ∈ content, view block ≠ .image) :
    ∃ messages, convertUserMessage view printing content = .ok messages ∧
      carriedBy messages = ↑(content.filter fun block => (view block).ofUser) := by
  obtain ⟨parts, ran, carried⟩ := foldlM_user view printing content {} noImage
  refine ⟨parts.flushed, ?_, carried.trans (zero_add _)⟩
  rw [convertUserMessage, ran]
  rfl

/-! ### A user message that answers pending tool calls -/

/-- The block is a `tool_result` for the id. -/
def answersId (id : String) (block : β) : Bool :=
  match view block with
  | .toolResult toolUseId _ => toolUseId.getD "" = id
  | _ => false

/-- The ids that the blocks leave unanswered. -/
def unanswered (ids : List String) (content : List β) : List String :=
  ids.filter fun id => !content.any (answersId view id)

/-- How often the blocks of a user message make the pending content be emitted: at every
`tool_result` after which no id is left. -/
def emissions (remaining : List String) : List β → Nat
  | [] => 0
  | block :: rest =>
    (if (view block).isToolResult ∧ unanswered view remaining [block] = [] then 1 else 0) +
      emissions (unanswered view remaining [block]) rest

theorem unanswered_append (ids : List String) (first second : List β) :
    unanswered view (unanswered view ids first) second = unanswered view ids (first ++ second) := by
  rw [unanswered, unanswered, unanswered, List.filter_filter]
  refine List.filter_congr fun id _ => ?_
  rw [List.any_append, Bool.not_or, Bool.and_comm]

@[simp] theorem unanswered_nil (ids : List String) : unanswered view ids [] = ids := by
  simp [unanswered]

theorem unanswered_of_not_toolResult (ids : List String) {block : β}
    (noResult : (view block).isToolResult = false) : unanswered view ids [block] = ids := by
  rw [unanswered, List.filter_eq_self]
  intro id _
  cases read : view block <;> rw [read] at noResult <;>
    simp_all [answersId, Block.isToolResult]

/-- The pending content is emitted as its blocks. -/
theorem deferredPostToolToMessages_eq (pending : PendingAfterTools β)
    (allowed : ∀ block ∈ pending.deferredBlocks, (view block).allowedInAssistant = true) :
    ∃ messages, deferredPostToolToMessages view printing pending = .ok messages ∧
      carriedBy messages = pending.owed view := by
  rw [deferredPostToolToMessages]
  by_cases nothing : pending.deferredBlocks = []
  · refine ⟨[], by rw [if_pos (by simp [nothing])], ?_⟩
    rw [PendingAfterTools.owed, nothing]
    rfl
  · refine ⟨[assistantMessage view printing pending.topLevelReasoning pending.reasoningReplay
      pending.deferredBlocks], ?_, ?_⟩
    · rw [if_neg (by simpa using nothing), convertAssistantMessage_eq view printing _ _ _ allowed]
      rfl
    · rw [carriedBy_singleton, carried_assistantMessage, PendingAfterTools.owed]

/-- One block: itself, where it is handed on, and the pending content where it is emitted. -/
theorem Injection.add_eq (state : Injection β) (block : β) (noImage : view block ≠ .image)
    (allowed : ∀ block ∈ state.pending.deferredBlocks,
      (view block).allowedInAssistant = true) :
    ∃ next, state.add view printing block = .ok next ∧
      carriedBy next.parts.flushed =
        carriedBy state.parts.flushed + ↑([block].filter fun block => (view block).ofUser) +
          emissions view state.pending.remainingToolIds [block] • state.pending.owed view ∧
      next.pending =
        { state.pending with
          remainingToolIds := unanswered view state.pending.remainingToolIds [block]
          deferredEmitted := state.pending.deferredEmitted ||
            decide (emissions view state.pending.remainingToolIds [block] ≠ 0) } ∧
      next.cleared = (state.cleared ||
        decide (emissions view state.pending.remainingToolIds [block] ≠ 0)) := by
  cases read : view block with
  | toolResult toolUseId content =>
    have remaining : (state.pending.discard (toolUseId.getD "")).remainingToolIds =
        unanswered view state.pending.remainingToolIds [block] := by
      refine List.filter_congr fun id _ => ?_
      rw [List.any_cons, List.any_nil, Bool.or_false, answersId, read]
      by_cases same : id = toolUseId.getD ""
      · simp [same]
      · simp [same, Ne.symm same]
    have isResult : (view block).isToolResult = true := by rw [read]; rfl
    have tooled : carriedBy (state.parts.flushed ++
          [toolMessage printing block toolUseId content]) =
        carriedBy state.parts.flushed + ↑([block].filter fun block => (view block).ofUser) := by
      rw [carriedBy_append, carriedBy_singleton, carried_toolMessage, List.filter_singleton, read]
      rfl
    by_cases done : unanswered view state.pending.remainingToolIds [block] = []
    · obtain ⟨messages, emitted, owed⟩ := deferredPostToolToMessages_eq view printing
        (state.pending.discard (toolUseId.getD "")) allowed
      have once : emissions view state.pending.remainingToolIds [block] = 1 := by
        rw [emissions, if_pos ⟨isResult, done⟩, emissions]
      refine ⟨⟨⟨state.parts.flushed ++ [toolMessage printing block toolUseId content] ++ messages,
        []⟩, { state.pending.discard (toolUseId.getD "") with deferredEmitted := true }, true⟩,
        ?_, ?_, ?_, ?_⟩
      · rw [Injection.add, read]
        simp only
        rw [if_pos (by rw [remaining, done]; rfl), emitted]
        rfl
      · rw [UserParts.carriedBy_flushed, carriedBy_append, tooled, owed, once, one_nsmul]
        exact add_zero _
      · rw [← remaining, once]
        simp [PendingAfterTools.discard]
      · rw [once]
        simp
    · have never : emissions view state.pending.remainingToolIds [block] = 0 := by
        rw [emissions, if_neg fun both => done both.2, emissions]
      refine ⟨⟨⟨state.parts.flushed ++ [toolMessage printing block toolUseId content], []⟩,
        state.pending.discard (toolUseId.getD ""), state.cleared⟩, ?_, ?_, ?_, ?_⟩
      · rw [Injection.add, read]
        simp only
        rw [if_neg (by rw [remaining]; simpa using done)]
      · rw [UserParts.carriedBy_flushed, tooled, never, zero_nsmul]
        rfl
      · rw [← remaining, never]
        simp [PendingAfterTools.discard]
      · rw [never]
        simp
  | _ =>
    have noResult : (view block).isToolResult = false := by rw [read]; rfl
    obtain ⟨parts, added, carried⟩ := UserParts.add_eq view printing state.parts block noImage
    have never : emissions view state.pending.remainingToolIds [block] = 0 := by
      rw [emissions, if_neg fun both => absurd both.1 (by rw [noResult]; decide), emissions]
    refine ⟨{ state with parts := parts }, ?_, ?_, ?_, ?_⟩
    · rw [Injection.add, read]
      simp only
      rw [added]
      rfl
    · rw [never, zero_nsmul, add_zero]
      exact carried
    · rw [unanswered_of_not_toolResult view _ noResult, never]
      simp
    · rw [never]
      simp

theorem emissions_cons (remaining : List String) (block : β) (rest : List β) :
    emissions view remaining (block :: rest) =
      emissions view remaining [block] +
        emissions view (unanswered view remaining [block]) rest := by
  rw [emissions, emissions, emissions, Nat.add_zero]

theorem foldlM_injection (content : List β) (state : Injection β)
    (noImage : ∀ block ∈ content, view block ≠ .image)
    (allowed : ∀ block ∈ state.pending.deferredBlocks,
      (view block).allowedInAssistant = true) :
    ∃ next, content.foldlM (Injection.add view printing) state = .ok next ∧
      carriedBy next.parts.flushed =
        carriedBy state.parts.flushed + ↑(content.filter fun block => (view block).ofUser) +
          emissions view state.pending.remainingToolIds content • state.pending.owed view ∧
      next.pending =
        { state.pending with
          remainingToolIds := unanswered view state.pending.remainingToolIds content
          deferredEmitted := state.pending.deferredEmitted ||
            decide (emissions view state.pending.remainingToolIds content ≠ 0) } ∧
      next.cleared = (state.cleared ||
        decide (emissions view state.pending.remainingToolIds content ≠ 0)) := by
  induction content generalizing state with
  | nil =>
    refine ⟨state, rfl, ?_, ?_, ?_⟩
    · simp [emissions]
    · simp [emissions]
    · simp [emissions]
  | cons block rest ih =>
    obtain ⟨middle, stepped, carried, waits, clears⟩ := Injection.add_eq view printing state block
      (noImage block List.mem_cons_self) allowed
    have sameBlocks : middle.pending.deferredBlocks = state.pending.deferredBlocks := by rw [waits]
    have sameOwed : middle.pending.owed view = state.pending.owed view := by rw [waits]; rfl
    have fewer : middle.pending.remainingToolIds =
        unanswered view state.pending.remainingToolIds [block] := by rw [waits]
    have either :
        (decide (emissions view state.pending.remainingToolIds [block] ≠ 0) ||
          decide (emissions view (unanswered view state.pending.remainingToolIds [block]) rest
            ≠ 0)) =
        decide (emissions view state.pending.remainingToolIds (block :: rest) ≠ 0) := by
      rw [emissions_cons view _ block rest, Bool.eq_iff_iff]
      simp only [Bool.or_eq_true, decide_eq_true_eq]
      omega
    obtain ⟨next, ran, more, waitsOn, clearsOn⟩ := ih middle
      (fun other member => noImage other (List.mem_cons_of_mem _ member))
      (by rw [sameBlocks]; exact allowed)
    refine ⟨next, ?_, ?_, ?_, ?_⟩
    · rw [List.foldlM_cons, stepped]
      exact ran
    · have split : (block :: rest).filter (fun block => (view block).ofUser) =
          [block].filter (fun block => (view block).ofUser) ++
            rest.filter fun block => (view block).ofUser := by
        rw [← List.filter_append, List.singleton_append]
      rw [more, carried, split, ← Multiset.coe_add, emissions_cons view _ block rest, add_nsmul,
        sameOwed, fewer]
      ac_rfl
    · rw [waitsOn, fewer, unanswered_append, List.singleton_append, waits, ← either]
      simp [Bool.or_assoc]
    · rw [clearsOn, clears, fewer, ← either, Bool.or_assoc]

end User

end ClaudeProxy
