/-
**Anthropic messages to OpenAI chat messages (`core/anthropic/conversion.py`).**

* `Block`, `Message` — a history as the request model admits it. The converter reads a block only
  through `get_block_type` and `get_block_attr`, so it is generic in the blocks: `view` reads one.
* `Part`, `Text`, `ChatMessage` — a chat message whose texts are still lists of parts, each part
  with the block it was read from; `Text.render` is the string the code joins them to.
* `convertAssistantMessage`, `convertUserMessage`, `convertUserMessageWithInjection` — the loops
  over the blocks of one message.
* `convertMessages` — the loop over the history, with the content that waits for tool results.
-/

import ClaudeProxy.Json
import ClaudeProxy.Python

namespace ClaudeProxy

/-! ### Histories -/

/-- `ReasoningReplayMode`. -/
inductive ReasoningReplayMode where
  | disabled
  | thinkTags
  | reasoningContent
  deriving DecidableEq, Repr

/-- A content block, by its `type`; `unknown` is a block of a type the converter does not name. -/
inductive Block where
  | text (text : String)
  | image
  | document
  | toolUse (id : Option String) (name : String) (input extraContent : Json)
  | toolResult (toolUseId : Option String) (content : Json)
  | thinking (thinking : String)
  | redactedThinking
  | serverToolUse
  | webSearchToolResult
  | webFetchToolResult
  | unknown
  deriving DecidableEq, Repr

/-- `block.type == "tool_use"`. -/
def Block.isToolUse : Block → Bool
  | .toolUse .. => true
  | _ => false

/-- `block.type == "tool_result"`. -/
def Block.isToolResult : Block → Bool
  | .toolResult .. => true
  | _ => false

/-- The role of a request message. -/
inductive Role where
  | user
  | assistant
  deriving DecidableEq, Repr

/-- The content of a request message. -/
inductive Content (β : Type) where
  | plain (text : String)
  | blocks (list : List β)
  deriving Repr

/-- A message of the request. -/
structure Message (β : Type) where
  role : Role
  content : Content β
  reasoningContent : Option String
  deriving Repr

/-- The content blocks of a message. -/
def Message.blocks {β : Type} (message : Message β) : List β :=
  match message.content with
  | .plain _ => []
  | .blocks list => list

/-! ### Chat messages -/

/-- A piece of text, with the block it was read from. -/
structure Part (β : Type) where
  text : String
  source : Option β
  deriving Repr

/-- A text to be joined; `filler` is written when the joined text is empty. -/
structure Text (β : Type) where
  separator : String
  parts : List (Part β)
  filler : String
  deriving Repr

namespace Text

variable {β : Type}

/-- The string the parts are joined to. -/
def joined (text : Text β) : String := Py.join text.separator (text.parts.map Part.text)

/-- The string written into the chat message. -/
def render (text : Text β) : String :=
  if text.joined = "" then text.filler else text.joined

/-- A text that no block is the source of. -/
def plain (text : String) : Text β := ⟨"", [⟨text, none⟩], ""⟩

/-- The empty text. -/
def empty : Text β := ⟨"", [], ""⟩

/-- The blocks the text was read from. -/
def sources (text : Text β) : List β := text.parts.filterMap Part.source

end Text

/-- The role of a chat message. -/
inductive ChatRole where
  | user
  | assistant
  | tool
  deriving DecidableEq, Repr

/-- An entry of `tool_calls`, with the block it was read from. -/
structure ToolCall (β : Type) where
  source : β
  id : Option String
  name : String
  arguments : String
  extraContent : Option (List (String × Json))
  deriving Repr

/-- A chat message. An empty `toolCalls` is a message without that key, and a `reasoningContent`
that renders to the empty string is a message without that one. -/
structure ChatMessage (β : Type) where
  role : ChatRole
  content : Text β
  toolCalls : List (ToolCall β)
  toolCallId : Option String
  reasoningContent : Text β
  deriving Repr

/-- The blocks a chat message carries. -/
def ChatMessage.carried {β : Type} (message : ChatMessage β) : List β :=
  message.content.sources ++ message.toolCalls.map ToolCall.source ++
    message.reasoningContent.sources

/-- A user message with the joined texts of user blocks. -/
def ChatMessage.user {β : Type} (parts : List (Part β)) : ChatMessage β :=
  { role := .user, content := ⟨"\n", parts, ""⟩, toolCalls := [], toolCallId := none,
    reasoningContent := Text.empty }

/-! ### Helpers -/

/-- The standard library's printing of values: `json.dumps(value)`,
`json.dumps(value, ensure_ascii=False)` and `str(value)`. -/
structure Printing where
  dumps : Json → String
  dumpsUnicode : Json → String
  str : Json → String

/-- `_clean_reasoning_content`. -/
def cleanReasoningContent (value : Option String) : Option String :=
  match value with
  | none => none
  | some text => if text = "" then none else some text

/-- `_think_tag_content`. -/
def thinkTagContent (reasoning : String) : String := s!"<think>\n{reasoning}\n</think>"

/-- One item of a tool result's list content. -/
def serializeToolResultItem (printing : Printing) (item : Json) : String :=
  match item with
  | .obj fields =>
    if Json.getKey fields "type" = .str "text" then
      match (Assoc.get? "text" fields).getD (.str "") with
      | .str text => text
      | value => printing.str value
    else printing.dumpsUnicode item
  | .str text => text
  | _ => printing.str item

/-- `_serialize_tool_result_content`. -/
def serializeToolResultContent (printing : Printing) (toolContent : Json) : String :=
  match toolContent with
  | .null => ""
  | .str text => text
  | .obj _ => printing.dumpsUnicode toolContent
  | .arr items => Py.join "\n" (items.map (serializeToolResultItem printing))
  | _ => printing.str toolContent

/-- `_assert_no_forbidden_assistant_block`. -/
def assertNoForbiddenAssistantBlock : Block → Except PyError Unit
  | .image =>
    .error (.openAIConversionError
      "Assistant image blocks are not supported for OpenAI chat conversion.")
  | .serverToolUse => serverToolError "'server_tool_use'"
  | .webSearchToolResult => serverToolError "'web_search_tool_result'"
  | .webFetchToolResult => serverToolError "'web_fetch_tool_result'"
  | _ => .ok ()
where
  /-- The error of an assistant message with a server tool block. -/
  serverToolError (blockType : String) : Except PyError Unit :=
    .error (.openAIConversionError
      ("OpenAI chat conversion does not support Anthropic server tool blocks " ++
        s!"({blockType} in an assistant message). Use a native Anthropic transport provider."))

/-- The error of a user message with an image block. -/
def userImageError : PyError :=
  .openAIConversionError
    ("User message image blocks are not supported for OpenAI chat " ++
      "conversion; use a vision-capable native Anthropic provider or " ++
      "extend the converter.")

section Converter

variable {β : Type} (view : β → Block) (printing : Printing)

/-- `_tool_call_from_tool_use`, with the values of a `tool_use` block. -/
def toolCallFromToolUse (source : β) (id : Option String) (name : String)
    (input extraContent : Json) : ToolCall β :=
  { source := source
    id := id
    name := name
    arguments :=
      match input with
      | .obj _ => printing.dumps input
      | _ => printing.str input
    extraContent :=
      match extraContent with
      | .obj [] => none
      | .obj fields => some fields
      | _ => none }

/-- `_iter_tool_uses_in_order`. -/
def iterToolUsesInOrder (blocks : List β) : List (ToolCall β) :=
  blocks.filterMap fun block =>
    match view block with
    | .toolUse id name input extraContent =>
      some (toolCallFromToolUse printing block id name input extraContent)
    | _ => none

/-- `_index_first_tool_use`. -/
def indexFirstToolUse (blocks : List β) : Option Nat :=
  blocks.findIdx? fun block => (view block).isToolUse

/-- `_deferred_post_tool_blocks`. -/
def deferredPostToolBlocks (content : List β) (firstToolIndex : Nat) : List β :=
  (content.drop (firstToolIndex + 1)).filter fun block => !(view block).isToolUse

/-- `_PendingAfterTools`. The set of ids is a list; `discard` takes out every copy. -/
structure PendingAfterTools (β : Type) where
  remainingToolIds : List String
  deferredBlocks : List β
  topLevelReasoning : Option String
  reasoningReplay : ReasoningReplayMode
  deferredEmitted : Bool

/-- `needs_deferred`. -/
def PendingAfterTools.needsDeferred (pending : PendingAfterTools β) : Bool :=
  !pending.deferredBlocks.isEmpty && !pending.deferredEmitted

/-- `remaining_tool_ids.discard(id)`. -/
def PendingAfterTools.discard (pending : PendingAfterTools β) (id : String) :
    PendingAfterTools β :=
  { pending with remainingToolIds := pending.remainingToolIds.filter (· ≠ id) }

/-! ### One assistant message -/

/-- The three lists `_convert_assistant_message` collects. -/
structure AssistantParts (β : Type) where
  contentParts : List (Part β) := []
  thinkingParts : List (Part β) := []
  toolCalls : List (ToolCall β) := []

/-- One block of the loop in `_convert_assistant_message`. -/
def AssistantParts.add (reasoning : Option String) (replay : ReasoningReplayMode)
    (parts : AssistantParts β) (block : β) : Except PyError (AssistantParts β) :=
  match view block with
  | .text text =>
    .ok { parts with contentParts := parts.contentParts ++ [⟨text, some block⟩] }
  | .thinking thinking =>
    match replay with
    | .disabled => .ok parts
    | .thinkTags =>
      .ok { parts with
        contentParts := parts.contentParts ++ [⟨thinkTagContent thinking, some block⟩] }
    | .reasoningContent =>
      if reasoning = none then
        .ok { parts with thinkingParts := parts.thinkingParts ++ [⟨thinking, some block⟩] }
      else .ok parts
  | .redactedThinking => .ok parts
  | .toolUse id name input extraContent =>
    .ok { parts with
      toolCalls := parts.toolCalls ++
        [toolCallFromToolUse printing block id name input extraContent] }
  | other => do
    assertNoForbiddenAssistantBlock other
    .ok parts

/-- The message `_convert_assistant_message` builds from what it collected. -/
def AssistantParts.message (reasoning : Option String) (replay : ReasoningReplayMode)
    (parts : AssistantParts β) : ChatMessage β :=
  { role := .assistant
    content := ⟨"\n\n", parts.contentParts, if parts.toolCalls.isEmpty then " " else ""⟩
    toolCalls := parts.toolCalls
    toolCallId := none
    reasoningContent :=
      match replay with
      | .reasoningContent =>
        match reasoning with
        | some text => Text.plain text
        | none => ⟨"\n", parts.thinkingParts, ""⟩
      | _ => Text.empty }

/-- `_convert_assistant_message`, whose list always holds one message. -/
def convertAssistantMessage (reasoning : Option String) (replay : ReasoningReplayMode)
    (content : List β) : Except PyError (ChatMessage β) := do
  let parts ← content.foldlM (AssistantParts.add view printing reasoning replay) {}
  .ok (parts.message reasoning replay)

/-- `pre_msg["content"] = ""` where it is `" "`. -/
def ChatMessage.unblanked (message : ChatMessage β) : ChatMessage β :=
  if message.content.render = " " then
    if message.content.joined = "" then
      { message with content := { message.content with filler := "" } }
    else { message with content := Text.empty }
  else message

/-- `pre_msg` of `_convert_assistant_message_with_split`, before it gets its tool calls. -/
def preMessage (reasoning : Option String) (replay : ReasoningReplayMode) (pre : List β) :
    Except PyError (ChatMessage β) :=
  if pre.isEmpty then
    .ok { role := .assistant
          content := Text.empty
          toolCalls := []
          toolCallId := none
          reasoningContent :=
            match replay, reasoning with
            | .reasoningContent, some text => Text.plain text
            | _, _ => Text.empty }
  else convertAssistantMessage view printing reasoning replay pre

/-- `res_ids` of `_convert_assistant_message_with_split`: the ids that are not blank. -/
def awaitedIds (toolCalls : List (ToolCall β)) : List String :=
  (toolCalls.filterMap ToolCall.id).filter fun id => Py.strip id ≠ ""

/-- `_convert_assistant_message_with_split`. -/
def convertAssistantMessageWithSplit (reasoning : Option String) (replay : ReasoningReplayMode)
    (content : List β) (firstToolIndex : Nat) :
    Except PyError (ChatMessage β × Option (PendingAfterTools β)) := do
  let toolCalls := iterToolUsesInOrder view printing content
  if toolCalls.isEmpty then
    let message ← convertAssistantMessage view printing reasoning replay content
    .ok (message, none)
  else
    let deferredBlocks := deferredPostToolBlocks view content firstToolIndex
    let preMsg ← preMessage view printing reasoning replay (content.take firstToolIndex)
    let message := { preMsg.unblanked with toolCalls := toolCalls }
    if deferredBlocks.isEmpty then .ok (message, none)
    else
      .ok (message, some
        { remainingToolIds := awaitedIds toolCalls
          deferredBlocks := deferredBlocks
          topLevelReasoning := reasoning
          reasoningReplay := replay
          deferredEmitted := false })

/-- `_deferred_post_tool_to_messages`. -/
def deferredPostToolToMessages (pending : PendingAfterTools β) :
    Except PyError (List (ChatMessage β)) :=
  if pending.deferredBlocks.isEmpty then .ok []
  else do
    let message ← convertAssistantMessage view printing pending.topLevelReasoning
      pending.reasoningReplay pending.deferredBlocks
    .ok [message]

/-! ### One user message -/

/-- `flush_text`. -/
def flushText (textParts : List (Part β)) : List (ChatMessage β) :=
  if textParts.isEmpty then [] else [ChatMessage.user textParts]

/-- The `role: tool` message of a `tool_result` block. -/
def toolMessage (source : β) (toolUseId : Option String) (content : Json) : ChatMessage β :=
  { role := .tool
    content := ⟨"", [⟨serializeToolResultContent printing content, some source⟩], ""⟩
    toolCalls := []
    toolCallId := toolUseId
    reasoningContent := Text.empty }

/-- What the loops over a user message's blocks carry: the messages so far and the texts not
flushed yet. -/
structure UserParts (β : Type) where
  result : List (ChatMessage β) := []
  textParts : List (Part β) := []

/-- The messages after the last `flush_text`. -/
def UserParts.flushed (parts : UserParts β) : List (ChatMessage β) :=
  parts.result ++ flushText parts.textParts

/-- One block of the loop in `_convert_user_message`. -/
def UserParts.add (parts : UserParts β) (block : β) : Except PyError (UserParts β) :=
  match view block with
  | .text text => .ok { parts with textParts := parts.textParts ++ [⟨text, some block⟩] }
  | .image => .error userImageError
  | .toolResult toolUseId content =>
    .ok { result := parts.flushed ++ [toolMessage printing block toolUseId content] }
  | _ => .ok parts

/-- `_convert_user_message`. -/
def convertUserMessage (content : List β) : Except PyError (List (ChatMessage β)) := do
  let parts ← content.foldlM (UserParts.add view printing) {}
  .ok parts.flushed

/-- What the loop of `_convert_user_message_with_injection` carries. -/
structure Injection (β : Type) where
  parts : UserParts β
  pending : PendingAfterTools β
  cleared : Bool

/-- One block of the loop in `_convert_user_message_with_injection`. -/
def Injection.add (state : Injection β) (block : β) : Except PyError (Injection β) :=
  match view block with
  | .toolResult toolUseId content => do
    let result := state.parts.flushed ++ [toolMessage printing block toolUseId content]
    let pending := state.pending.discard (toolUseId.getD "")
    if pending.remainingToolIds.isEmpty then
      let deferred ← deferredPostToolToMessages view printing pending
      .ok { parts := { result := result ++ deferred }
            pending := { pending with deferredEmitted := true }
            cleared := true }
    else .ok { state with parts := { result := result }, pending := pending }
  | _ => do
    let parts ← state.parts.add view printing block
    .ok { state with parts := parts }

/-- `_convert_user_message_with_injection`: the messages, whether the pending content was emitted,
and what the call made of `pending`. -/
def convertUserMessageWithInjection (content : List β) (pending : PendingAfterTools β) :
    Except PyError (List (ChatMessage β) × Bool × PendingAfterTools β) :=
  if !pending.needsDeferred || pending.remainingToolIds.isEmpty then do
    let messages ← convertUserMessage view printing content
    .ok (messages, false, pending)
  else do
    let state ← content.foldlM (Injection.add view printing) ⟨{}, pending, false⟩
    .ok (state.parts.flushed, state.cleared, state.pending)

/-! ### The history -/

/-- A message with plain text, with the assistant's reasoning where the mode replays it. -/
def convertPlainMessage (role : Role) (text : String) (reasoning : Option String)
    (replay : ReasoningReplayMode) : ChatMessage β :=
  let converted : ChatMessage β :=
    { role := match role with
        | .user => .user
        | .assistant => .assistant
      content := Text.plain text
      toolCalls := []
      toolCallId := none
      reasoningContent := Text.empty }
  match role, reasoning, replay with
  | .assistant, some thought, .reasoningContent =>
    { converted with reasoningContent := Text.plain thought }
  | .assistant, some thought, .thinkTags =>
    let contentParts : List (Part β) :=
      ⟨thinkTagContent thought, none⟩ :: (if text = "" then [] else [⟨text, none⟩])
    { converted with content := ⟨"\n\n", contentParts, ""⟩ }
  | _, _, _ => converted

/-- What the loop over the history carries. -/
structure Conversion (β : Type) where
  result : List (ChatMessage β) := []
  pending : Option (PendingAfterTools β) := none

/-- Emits the pending content and forgets it, where there is some. -/
def Conversion.flushDeferred (state : Conversion β) : Except PyError (Conversion β) :=
  match state.pending with
  | none => .ok state
  | some pending =>
    if pending.needsDeferred then do
      let deferred ← deferredPostToolToMessages view printing pending
      .ok { result := state.result ++ deferred, pending := none }
    else .ok state

/-- An assistant message with a list of blocks. -/
def Conversion.addAssistantBlocks (replay : ReasoningReplayMode) (reasoning : Option String)
    (state : Conversion β) (content : List β) : Except PyError (Conversion β) := do
  let state ← state.flushDeferred view printing
  match indexFirstToolUse view content with
  | some firstToolIndex =>
    content.forM fun block =>
      if (view block).isToolUse then .ok () else assertNoForbiddenAssistantBlock (view block)
    let (message, newPending) ←
      convertAssistantMessageWithSplit view printing reasoning replay content firstToolIndex
    .ok { result := state.result ++ [message], pending := newPending.or state.pending }
  | none =>
    content.forM fun block => assertNoForbiddenAssistantBlock (view block)
    let message ← convertAssistantMessage view printing reasoning replay content
    .ok { state with result := state.result ++ [message] }

/-- A user message with a list of blocks. -/
def Conversion.addUserBlocks (state : Conversion β) (content : List β) :
    Except PyError (Conversion β) :=
  let plainly (state : Conversion β) : Except PyError (Conversion β) := do
    let messages ← convertUserMessage view printing content
    .ok { state with result := state.result ++ messages }
  match state.pending with
  | none => plainly state
  | some pending =>
    if !pending.needsDeferred then plainly state
    else if pending.remainingToolIds.isEmpty then do
      let state ← state.flushDeferred view printing
      plainly state
    else do
      let (messages, cleared, pending) ←
        convertUserMessageWithInjection view printing content pending
      .ok { result := state.result ++ messages
            pending := if cleared then none else some pending }

/-- One message of the loop in `convert_messages`. -/
def Conversion.add (replay : ReasoningReplayMode) (state : Conversion β) (message : Message β) :
    Except PyError (Conversion β) :=
  let reasoning := cleanReasoningContent message.reasoningContent
  match message.role, message.content with
  | .assistant, .blocks content => state.addAssistantBlocks view printing replay reasoning content
  | .user, .blocks content => state.addUserBlocks view printing content
  | .assistant, .plain text =>
    .ok { state with
      result := state.result ++ [convertPlainMessage .assistant text reasoning replay] }
  | .user, .plain text => do
    let state ← state.flushDeferred view printing
    .ok { state with result := state.result ++ [convertPlainMessage .user text reasoning replay] }

/-- `AnthropicToOpenAIConverter.convert_messages`. -/
def convertMessages (replay : ReasoningReplayMode) (messages : List (Message β)) :
    Except PyError (List (ChatMessage β)) := do
  let state ← messages.foldlM (Conversion.add view printing replay) {}
  let state ← state.flushDeferred view printing
  .ok state.result

end Converter

end ClaudeProxy
