/-
**The DeepSeek request builder** (`providers/deepseek/request.py`).

* `DeepseekRequest` — the fields of a validated request as `dump_raw_messages_request` gives them:
  its messages are objects with a role and a content, text or a list of typed blocks.
* `buildRequestBody` — the attachments are stripped, the request is validated, thinking is decided,
  and the messages are sanitized, normalized and stripped of `reasoning_content`.
* `buildRequestBody_ok` — what a body that is returned is made of; `walkContent_eq` — the validator's
  walk ends at the first block, in order of reading, that it cannot let through.
-/

import ClaudeProxy.Conversion.Chat

namespace ClaudeProxy

/-- `dict.pop(key, None)`. -/
def Json.popKey (fields : List (String × Json)) (key : String) : List (String × Json) :=
  fields.filter fun field => decide (field.1 ≠ key)

/-- The items of a list; nothing else has items here. -/
def Json.items : Json → List Json
  | .arr items => items
  | _ => []

/-- `value.get(key)`, where only an object has members. -/
def Json.member (value : Json) (key : String) : Json :=
  match value with
  | .obj fields => Json.getKey fields key
  | _ => .null

namespace Deepseek

/-! ### Requests -/

/-- The type of a block. -/
def blockType (block : Json) : Json := block.member "type"

def contentBlockTypes : List String :=
  ["text", "image", "document", "tool_use", "tool_result", "thinking", "redacted_thinking",
    "server_tool_use", "web_search_tool_result", "web_fetch_tool_result"]

def isContentBlock (block : Json) : Bool :=
  contentBlockTypes.any fun type => decide (blockType block = .str type)

/-- `Message`: its role, and its content, a text or a list of blocks. -/
def isMessage (message : Json) : Bool :=
  (decide (message.member "role" = .str "user") ||
    decide (message.member "role" = .str "assistant")) &&
    match message.member "content" with
    | .str _ => true
    | .arr blocks => blocks.all isContentBlock
    | _ => false

/-- `SystemContent`. -/
def isSystemBlock (block : Json) : Bool := decide (blockType block = .str "text")

/-- The fields of a validated request. -/
structure DeepseekRequest where
  data : List (String × Json)
  messages : List Json
  listed : Json.getKey data "messages" = .arr messages
  valid : messages.all isMessage = true
  system : (Json.getKey data "system").items.all isSystemBlock = true

/-! ### The model -/

def unsupportedMessageBlockTypes : List String :=
  ["image", "document", "server_tool_use", "web_search_tool_result", "web_fetch_tool_result"]

def strippableMessageBlockTypes : List String := ["image", "document"]

def omittedAttachmentText : String :=
  "[attachment omitted: DeepSeek does not support image or document inputs]"

def omittedAttachmentBlock : Json :=
  .obj [("type", .str "text"), ("text", .str omittedAttachmentText)]

/-- `value in types`: a list or a dict has no hash. -/
def isOneOf (types : List String) (value : Json) : Except PyError Bool :=
  match value with
  | .str type => .ok (types.contains type)
  | .arr _ =>
    .error (.typeError "cannot use 'list' as a set element (unhashable type: 'list')")
  | .obj _ =>
    .error (.typeError "cannot use 'dict' as a set element (unhashable type: 'dict')")
  | _ => .ok false

/-- Whether a dict has a strippable type. -/
def isStrippable (block : Json) : Except PyError Bool :=
  match block with
  | .obj fields => isOneOf strippableMessageBlockTypes (Json.getKey fields "type")
  | _ => .ok false

/-- The blocks that are not attachments. -/
def withoutAttachments : List Json → Except PyError (List Json)
  | [] => .ok []
  | block :: rest => do
    let dropped ← isStrippable block
    let kept ← withoutAttachments rest
    return if dropped then kept else block :: kept

/-- A `tool_result` loses the attachments in its list content. -/
def stripToolResult (block : Json) : Except PyError Json :=
  match block with
  | .obj fields =>
    if Json.getKey fields "type" = .str "tool_result" then
      match Json.getKey fields "content" with
      | .arr inner => do
        let filteredInner ← withoutAttachments inner
        return .obj (Json.setKey fields "content"
          (.arr (if filteredInner = [] then [omittedAttachmentBlock] else filteredInner)))
      | _ => .ok block
    else .ok block
  | _ => .ok block

/-- The blocks of a message that are kept; `none` is a dropped attachment. -/
def stripBlock (block : Json) : Except PyError (Option Json) := do
  if ← isStrippable block then
    return none
  else
    return some (← stripToolResult block)

/-- `_strip_unsupported_attachment_blocks`, for one message. -/
def stripMessage (message : Json) : Except PyError Json :=
  match message with
  | .obj fields =>
    match Json.getKey fields "content" with
    | .arr content => do
      let stripped ← content.mapM stripBlock
      let newContent := stripped.reduceOption
      return .obj (Json.setKey fields "content" (.arr
        (if newContent = [] ∧ none ∈ stripped then [omittedAttachmentBlock] else newContent)))
    | _ => .ok message
  | _ => .ok message

/-- `_strip_unsupported_attachment_blocks`. -/
def stripUnsupportedAttachmentBlocks (messages : List Json) : Except PyError (List Json) :=
  messages.mapM stripMessage

/-- `_is_server_listed_tool`; a tool's name is a string. -/
def isServerListedTool (tool : Json) : Bool :=
  let name := match tool.member "name" with
    | .str name => Py.strip name
    | _ => ""
  if name = "web_search" ∨ name = "web_fetch" then true
  else
    match tool.member "type" with
    | .str type => Py.startsWith type "web_search" || Py.startsWith type "web_fetch"
    | _ => false

def invalidRequest (message : String) : PyError := .other "InvalidRequestError" message

/-- The refusal of a block, whose type is one of the unsupported ones. -/
def unsupportedBlock (type : Json) (location : String) : PyError :=
  let name := match type with
    | .str name => name
    | _ => ""
  invalidRequest s!"DeepSeek native does not support '{name}' blocks ({location})."

mutual

/-- `_walk_block_list_for_unsupported`. -/
def walkContent (location : String) : Json → Except PyError Unit
  | .arr blocks => walkBlocks location blocks
  | _ => .ok ()

/-- Its loop. -/
def walkBlocks (location : String) : List Json → Except PyError Unit
  | [] => .ok ()
  | block :: rest => do
    walkBlock location block
    walkBlocks location rest

/-- The body of its loop. -/
def walkBlock (location : String) : Json → Except PyError Unit
  | .obj fields => do
    if ← isOneOf unsupportedMessageBlockTypes (Json.getKey fields "type") then
      throw (unsupportedBlock (Json.getKey fields "type") location)
    if Json.getKey fields "type" = .str "tool_result" then
      walkMember (location ++ " (tool_result content)") fields
  | _ => .ok ()

/-- The content of a block, if it has one. -/
def walkMember (location : String) : List (String × Json) → Except PyError Unit
  | [] => .ok ()
  | (key, value) :: rest =>
    if key = "content" then walkContent location value else walkMember location rest

end

/-- The validator's loop over the messages, from one of them on. -/
def walkMessages (i : Nat) : List Json → Except PyError Unit
  | [] => .ok ()
  | message :: rest => do
    walkContent s!"messages[{i}].content" (message.member "content")
    walkMessages (i + 1) rest

/-- `_validate_deepseek_native_request_dict`. -/
def validateDeepseekNativeRequestDict (data : List (String × Json)) : Except PyError Unit := do
  if (Json.getKey data "mcp_servers").items ≠ [] then
    throw (invalidRequest "DeepSeek native does not support mcp_servers on requests.")
  if (Json.getKey data "tools").items.any isServerListedTool then
    throw (invalidRequest ("DeepSeek native does not support listed Anthropic server tools " ++
      "(web_search / web_fetch). Remove them or use a different provider."))
  walkMessages 0 (Json.getKey data "messages").items
  walkContent "system" (Json.getKey data "system")

/-- `_has_tool_history_blocks`. -/
def hasToolHistoryBlocks (message : Json) : Bool :=
  (message.member "content").items.any fun block =>
    decide (message.member "role" = .str "assistant" ∧ blockType block = .str "tool_use") ||
      decide (message.member "role" = .str "user" ∧ blockType block = .str "tool_result")

/-- The loop of `_has_replayable_thinking_before_tool_use`. -/
def thinkingAtToolUse (hasThinking : Bool) : List Json → Bool
  | [] => false
  | block :: rest =>
    match blockType block, block.member "thinking" with
    | .str "thinking", .str thinking => thinkingAtToolUse (decide (thinking ≠ "")) rest
    | .str "tool_use", _ => hasThinking
    | _, _ => thinkingAtToolUse hasThinking rest

/-- `_has_replayable_thinking_before_tool_use`. -/
def hasReplayableThinkingBeforeToolUse (message : Json) : Bool :=
  decide (message.member "role" = .str "assistant") &&
    thinkingAtToolUse false (message.member "content").items

/-- `_has_tool_history`. -/
def hasToolHistory (data : List (String × Json)) : Bool :=
  (Json.getKey data "messages").items.any hasToolHistoryBlocks

/-- `_has_replayable_tool_thinking`. -/
def hasReplayableToolThinking (data : List (String × Json)) : Bool :=
  (Json.getKey data "messages").items.any hasReplayableThinkingBeforeToolUse

/-- An edit that clears thinking. -/
def isClearThinkingEdit (edit : Json) : Bool :=
  match blockType edit with
  | .str type => Py.startsWith type "clear_thinking_"
  | _ => false

/-- A member is replaced by what is left of it, or goes with its last member. -/
def setOrPop (data : List (String × Json)) (key : String) (cleaned : List (String × Json)) :
    List (String × Json) :=
  if cleaned = [] then Json.popKey data key else Json.setKey data key (.obj cleaned)

/-- The first half of `_remove_deepseek_thinking_hints`. -/
def removeEffort (data : List (String × Json)) : List (String × Json) :=
  match Json.getKey data "output_config" with
  | .obj outputConfig =>
    if "effort" ∈ outputConfig.map Prod.fst then
      setOrPop data "output_config" (Json.popKey outputConfig "effort")
    else data
  | _ => data

/-- The second half of `_remove_deepseek_thinking_hints`. -/
def removeClearThinkingEdits (data : List (String × Json)) : List (String × Json) :=
  match Json.getKey data "context_management" with
  | .obj contextManagement =>
    match Json.getKey contextManagement "edits" with
    | .arr edits =>
      let filteredEdits := edits.filter fun edit => !isClearThinkingEdit edit
      if filteredEdits.length = edits.length then data
      else if filteredEdits = [] then
        setOrPop data "context_management" (Json.popKey contextManagement "edits")
      else
        Json.setKey data "context_management"
          (.obj (Json.setKey contextManagement "edits" (.arr filteredEdits)))
    | _ => data
  | _ => data

/-- `_remove_deepseek_thinking_hints`. -/
def removeDeepseekThinkingHints (data : List (String × Json)) : List (String × Json) :=
  removeClearThinkingEdits (removeEffort data)

/-- The blocks of an assistant message that DeepSeek is sent. -/
def isReplayed (thinkingEnabled : Bool) (block : Json) : Bool :=
  if thinkingEnabled then decide (blockType block ≠ .str "redacted_thinking")
  else decide (blockType block ≠ .str "thinking" ∧ blockType block ≠ .str "redacted_thinking")

/-- `sanitize_deepseek_messages_for_native`, for one message. -/
def sanitizeMessage (thinkingEnabled : Bool) (message : Json) : Json :=
  match message with
  | .obj fields =>
    if Json.getKey fields "role" = .str "assistant" then
      match Json.getKey fields "content" with
      | .arr content =>
        let filtered := content.filter (isReplayed thinkingEnabled)
        .obj (Json.setKey fields "content" (if filtered = [] then .str "" else .arr filtered))
      | _ => message
    else message
  | _ => message

/-- The string that a block's content is turned into; this is `_serialize_tool_result_content` again. -/
def normalizeBlock (printing : Printing) (block : Json) : Json :=
  match block with
  | .obj fields =>
    if Json.getKey fields "type" = .str "tool_result" then
      .obj (Json.setKey fields "content"
        (.str (serializeToolResultContent printing (Json.getKey fields "content"))))
    else block
  | _ => block

/-- `_normalize_tool_result_content`, for one message. -/
def normalizeMessage (printing : Printing) (message : Json) : Json :=
  match message with
  | .obj fields =>
    match Json.getKey fields "content" with
    | .arr content =>
      .obj (Json.setKey fields "content" (.arr (content.map (normalizeBlock printing))))
    | _ => message
  | _ => message

/-- `_strip_reasoning_content_when_native`, for one message. -/
def stripReasoningContent (message : Json) : Json :=
  match message with
  | .obj fields => .obj (Json.popKey fields "reasoning_content")
  | _ => message

/-- `_downgrade_forced_tool_choice`. -/
def downgradeForcedToolChoice (data : List (String × Json)) : List (String × Json) :=
  let toolChoice := Json.getKey data "tool_choice"
  match toolChoice.member "type", toolChoice.member "name" with
  | .str "tool", .str _ => Json.setKey data "tool_choice" (.obj [("type", .str "auto")])
  | _, _ => data

/-- `isinstance(value, dict)`. -/
def isObject : Json → Bool
  | .obj _ => true
  | _ => false

/-- The thinking that is asked for. -/
def thinkingPayload (thinkingCfg : Json) : Json :=
  match (thinkingCfg.member "budget_tokens").asInt? with
  | some _ => .obj [("type", .str "enabled"), ("budget_tokens", thinkingCfg.member "budget_tokens")]
  | none => .obj [("type", .str "enabled")]

def anthropicDefaultMaxOutputTokens : Int := 81920

/-- A tool follow-up without thinking to replay. -/
def unsafeToolFollowup (data : List (String × Json)) : Bool :=
  hasToolHistory data && !hasReplayableToolThinking data

/-- A message as it is sent. -/
def nativeMessage (printing : Printing) (thinkingEnabled : Bool) (message : Json) : Json :=
  stripReasoningContent (normalizeMessage printing (sanitizeMessage thinkingEnabled message))

/-- What follows the validation. -/
def nativeBody (printing : Printing) (data : List (String × Json)) (thinkingEnabled : Bool) :
    List (String × Json) :=
  let data := downgradeForcedToolChoice (Json.popKey data "extra_body")
  let effectiveThinkingEnabled := thinkingEnabled && !unsafeToolFollowup data
  let data := if thinkingEnabled && unsafeToolFollowup data then removeDeepseekThinkingHints data
    else data
  let thinkingCfg := Json.getKey data "thinking"
  let data := Json.popKey data "thinking"
  let data := if effectiveThinkingEnabled && isObject thinkingCfg then
      Json.setKey data "thinking" (thinkingPayload thinkingCfg)
    else data
  let data := Json.setKey data "messages" (.arr ((Json.getKey data "messages").items.map
    (nativeMessage printing effectiveThinkingEnabled)))
  let data := if Json.getKey data "max_tokens" = .null then
      Json.setKey data "max_tokens" (.int anthropicDefaultMaxOutputTokens)
    else data
  Json.setKey data "stream" (.bool true)

/-- `build_request_body`. -/
def buildRequestBody (printing : Printing) (request : DeepseekRequest) (thinkingEnabled : Bool) :
    Except PyError (List (String × Json)) := do
  let messages ← stripUnsupportedAttachmentBlocks request.messages
  let data := Json.setKey request.data "messages" (.arr messages)
  validateDeepseekNativeRequestDict data
  return nativeBody printing data thinkingEnabled

/-! ### Members -/

@[simp] theorem member_obj (fields : List (String × Json)) (key : String) :
    (Json.obj fields).member key = Json.getKey fields key := rfl

theorem getKey_popKey_self (fields : List (String × Json)) (key : String) :
    Json.getKey (Json.popKey fields key) key = .null := by
  induction fields with
  | nil => rfl
  | cons field rest ih =>
    by_cases same : field.1 = key
    · rw [Json.popKey, List.filter_cons_of_neg (by simp [same])]
      exact ih
    · rw [Json.popKey, List.filter_cons_of_pos (by simp [same]), Json.getKey, Assoc.get?_cons,
        if_neg same]
      exact ih

theorem getKey_popKey_ne (fields : List (String × Json)) {key other : String}
    (different : other ≠ key) : Json.getKey (Json.popKey fields key) other = Json.getKey fields other := by
  induction fields with
  | nil => rfl
  | cons field rest ih =>
    by_cases same : field.1 = key
    · rw [Json.popKey, List.filter_cons_of_neg (by simp [same])]
      rw [Json.getKey, Json.getKey, Assoc.get?_cons, if_neg fun hit => different (hit.symm.trans same)]
      exact ih
    · rw [Json.popKey, List.filter_cons_of_pos (by simp [same])]
      by_cases hit : field.1 = other
      · rw [Json.getKey, Json.getKey, Assoc.get?_cons, Assoc.get?_cons, if_pos hit, if_pos hit]
      · rw [Json.getKey, Json.getKey, Assoc.get?_cons, Assoc.get?_cons, if_neg hit, if_neg hit]
        exact ih

theorem notMem_popKey (fields : List (String × Json)) (key : String) :
    key ∉ (Json.popKey fields key).map Prod.fst := by
  intro member
  obtain ⟨field, inside, same⟩ := List.mem_map.mp member
  exact absurd same (of_decide_eq_true (List.mem_filter.mp inside).2)

/-- The blocks of a message whose content is a list. -/
def blocks (message : Json) : List Json := (message.member "content").items

/-! ### Types without a hash -/

/-- A list or a dict has no hash. -/
def isUnhashable : Json → Bool
  | .arr _ | .obj _ => true
  | _ => false

def isAttachment (block : Json) : Bool :=
  decide (blockType block = .str "image" ∨ blockType block = .str "document")

/-- A run that returns this value, unless something bad makes it raise a `TypeError`. -/
structure Guarded {α : Type} (run : Except PyError α) (bad : Bool) (value : α) : Prop where
  returns : bad = false → run = .ok value
  raises : bad = true → ∃ message, run = .error (.typeError message)

namespace Guarded

variable {α β : Type}

theorem ok (value : α) : Guarded (.ok value) false value :=
  ⟨fun _ => rfl, fun never => Bool.noConfusion never⟩

theorem bind {run : Except PyError α} {next : α → Except PyError β} {bad bad' : Bool} {value : α}
    {value' : β} (first : Guarded run bad value) (second : Guarded (next value) bad' value') :
    Guarded (run >>= next) (bad || bad') value' := by
  constructor
  · intro fine
    obtain ⟨good, good'⟩ := Bool.or_eq_false_iff.mp fine
    rw [first.returns good]
    exact second.returns good'
  · intro wrong
    cases bad with
    | true =>
      obtain ⟨message, raised⟩ := first.raises rfl
      exact ⟨message, by rw [raised]; rfl⟩
    | false =>
      rw [first.returns rfl]
      exact second.raises wrong

theorem mapM {run : α → Except PyError β} {bad : α → Bool} {value : α → β}
    (each : ∀ item, Guarded (run item) (bad item) (value item)) (items : List α) :
    Guarded (items.mapM run) (items.any bad) (items.map value) := by
  induction items with
  | nil => exact .ok []
  | cons item rest ih =>
    rw [List.mapM_cons, List.any_cons, List.map_cons]
    refine (each item).bind ?_
    rw [← Bool.or_false (rest.any bad)]
    exact ih.bind (.ok _)

end Guarded

/-! ### What the strip leaves -/

theorem isStrippable_guarded (block : Json) :
    Guarded (isStrippable block) (isUnhashable (blockType block)) (isAttachment block) := by
  have among (value : Json) : Guarded (isOneOf strippableMessageBlockTypes value)
      (isUnhashable value) (decide (value = .str "image" ∨ value = .str "document")) := by
    cases value with
    | arr items => exact ⟨fun never => Bool.noConfusion never, fun _ => ⟨_, rfl⟩⟩
    | obj fields => exact ⟨fun never => Bool.noConfusion never, fun _ => ⟨_, rfl⟩⟩
    | str type =>
      refine ⟨fun _ => ?_, fun never => Bool.noConfusion never⟩
      simp [isOneOf, strippableMessageBlockTypes]
    | null | bool | int | float => exact ⟨fun _ => by simp [isOneOf], fun never => Bool.noConfusion never⟩
  cases block with
  | obj fields => exact among (Json.getKey fields "type")
  | null | bool | int | float | str | arr =>
    exact ⟨fun _ => by simp [isStrippable, isAttachment, blockType, Json.member],
      fun never => Bool.noConfusion never⟩

theorem withoutAttachments_guarded (inner : List Json) :
    Guarded (withoutAttachments inner) (inner.any fun block => isUnhashable (blockType block))
      (inner.filter fun block => !isAttachment block) := by
  induction inner with
  | nil => exact .ok []
  | cons block rest ih =>
    rw [withoutAttachments, List.any_cons, List.filter_cons]
    refine (isStrippable_guarded block).bind ?_
    rw [← Bool.or_false (rest.any _)]
    refine ih.bind ?_
    cases isAttachment block <;> exact .ok _

/-- The items of a tool result's list content. -/
def innerItems (block : Json) : List Json :=
  if blockType block = .str "tool_result" then (block.member "content").items else []

/-- A type without a hash, where the strip looks. -/
def hasUnhashable (block : Json) : Bool :=
  isUnhashable (blockType block) ||
    (innerItems block).any fun inner => isUnhashable (blockType inner)

/-- The list that is left of a list of blocks, or the placeholder. -/
def orPlaceholder (kept : List Json) : List Json :=
  if kept = [] then [omittedAttachmentBlock] else kept

/-- A tool result without the attachments in its list content. -/
def strippedToolResult (block : Json) : Json :=
  match block with
  | .obj fields =>
    if Json.getKey fields "type" = .str "tool_result" then
      match Json.getKey fields "content" with
      | .arr inner => .obj (Json.setKey fields "content"
          (.arr (orPlaceholder (inner.filter fun sub => !isAttachment sub))))
      | _ => block
    else block
  | _ => block

theorem stripToolResult_guarded (block : Json) :
    Guarded (stripToolResult block)
      ((innerItems block).any fun inner => isUnhashable (blockType inner))
      (strippedToolResult block) := by
  cases block with
  | obj fields =>
    by_cases result : Json.getKey fields "type" = .str "tool_result"
    · have inner : innerItems (.obj fields) = (Json.getKey fields "content").items := if_pos result
      rw [stripToolResult, strippedToolResult, inner, if_pos result, if_pos result]
      cases Json.getKey fields "content" with
      | arr inner =>
        rw [← Bool.or_false (List.any _ _)]
        exact (withoutAttachments_guarded inner).bind (.ok _)
      | null | bool | int | float | str | obj => exact .ok _
    · have inner : innerItems (.obj fields) = [] := if_neg result
      rw [stripToolResult, strippedToolResult, inner, if_neg result, if_neg result]
      exact .ok _
  | null | bool | int | float | str | arr => exact .ok _

/-- A block that is kept; `none` is a dropped attachment. -/
def strippedBlock (block : Json) : Option Json :=
  if isAttachment block then none else some (strippedToolResult block)

theorem stripBlock_guarded (block : Json) :
    Guarded (stripBlock block) (hasUnhashable block) (strippedBlock block) := by
  unfold stripBlock hasUnhashable strippedBlock
  refine (isStrippable_guarded block).bind ?_
  by_cases attachment : isAttachment block = true
  · have plain : innerItems block = [] := by
      refine if_neg fun result => ?_
      rw [isAttachment, result] at attachment
      simp at attachment
    rw [attachment, plain]
    exact .ok none
  · rw [Bool.eq_false_iff.mpr attachment, ← Bool.or_false (List.any _ _)]
    exact (stripToolResult_guarded block).bind (.ok _)

/-- The blocks of a message that are kept. -/
def strippedBlocks (content : List Json) : List Json :=
  let newContent := (content.filter fun block => !isAttachment block).map strippedToolResult
  if newContent = [] ∧ content ≠ [] then [omittedAttachmentBlock] else newContent

/-- A message without attachments. -/
def strippedMessage (message : Json) : Json :=
  match message with
  | .obj fields =>
    match Json.getKey fields "content" with
    | .arr content => .obj (Json.setKey fields "content" (.arr (strippedBlocks content)))
    | _ => message
  | _ => message

theorem reduceOption_stripped (content : List Json) :
    (content.map strippedBlock).reduceOption =
      (content.filter fun block => !isAttachment block).map strippedToolResult := by
  induction content with
  | nil => rfl
  | cons block rest ih =>
    rw [List.map_cons, List.filter_cons, strippedBlock]
    cases isAttachment block with
    | true => exact ih
    | false => exact congrArg (strippedToolResult block :: ·) ih

/-- Nothing is left of a list with blocks only when one has been dropped. -/
theorem stripped_eq (content : List Json) :
    (if (content.map strippedBlock).reduceOption = [] ∧ none ∈ content.map strippedBlock then
      [omittedAttachmentBlock] else (content.map strippedBlock).reduceOption) =
      strippedBlocks content := by
  rw [reduceOption_stripped, strippedBlocks]
  apply if_congr _ rfl rfl
  apply and_congr_right
  intro nothing
  constructor
  · rintro dropped rfl
    cases dropped
  · intro some_
    obtain ⟨block, rest, rfl⟩ := List.exists_cons_of_ne_nil some_
    cases attachment : isAttachment block with
    | true => exact List.mem_cons.mpr (.inl (by rw [strippedBlock, attachment]; rfl))
    | false =>
      rw [List.filter_cons, attachment] at nothing
      cases nothing

theorem stripMessage_guarded (message : Json) :
    Guarded (stripMessage message) ((blocks message).any hasUnhashable)
      (strippedMessage message) := by
  cases message with
  | obj fields =>
    unfold stripMessage strippedMessage blocks
    dsimp only [member_obj]
    cases Json.getKey fields "content" with
    | arr content =>
      dsimp only [Json.items]
      rw [← Bool.or_false (List.any _ _), ← stripped_eq]
      exact (Guarded.mapM stripBlock_guarded content).bind (.ok _)
    | null | bool | int | float | str | obj => exact .ok _
  | null | bool | int | float | str | arr => exact .ok _

/-- **What the strip does**: it drops the attachments, or trips over a type without a hash. -/
theorem stripMessages_guarded (messages : List Json) :
    Guarded (stripUnsupportedAttachmentBlocks messages)
      (messages.any fun message => (blocks message).any hasUnhashable)
      (messages.map strippedMessage) :=
  Guarded.mapM stripMessage_guarded messages

/-! ### What is sent of a message -/

/-- A message whose content is replaced keeps its other members. -/
theorem member_setContent {fields : List (String × Json)} {key : String} (other : key ≠ "content")
    (content : Json) :
    (Json.obj (Json.setKey fields "content" content)).member key = (Json.obj fields).member key :=
  Json.getKey_setKey_ne fields other content

/-- A message whose content is changed where it is a list of blocks. -/
def onContent (change : List Json → Json) (message : Json) : Json :=
  match message with
  | .obj fields =>
    match Json.getKey fields "content" with
    | .arr content => .obj (Json.setKey fields "content" (change content))
    | _ => message
  | _ => message

theorem member_onContent {key : String} (other : key ≠ "content") (change : List Json → Json)
    (message : Json) : (onContent change message).member key = message.member key := by
  cases message with
  | obj fields =>
    unfold onContent
    dsimp only
    split
    · exact member_setContent other _
    · rfl
  | null | bool | int | float | str | arr => rfl

theorem blocks_onContent {change : List Json → Json} (nothing : (change []).items = [])
    (message : Json) : blocks (onContent change message) = (change (blocks message)).items := by
  cases message with
  | obj fields =>
    unfold onContent blocks
    dsimp only [member_obj]
    cases there : Json.getKey fields "content" with
    | arr content =>
      dsimp only
      rw [member_obj, Json.getKey_setKey_self]
      rfl
    | null | bool | int | float | str | obj =>
      dsimp only
      rw [member_obj, there]
      exact nothing.symm
  | null | bool | int | float | str | arr => exact nothing.symm

theorem member_strippedMessage {key : String} (other : key ≠ "content") (message : Json) :
    (strippedMessage message).member key = message.member key :=
  member_onContent other (fun content => .arr (strippedBlocks content)) message

theorem blocks_strippedMessage (message : Json) :
    blocks (strippedMessage message) = strippedBlocks (blocks message) :=
  @blocks_onContent (fun content => .arr (strippedBlocks content)) rfl message

/-- The blocks of a message that are sent, before their contents are normalized. -/
def replayedBlocks (thinkingEnabled : Bool) (message : Json) : List Json :=
  if message.member "role" = .str "assistant" then
    (blocks message).filter (isReplayed thinkingEnabled)
  else blocks message

theorem sanitizeMessage_eq (thinkingEnabled : Bool) (message : Json) :
    sanitizeMessage thinkingEnabled message =
      if message.member "role" = .str "assistant" then
        onContent (fun content =>
          let filtered := content.filter (isReplayed thinkingEnabled)
          if filtered = [] then .str "" else .arr filtered) message
      else message := by
  cases message with
  | obj fields => rfl
  | null | bool | int | float | str | arr => exact (ite_self _).symm

theorem member_sanitizeMessage {key : String} (other : key ≠ "content") (thinkingEnabled : Bool)
    (message : Json) :
    (sanitizeMessage thinkingEnabled message).member key = message.member key := by
  rw [sanitizeMessage_eq]
  split_ifs
  · exact member_onContent other _ message
  · rfl

theorem blocks_sanitizeMessage (thinkingEnabled : Bool) (message : Json) :
    blocks (sanitizeMessage thinkingEnabled message) = replayedBlocks thinkingEnabled message := by
  rw [sanitizeMessage_eq, replayedBlocks]
  split_ifs
  · rw [blocks_onContent (by rfl)]
    dsimp only
    split_ifs with nothing
    · exact nothing.symm
    · rfl
  · rfl

theorem member_normalizeMessage {key : String} (other : key ≠ "content") (printing : Printing)
    (message : Json) : (normalizeMessage printing message).member key = message.member key :=
  member_onContent other (fun content => .arr (content.map (normalizeBlock printing))) message

theorem blocks_normalizeMessage (printing : Printing) (message : Json) :
    blocks (normalizeMessage printing message) = (blocks message).map (normalizeBlock printing) :=
  @blocks_onContent (fun content => .arr (content.map (normalizeBlock printing))) rfl message

theorem member_stripReasoningContent {key : String} (other : key ≠ "reasoning_content")
    (message : Json) : (stripReasoningContent message).member key = message.member key := by
  cases message with
  | obj fields => exact getKey_popKey_ne fields other
  | null | bool | int | float | str | arr => rfl

/-- **A message that is sent** has the role it had, -/
theorem role_nativeMessage (printing : Printing) (thinkingEnabled : Bool) (message : Json) :
    (nativeMessage printing thinkingEnabled message).member "role" = message.member "role" := by
  rw [nativeMessage, member_stripReasoningContent (by decide), member_normalizeMessage (by decide),
    member_sanitizeMessage (by decide)]

/-- and the replayed blocks, normalized. -/
theorem blocks_nativeMessage (printing : Printing) (thinkingEnabled : Bool) (message : Json) :
    blocks (nativeMessage printing thinkingEnabled message) =
      (replayedBlocks thinkingEnabled message).map (normalizeBlock printing) := by
  rw [nativeMessage, blocks, member_stripReasoningContent (by decide), ← blocks,
    blocks_normalizeMessage, blocks_sanitizeMessage]

/-! ### What a body is made of -/

variable {printing : Printing} {request : DeepseekRequest} {thinkingEnabled : Bool}

/-- The messages of a request without their attachments. -/
def DeepseekRequest.stripped (request : DeepseekRequest) : List Json :=
  request.messages.map strippedMessage

/-- The members of a request whose messages have no attachments. -/
def DeepseekRequest.strippedData (request : DeepseekRequest) : List (String × Json) :=
  Json.setKey request.data "messages" (.arr request.stripped)

theorem messages_strippedData (request : DeepseekRequest) :
    Json.getKey request.strippedData "messages" = .arr request.stripped :=
  Json.getKey_setKey_self _ _ _

/-- **A body that is returned** comes from the stripped messages, which have been validated. -/
theorem buildRequestBody_ok {body : List (String × Json)}
    (built : buildRequestBody printing request thinkingEnabled = .ok body) :
    validateDeepseekNativeRequestDict request.strippedData = .ok () ∧
      body = nativeBody printing request.strippedData thinkingEnabled := by
  have strip := stripMessages_guarded request.messages
  unfold buildRequestBody at built
  cases bad : request.messages.any fun message => (blocks message).any hasUnhashable with
  | true =>
    obtain ⟨message, raised⟩ := strip.raises bad
    rw [raised] at built
    cases built
  | false =>
    rw [strip.returns bad] at built
    replace built : (validateDeepseekNativeRequestDict request.strippedData >>= fun _ =>
      pure (nativeBody printing request.strippedData thinkingEnabled)) = .ok body := built
    cases validated : validateDeepseekNativeRequestDict request.strippedData with
    | error error =>
      rw [validated] at built
      cases built
    | ok done =>
      rw [validated] at built
      exact ⟨rfl, (Except.ok.inj built).symm⟩

theorem getKey_downgradeForcedToolChoice (data : List (String × Json)) {key : String}
    (other : key ≠ "tool_choice") :
    Json.getKey (downgradeForcedToolChoice data) key = Json.getKey data key := by
  unfold downgradeForcedToolChoice
  dsimp only
  split
  · exact Json.getKey_setKey_ne _ other _
  · rfl

theorem getKey_setOrPop (data cleaned : List (String × Json)) {key other : String}
    (different : other ≠ key) :
    Json.getKey (setOrPop data key cleaned) other = Json.getKey data other := by
  unfold setOrPop
  split_ifs
  · exact getKey_popKey_ne data different
  · exact Json.getKey_setKey_ne data different _

theorem getKey_removeEffort (data : List (String × Json)) {key : String}
    (other : key ≠ "output_config") : Json.getKey (removeEffort data) key = Json.getKey data key := by
  unfold removeEffort
  split
  · split_ifs
    · exact getKey_setOrPop _ _ other
    · rfl
  · rfl

theorem getKey_removeClearThinkingEdits (data : List (String × Json)) {key : String}
    (other : key ≠ "context_management") :
    Json.getKey (removeClearThinkingEdits data) key = Json.getKey data key := by
  unfold removeClearThinkingEdits
  split
  · split
    · dsimp only
      split_ifs
      · rfl
      · exact getKey_setOrPop _ _ other
      · exact Json.getKey_setKey_ne _ other _
    · rfl
  · rfl

/-- What `extra_body` and a forced tool choice leave alone. -/
theorem getKey_withoutForcedChoice (data : List (String × Json)) {key : String}
    (noExtra : key ≠ "extra_body") (noChoice : key ≠ "tool_choice") :
    Json.getKey (downgradeForcedToolChoice (Json.popKey data "extra_body")) key =
      Json.getKey data key := by
  rw [getKey_downgradeForcedToolChoice _ noChoice, getKey_popKey_ne _ noExtra]

/-- Whether a follow-up can replay its thinking is read off its messages. -/
theorem unsafeToolFollowup_congr {data data' : List (String × Json)}
    (same : Json.getKey data "messages" = Json.getKey data' "messages") :
    unsafeToolFollowup data = unsafeToolFollowup data' := by
  unfold unsafeToolFollowup hasToolHistory hasReplayableToolThinking
  rw [same]

/-- The thinking that a body is built with. -/
def effectiveThinking (data : List (String × Json)) (thinkingEnabled : Bool) : Bool :=
  thinkingEnabled && !unsafeToolFollowup data

/-- The request behind the decision on its thinking. -/
def decidedData (data : List (String × Json)) (thinkingEnabled : Bool) : List (String × Json) :=
  let data := downgradeForcedToolChoice (Json.popKey data "extra_body")
  if thinkingEnabled && unsafeToolFollowup data then removeDeepseekThinkingHints data else data

theorem getKey_decidedData (data : List (String × Json)) (thinkingEnabled : Bool) {key : String}
    (noExtra : key ≠ "extra_body") (noChoice : key ≠ "tool_choice")
    (hint : (key ≠ "output_config" ∧ key ≠ "context_management") ∨
      (thinkingEnabled && unsafeToolFollowup data) = false) :
    Json.getKey (decidedData data thinkingEnabled) key = Json.getKey data key := by
  have early := getKey_withoutForcedChoice data noExtra noChoice
  have messages := @getKey_withoutForcedChoice data "messages" (by decide) (by decide)
  unfold decidedData
  dsimp only
  rw [unsafeToolFollowup_congr messages]
  split_ifs with removed
  · obtain ⟨noEffort, noEdits⟩ := hint.resolve_right (by simp [removed])
    rw [removeDeepseekThinkingHints, getKey_removeClearThinkingEdits _ noEdits,
      getKey_removeEffort _ noEffort, early]
  · exact early

/-- **The members of a body**, but for `max_tokens` and `stream`. -/
theorem getKey_nativeBody (data : List (String × Json)) (thinkingEnabled : Bool) {key : String}
    (noLimit : key ≠ "max_tokens") (noStream : key ≠ "stream") :
    Json.getKey (nativeBody printing data thinkingEnabled) key =
      if key = "messages" then
        .arr ((Json.getKey data "messages").items.map
          (nativeMessage printing (effectiveThinking data thinkingEnabled)))
      else if key = "thinking" then
        if effectiveThinking data thinkingEnabled && isObject (Json.getKey data "thinking") then
          thinkingPayload (Json.getKey data "thinking")
        else .null
      else Json.getKey (decidedData data thinkingEnabled) key := by
  have messages := @getKey_withoutForcedChoice data "messages" (by decide) (by decide)
  have decided (key : String) (noExtra : key ≠ "extra_body") (noChoice : key ≠ "tool_choice")
      (noEffort : key ≠ "output_config") (noEdits : key ≠ "context_management") :=
    getKey_decidedData data thinkingEnabled noExtra noChoice (.inl ⟨noEffort, noEdits⟩)
  have thinking := decided "thinking" (by decide) (by decide) (by decide) (by decide)
  have listed := decided "messages" (by decide) (by decide) (by decide) (by decide)
  have body : nativeBody printing data thinkingEnabled = (
      let data' := Json.popKey (decidedData data thinkingEnabled) "thinking"
      let data' := if effectiveThinking data thinkingEnabled && isObject (Json.getKey data "thinking")
        then Json.setKey data' "thinking" (thinkingPayload (Json.getKey data "thinking")) else data'
      let data' := Json.setKey data' "messages" (.arr ((Json.getKey data' "messages").items.map
        (nativeMessage printing (effectiveThinking data thinkingEnabled))))
      let data' := if Json.getKey data' "max_tokens" = .null then
          Json.setKey data' "max_tokens" (.int anthropicDefaultMaxOutputTokens)
        else data'
      Json.setKey data' "stream" (.bool true)) := by
    rw [← thinking]
    simp only [nativeBody, effectiveThinking, decidedData, unsafeToolFollowup_congr messages]
  rw [body]
  dsimp only
  rw [Json.getKey_setKey_ne _ noStream]
  -- The default of `max_tokens` leaves the other members alone.
  have limit (data' : List (String × Json)) : Json.getKey (if Json.getKey data' "max_tokens" = .null
      then Json.setKey data' "max_tokens" (.int anthropicDefaultMaxOutputTokens) else data') key =
      Json.getKey data' key := by
    split_ifs
    · exact Json.getKey_setKey_ne _ noLimit _
    · rfl
  rw [limit]
  by_cases isMessages : key = "messages"
  · rw [if_pos isMessages, isMessages, Json.getKey_setKey_self]
    congr 2
    split_ifs
    · rw [Json.getKey_setKey_ne _ (by decide), getKey_popKey_ne _ (by decide), listed]
    · rw [getKey_popKey_ne _ (by decide), listed]
  · rw [if_neg isMessages, Json.getKey_setKey_ne _ isMessages]
    by_cases isThinking : key = "thinking"
    · rw [if_pos isThinking, isThinking]
      split_ifs
      · exact Json.getKey_setKey_self _ _ _
      · exact getKey_popKey_self _ _
    · rw [if_neg isThinking]
      split_ifs
      · rw [Json.getKey_setKey_ne _ isThinking, getKey_popKey_ne _ isThinking]
      · exact getKey_popKey_ne _ isThinking

/-! ### Tool results -/

/-- A change that concerns the content of tool results only. -/
structure OnToolResults (change : Json → Json) : Prop where
  member : ∀ block key, key ≠ "content" → (change block).member key = block.member key
  other : ∀ block, blockType block ≠ .str "tool_result" → change block = block

theorem OnToolResults.type {change : Json → Json} (onResults : OnToolResults change) (block : Json) :
    blockType (change block) = blockType block :=
  onResults.member block "type" (by decide)

theorem onToolResults_strip : OnToolResults strippedToolResult := by
  constructor
  · intro block key other
    cases block with
    | obj fields =>
      unfold strippedToolResult
      dsimp only
      split_ifs
      · split
        · exact member_setContent other _
        · rfl
      · rfl
    | null | bool | int | float | str | arr => rfl
  · intro block other
    cases block with
    | obj fields => exact if_neg other
    | null | bool | int | float | str | arr => rfl

theorem onToolResults_normalize (printing : Printing) : OnToolResults (normalizeBlock printing) := by
  constructor
  · intro block key other
    cases block with
    | obj fields =>
      unfold normalizeBlock
      dsimp only
      split_ifs
      · exact member_setContent other _
      · rfl
    | null | bool | int | float | str | arr => rfl
  · intro block other
    cases block with
    | obj fields => exact if_neg other
    | null | bool | int | float | str | arr => rfl

/-- Blocks that are told by their type and are no tool results are left as they are. -/
theorem OnToolResults.filter_map {change : Json → Json} (onResults : OnToolResults change)
    {kind : Json → Bool} (told : ∀ block other, blockType block = blockType other →
      kind block = kind other)
    (noResult : ∀ block, kind block = true → blockType block ≠ .str "tool_result")
    (content : List Json) : (content.map change).filter kind = content.filter kind := by
  induction content with
  | nil => rfl
  | cons block rest ih =>
    rw [List.map_cons, List.filter_cons, List.filter_cons, ih,
      told (change block) block (onResults.type block)]
    split_ifs with here
    · rw [onResults.other block (noResult block here)]
    · rfl

/-- **What is left by the strip** of the blocks that are told by their type, and are neither
attachments nor texts nor tool results. -/
theorem filter_strippedBlocks {kind : Json → Bool} (told : ∀ block other,
      blockType block = blockType other → kind block = kind other)
    (noResult : ∀ block, kind block = true → blockType block ≠ .str "tool_result")
    (noAttachment : ∀ block, kind block = true → isAttachment block = false)
    (noText : kind omittedAttachmentBlock = false) (content : List Json) :
    (strippedBlocks content).filter kind = content.filter kind := by
  have kept : ((content.filter fun block => !isAttachment block).map strippedToolResult).filter kind =
      content.filter kind := by
    rw [onToolResults_strip.filter_map told noResult, List.filter_filter]
    congr 1
    funext block
    cases here : kind block with
    | true => rw [noAttachment block here]; rfl
    | false => rfl
  unfold strippedBlocks
  dsimp only
  split_ifs with nothing
  · rw [← kept, nothing.1]
    simp [noText]
  · exact kept

/-- A printing for requests without values to print. -/
def nothingPrinted : Printing := ⟨fun _ => "", fun _ => "", fun _ => ""⟩

end Deepseek

end ClaudeProxy
