/-
**The blocks of a DeepSeek request** (`providers/deepseek/request.py`).

* `Occurs` — a block occurs in a content: it is one of its blocks, or occurs in the content of one of
  its tool results.
* `Supported` — no unsupported block occurs in the messages of a body, every tool result is a string,
  no assistant message has hidden thinking, and every text, tool use and tool result is delivered.
* `Walks` — the validator's walk ends at the first block, in the order of reading, that it refuses or
  whose type has no hash.
* **`refuses_or_supports_iff`** — a request is refused with an `InvalidRequestError` or built into a
  supported body, unless the builder trips over a type without a hash; `typeList_trips` — it can.
-/

import ClaudeProxy.Provider.DeepseekRequest

namespace ClaudeProxy

namespace Deepseek

/-! ### What is asked -/

def isToolResult (block : Json) : Bool := decide (blockType block = .str "tool_result")

def isUnsupported (block : Json) : Bool :=
  unsupportedMessageBlockTypes.any fun type => decide (blockType block = .str type)

/-- The block occurs in the content, at some depth. -/
inductive Occurs (block : Json) : Json → Prop
  | here {items : List Json} : block ∈ items → Occurs block (.arr items)
  | inside {items : List Json} {result : Json} : result ∈ items → isToolResult result = true →
      Occurs block (result.member "content") → Occurs block (.arr items)

/-- A text, a tool use or a tool result. -/
def isDelivered (block : Json) : Bool :=
  decide (blockType block = .str "text" ∨ blockType block = .str "tool_use" ∨
    blockType block = .str "tool_result")

/-- A block as it is delivered: a tool result has the string of its content, attachments apart. -/
def delivered (printing : Printing) (block : Json) : Json :=
  normalizeBlock printing (strippedToolResult block)

def hasMember (value : Json) (key : String) : Bool :=
  match value with
  | .obj fields => decide (key ∈ fields.map Prod.fst)
  | _ => false

/-- A message and what is sent of it. -/
structure Sends (printing : Printing) (message sent : Json) : Prop where
  role : sent.member "role" = message.member "role"
  supported : ∀ block, Occurs block (sent.member "content") → isUnsupported block = false
  strings : ∀ block, Occurs block (sent.member "content") → isToolResult block = true →
    ∃ text, block.member "content" = .str text
  unhidden : sent.member "role" = .str "assistant" →
    (∀ block, Occurs block (sent.member "content") → blockType block ≠ .str "redacted_thinking") ∧
      hasMember sent "reasoning_content" = false
  delivers : (((blocks message).filter isDelivered).map (delivered printing)).Sublist (blocks sent)

/-- **What DeepSeek is sent**: the messages of the request in their order, each of them supported. -/
def Supported (printing : Printing) (request : DeepseekRequest) (body : List (String × Json)) : Prop :=
  List.Forall₂ (Sends printing) request.messages (Json.getKey body "messages").items

/-- The builder refuses the request, or sends it as it should. -/
def RefusesOrSupports (printing : Printing) (request : DeepseekRequest) (thinkingEnabled : Bool) :
    Prop :=
  match buildRequestBody printing request thinkingEnabled with
  | .ok body => Supported printing request body
  | .error error => ∃ message, error = invalidRequest message

/-! ### The walk -/

mutual

/-- The blocks of a content in the order in which the validator reads them. -/
def readContent : Json → List Json
  | .arr items => readBlocks items
  | _ => []

def readBlocks : List Json → List Json
  | [] => []
  | block :: rest => block :: (readInner block ++ readBlocks rest)

/-- The blocks inside a tool result. -/
def readInner : Json → List Json
  | .obj fields => if Json.getKey fields "type" = .str "tool_result" then readMember fields else []
  | _ => []

def readMember : List (String × Json) → List Json
  | [] => []
  | (key, value) :: rest => if key = "content" then readContent value else readMember rest

end

/-- A block whose type has no hash. -/
def trips (block : Json) : Bool := isUnhashable (blockType block)

/-- The block at which the walk ends. -/
def offends (block : Json) : Bool := trips block || isUnsupported block

/-- **The walk through these blocks** ends at the first one that it cannot let through. -/
structure Walks (run : Except PyError Unit) (read : List Json) : Prop where
  passes : read.find? offends = none → run = .ok ()
  raises : ∀ block, read.find? offends = some block → trips block = true →
    ∃ message, run = .error (.typeError message)
  refuses : ∀ block, read.find? offends = some block → trips block = false →
    ∃ message, run = .error (invalidRequest message)

namespace Walks

theorem nil : Walks (.ok ()) [] := by
  refine ⟨fun _ => rfl, ?_, ?_⟩
  · rintro block found
    cases found
  · rintro block found
    cases found

theorem append {run run' : Except PyError Unit} {read read' : List Json} (first : Walks run read)
    (second : Walks run' read') : Walks (run >>= fun _ => run') (read ++ read') := by
  cases found : read.find? offends with
  | none =>
    have rest : (read ++ read').find? offends = read'.find? offends := by
      rw [List.find?_append, found, Option.none_or]
    have same : (run >>= fun _ => run') = run' := by
      rw [first.passes found]
      rfl
    rw [same]
    exact ⟨fun none => second.passes (rest.symm.trans none),
      fun block some_ => second.raises block (rest.symm.trans some_),
      fun block some_ => second.refuses block (rest.symm.trans some_)⟩
  | some offender =>
    have here : (read ++ read').find? offends = some offender := by
      rw [List.find?_append, found, Option.some_or]
    refine ⟨fun none => ?_, fun block some_ trip => ?_, fun block some_ fine => ?_⟩
    · rw [here] at none
      cases none
    · obtain rfl := Option.some.inj (here.symm.trans some_)
      obtain ⟨message, raised⟩ := first.raises offender found trip
      exact ⟨message, by rw [raised]; rfl⟩
    · obtain rfl := Option.some.inj (here.symm.trans some_)
      obtain ⟨message, raised⟩ := first.refuses offender found fine
      exact ⟨message, by rw [raised]; rfl⟩

/-- A block that is let through, and what is read inside it. -/
theorem cons {run : Except PyError Unit} {block : Json} {inner : List Json}
    (fine : offends block = false) (walks : Walks run inner) : Walks run (block :: inner) := by
  have same : (block :: inner).find? offends = inner.find? offends :=
    List.find?_cons_of_neg (by simp [fine])
  exact ⟨fun none => walks.passes (same.symm.trans none),
    fun other some_ => walks.raises other (same.symm.trans some_),
    fun other some_ => walks.refuses other (same.symm.trans some_)⟩

/-- A block of an unsupported type is refused, -/
theorem refused {run : Except PyError Unit} {block : Json} {inner : List Json}
    (hashed : trips block = false) (unsupported : isUnsupported block = true)
    (run_ : ∃ message, run = .error (invalidRequest message)) : Walks run (block :: inner) := by
  have found : (block :: inner).find? offends = some block :=
    List.find?_cons_of_pos (by simp [offends, unsupported])
  refine ⟨fun none => ?_, fun other some_ trip => ?_, fun _ _ _ => run_⟩
  · rw [found] at none
    cases none
  · obtain rfl := Option.some.inj (found.symm.trans some_)
    rw [hashed] at trip
    cases trip

/-- and one without a hash is tripped over. -/
theorem tripped {run : Except PyError Unit} {block : Json} {inner : List Json}
    (trip : trips block = true) (run_ : ∃ message, run = .error (.typeError message)) :
    Walks run (block :: inner) := by
  have found : (block :: inner).find? offends = some block :=
    List.find?_cons_of_pos (by simp [offends, trip])
  refine ⟨fun none => ?_, fun _ _ _ => run_, fun other some_ fine => ?_⟩
  · rw [found] at none
    cases none
  · obtain rfl := Option.some.inj (found.symm.trans some_)
    rw [trip] at fine
    cases fine

end Walks

/-- The outcomes of the test of a type. -/
theorem isOneOf_unsupported (type : Json) :
    (isUnhashable type = true ∧ ∃ message,
      isOneOf unsupportedMessageBlockTypes type = .error (.typeError message)) ∨
    (isUnhashable type = false ∧ isOneOf unsupportedMessageBlockTypes type =
      .ok (unsupportedMessageBlockTypes.any fun name => decide (type = .str name))) := by
  cases type with
  | arr items => exact .inl ⟨rfl, _, rfl⟩
  | obj members => exact .inl ⟨rfl, _, rfl⟩
  | str type => exact .inr ⟨rfl, by simp [isOneOf, unsupportedMessageBlockTypes]⟩
  | null | bool | int | float => exact .inr ⟨rfl, by simp [isOneOf]⟩

mutual

/-- **The walk reads the blocks of a content**, those inside tool results included. -/
theorem walkContent_walks (location : String) : ∀ content : Json,
    Walks (walkContent location content) (readContent content)
  | .arr items => walkBlocks_walks location items
  | .null | .bool _ | .int _ | .float _ | .str _ | .obj _ => .nil

theorem walkBlocks_walks (location : String) : ∀ items : List Json,
    Walks (walkBlocks location items) (readBlocks items)
  | [] => .nil
  | block :: rest => by
    have here := walkBlock_walks location block
    have later := walkBlocks_walks location rest
    rw [walkBlocks, readBlocks, ← List.cons_append]
    exact here.append later

theorem walkBlock_walks (location : String) : ∀ block : Json,
    Walks (walkBlock location block) (block :: readInner block)
  | .obj fields => by
    have inner := walkMember_walks (location ++ " (tool_result content)") fields
    rw [walkBlock]
    rcases isOneOf_unsupported (Json.getKey fields "type") with
      ⟨trip, message, raised⟩ | ⟨hashed, tested⟩
    · rw [raised]
      exact .tripped trip ⟨message, rfl⟩
    · rw [tested]
      cases unsupported : unsupportedMessageBlockTypes.any fun name =>
          decide (Json.getKey fields "type" = .str name) with
      | true => exact .refused hashed unsupported ⟨_, rfl⟩
      | false =>
        refine .cons (Bool.or_eq_false_iff.mpr ⟨hashed, unsupported⟩) ?_
        show Walks (if Json.getKey fields "type" = .str "tool_result" then _ else pure ())
          (if Json.getKey fields "type" = .str "tool_result" then _ else [])
        split_ifs
        · exact inner
        · exact .nil
  | .null | .bool _ | .int _ | .float _ | .str _ | .arr _ => .cons rfl .nil

theorem walkMember_walks (location : String) : ∀ fields : List (String × Json),
    Walks (walkMember location fields) (readMember fields)
  | [] => .nil
  | (key, value) :: rest => by
    have here := walkContent_walks location value
    have later := walkMember_walks location rest
    rw [walkMember, readMember]
    split_ifs
    · exact here
    · exact later

end

/-- The blocks of the messages in the order in which they are read. -/
def readMessages (messages : List Json) : List Json :=
  messages.flatMap fun message => readContent (message.member "content")

theorem walkMessages_walks (i : Nat) (messages : List Json) :
    Walks (walkMessages i messages) (readMessages messages) := by
  induction messages generalizing i with
  | nil => exact .nil
  | cons message rest ih =>
    rw [walkMessages, readMessages, List.flatMap_cons]
    exact (walkContent_walks _ _).append (ih (i + 1))

theorem mem_readBlocks {block : Json} {items : List Json} (member : block ∈ items) :
    block ∈ readBlocks items := by
  induction items with
  | nil => cases member
  | cons first rest ih =>
    rw [readBlocks, List.mem_cons, List.mem_append]
    rcases List.mem_cons.mp member with same | later
    · exact .inl same
    · exact .inr (.inr (ih later))

theorem mem_readContent {block content : Json} (member : block ∈ content.items) :
    block ∈ readContent content := by
  cases content with
  | arr items => exact mem_readBlocks member
  | null | bool | int | float | str | obj => cases member

/-- A list of texts is let through. -/
theorem walkContent_system {system : Json} (valid : system.items.all isSystemBlock = true) :
    walkContent "system" system = .ok () := by
  apply (walkContent_walks "system" system).passes
  have texts (items : List Json) (all : items.all isSystemBlock = true) :
      (readBlocks items).find? offends = none := by
    induction items with
    | nil => rfl
    | cons block rest ih =>
      rw [List.all_cons, Bool.and_eq_true_iff] at all
      have text : blockType block = .str "text" := of_decide_eq_true all.1
      have inner : readInner block = [] := by
        cases block with
        | obj fields =>
          refine if_neg fun result => ?_
          have same := text.symm.trans result
          simp at same
        | null | bool | int | float | str | arr => rfl
      have fine : offends block = false := by
        rw [offends, trips, isUnsupported, text]
        decide
      rw [readBlocks, inner, List.nil_append, List.find?_cons_of_neg (by simp [fine])]
      exact ih all.2
  cases system with
  | arr items => exact texts items valid
  | null | bool | int | float | str | obj => rfl

/-! ### What is sent -/

variable {printing : Printing} {request : DeepseekRequest} {thinkingEnabled : Bool}

/-- A tool result that is sent has a string. -/
theorem normalizeBlock_content {block : Json} (result : isToolResult block = true) :
    ∃ text, (normalizeBlock printing block).member "content" = .str text := by
  cases block with
  | obj fields =>
    have type : Json.getKey fields "type" = .str "tool_result" := of_decide_eq_true result
    rw [normalizeBlock, if_pos type, member_obj, Json.getKey_setKey_self]
    exact ⟨_, rfl⟩
  | null | bool | int | float | str | arr => cases of_decide_eq_true result

/-- Every block that is sent is a block of the stripped message, normalized. -/
theorem mem_blocks_sent {message block : Json}
    (member : block ∈ blocks (nativeMessage printing thinkingEnabled message)) :
    ∃ original ∈ replayedBlocks thinkingEnabled message, block = normalizeBlock printing original := by
  rw [blocks_nativeMessage] at member
  obtain ⟨original, inside, rfl⟩ := List.mem_map.mp member
  exact ⟨original, inside, rfl⟩

theorem mem_of_mem_replayedBlocks {message block : Json}
    (member : block ∈ replayedBlocks thinkingEnabled message) : block ∈ blocks message := by
  unfold replayedBlocks at member
  split_ifs at member
  · exact (List.mem_filter.mp member).1
  · exact member

/-- **No block is sent below another.** -/
theorem mem_of_occurs {message block : Json}
    (occurs : Occurs block ((nativeMessage printing thinkingEnabled message).member "content")) :
    block ∈ blocks (nativeMessage printing thinkingEnabled message) := by
  unfold blocks
  revert occurs
  cases content : (nativeMessage printing thinkingEnabled message).member "content" with
  | arr items =>
    rintro (inside | ⟨inside, result, deeper⟩)
    · exact inside
    · obtain ⟨original, -, rfl⟩ := @mem_blocks_sent printing thinkingEnabled message _
        (by rw [blocks, content]; exact inside)
      have type := (onToolResults_normalize printing).type original
      rw [isToolResult, type] at result
      obtain ⟨text, string⟩ := @normalizeBlock_content printing original result
      rw [string] at deeper
      cases deeper
  | null | bool | int | float | str | obj =>
    intro occurs
    cases occurs

theorem hasMember_stripReasoningContent (message : Json) :
    hasMember (stripReasoningContent message) "reasoning_content" = false := by
  cases message with
  | obj fields => exact decide_eq_false (notMem_popKey fields "reasoning_content")
  | null | bool | int | float | str | arr => rfl

/-- The texts, tool uses and tool results that are left by the strip. -/
theorem delivered_sublist_strippedBlocks (content : List Json) :
    ((content.filter isDelivered).map strippedToolResult).Sublist (strippedBlocks content) := by
  have kept : ((content.filter isDelivered).map strippedToolResult).Sublist
      ((content.filter fun block => !isAttachment block).map strippedToolResult) := by
    refine List.Sublist.map _ (List.monotone_filter_right content fun block here => ?_)
    rcases of_decide_eq_true here with same | same | same <;> simp [isAttachment, same]
  unfold strippedBlocks
  dsimp only
  split_ifs with nothing
  · rw [nothing.1] at kept
    exact kept.trans (List.nil_sublist _)
  · exact kept

theorem isReplayed_of_isDelivered {block : Json} (here : isDelivered block = true) :
    isReplayed thinkingEnabled block = true := by
  rcases of_decide_eq_true here with same | same | same <;>
    cases thinkingEnabled <;> simp [isReplayed, same]

/-- **Every text, tool use and tool result is sent**, in its order. -/
theorem delivers_nativeMessage (message : Json) :
    (((blocks message).filter isDelivered).map (delivered printing)).Sublist
      (blocks (nativeMessage printing thinkingEnabled (strippedMessage message))) := by
  have stripped := delivered_sublist_strippedBlocks (blocks message)
  rw [← blocks_strippedMessage] at stripped
  rw [blocks_nativeMessage]
  have split : ((blocks message).filter isDelivered).map (delivered printing) =
      (((blocks message).filter isDelivered).map strippedToolResult).map (normalizeBlock printing) :=
    List.map_map.symm
  rw [split]
  refine List.Sublist.map _ ?_
  unfold replayedBlocks
  split_ifs
  · have all : (((blocks message).filter isDelivered).map strippedToolResult).filter
        (isReplayed thinkingEnabled) =
        ((blocks message).filter isDelivered).map strippedToolResult := by
      refine List.filter_eq_self.mpr fun block member => ?_
      obtain ⟨original, inside, rfl⟩ := List.mem_map.mp member
      apply isReplayed_of_isDelivered
      rw [isDelivered, onToolResults_strip.type]
      exact (List.mem_filter.mp inside).2
    rw [← all]
    exact stripped.filter _
  · exact stripped

/-- **A message is sent as it should** when the walk lets its blocks through. -/
theorem sends_nativeMessage {message : Json}
    (read : ∀ block ∈ blocks (strippedMessage message), isUnsupported block = false) :
    Sends printing message (nativeMessage printing thinkingEnabled (strippedMessage message)) := by
  have role : (nativeMessage printing thinkingEnabled (strippedMessage message)).member "role" =
      message.member "role" := by
    rw [role_nativeMessage, member_strippedMessage (by decide)]
  refine ⟨role, ?_, ?_, ?_, delivers_nativeMessage message⟩
  · intro block occurs
    obtain ⟨original, inside, rfl⟩ := mem_blocks_sent (mem_of_occurs occurs)
    rw [isUnsupported, (onToolResults_normalize printing).type]
    exact read original (mem_of_mem_replayedBlocks inside)
  · intro block occurs result
    obtain ⟨original, -, rfl⟩ := mem_blocks_sent (mem_of_occurs occurs)
    rw [isToolResult, (onToolResults_normalize printing).type] at result
    exact normalizeBlock_content result
  · intro assistant
    refine ⟨fun block occurs => ?_, hasMember_stripReasoningContent _⟩
    obtain ⟨original, inside, rfl⟩ := mem_blocks_sent (mem_of_occurs occurs)
    rw [(onToolResults_normalize printing).type]
    rw [replayedBlocks, if_pos ((member_strippedMessage (by decide) message).trans
      (role.symm.trans assistant))] at inside
    have replayed := (List.mem_filter.mp inside).2
    cases thinkingEnabled with
    | true => exact of_decide_eq_true replayed
    | false => exact (of_decide_eq_true replayed).2

/-! ### Exactness -/

/-- The request is refused before its messages are read. -/
def refusedEarly (data : List (String × Json)) : Bool :=
  decide ((Json.getKey data "mcp_servers").items ≠ []) ||
    (Json.getKey data "tools").items.any isServerListedTool

/-- **The builder trips over a type**: a list or an object stands for the type of a block in a
message or of a block in a tool result of it; or it does deeper, where the validator reads it before
anything that is refused. -/
def tripsOnType (request : DeepseekRequest) : Bool :=
  (request.messages.any fun message => (blocks message).any hasUnhashable) ||
    (!refusedEarly request.data &&
      ((readMessages request.stripped).find? offends).any trips)

/-- **The validation of a request whose messages have been stripped.** -/
theorem validate_cases (request : DeepseekRequest) :
    (refusedEarly request.data = true ∧ ∃ message,
      validateDeepseekNativeRequestDict request.strippedData = .error (invalidRequest message)) ∨
    (refusedEarly request.data = false ∧
      validateDeepseekNativeRequestDict request.strippedData = walkMessages 0 request.stripped) := by
  have same (key : String) (other : key ≠ "messages") :
      Json.getKey request.strippedData key = Json.getKey request.data key :=
    Json.getKey_setKey_ne _ other _
  unfold validateDeepseekNativeRequestDict refusedEarly
  rw [same "mcp_servers" (by decide), same "tools" (by decide), same "system" (by decide),
    messages_strippedData, Json.items, walkContent_system request.system]
  dsimp only
  by_cases servers : (Json.getKey request.data "mcp_servers").items = []
  · rw [if_neg (not_not_intro servers), decide_eq_false (not_not_intro servers), Bool.false_or]
    cases (Json.getKey request.data "tools").items.any isServerListedTool with
    | true => exact .inl ⟨rfl, _, rfl⟩
    | false =>
      refine .inr ⟨rfl, ?_⟩
      show (walkMessages 0 request.stripped >>= fun _ => Except.ok ()) = _
      cases walkMessages 0 request.stripped <;> rfl
  · exact .inl ⟨by rw [decide_eq_true servers]; rfl, _, by rw [if_pos servers]; rfl⟩

/-- **Which requests are refused or supported**: all those whose types the builder can look up. -/
theorem refuses_or_supports_iff (printing : Printing) (request : DeepseekRequest)
    (thinkingEnabled : Bool) :
    RefusesOrSupports printing request thinkingEnabled ↔ tripsOnType request = false := by
  have strip := stripMessages_guarded request.messages
  unfold RefusesOrSupports tripsOnType
  cases bad : request.messages.any fun message => (blocks message).any hasUnhashable with
  | true =>
    obtain ⟨message, raised⟩ := strip.raises bad
    have built : buildRequestBody printing request thinkingEnabled = .error (.typeError message) := by
      rw [buildRequestBody, raised]
      rfl
    rw [built, Bool.true_or]
    refine iff_of_false ?_ Bool.true_eq_false.mp
    rintro ⟨other, same⟩
    cases same
  | false =>
    have built : buildRequestBody printing request thinkingEnabled =
        (validateDeepseekNativeRequestDict request.strippedData >>= fun _ =>
          .ok (nativeBody printing request.strippedData thinkingEnabled)) := by
      rw [buildRequestBody, strip.returns bad]
      rfl
    rw [Bool.false_or, built]
    rcases validate_cases request with ⟨early, message, refused⟩ | ⟨late, validated⟩
    · rw [refused, early]
      exact iff_of_true ⟨message, rfl⟩ rfl
    · rw [validated, late, Bool.not_false, Bool.true_and]
      have walks := walkMessages_walks 0 request.stripped
      cases found : (readMessages request.stripped).find? offends with
      | none =>
        rw [walks.passes found]
        refine iff_of_true ?_ rfl
        show Supported printing request (nativeBody printing request.strippedData thinkingEnabled)
        rw [Supported, getKey_nativeBody _ _ (by decide) (by decide), if_pos rfl,
          messages_strippedData]
        show List.Forall₂ _ request.messages
          ((request.messages.map strippedMessage).map (nativeMessage printing _))
        rw [List.map_map, List.forall₂_map_right_iff, List.forall₂_same]
        intro message member
        refine sends_nativeMessage fun block inside => ?_
        have read : block ∈ readMessages request.stripped :=
          List.mem_flatMap.mpr ⟨_, List.mem_map_of_mem member, mem_readContent inside⟩
        have fine := Bool.eq_false_iff.mpr (List.find?_eq_none.mp found block read)
        exact (Bool.or_eq_false_iff.mp fine).2
      | some offender =>
        rw [Option.any_some]
        cases trip : trips offender with
        | true =>
          obtain ⟨message, raised⟩ := walks.raises offender found trip
          rw [raised]
          refine iff_of_false ?_ Bool.true_eq_false.mp
          rintro ⟨other, same⟩
          cases same
        | false =>
          obtain ⟨message, raised⟩ := walks.refuses offender found trip
          rw [raised]
          exact iff_of_true ⟨message, rfl⟩ rfl

/-- A tool result whose content is a list with one object, of this type. -/
def resultOfType (type : Json) : List Json :=
  [.obj [("role", .str "user"), ("content", .arr [.obj [("type", .str "tool_result"),
    ("tool_use_id", .str "t1"), ("content", .arr [.obj [("type", type)]])]])]]

/-- **A list for a type trips the builder up**: it looks the type up in a set. -/
theorem typeList_trips : ¬ RefusesOrSupports nothingPrinted
    { data := [("messages", .arr (resultOfType (.arr [.str "text"])))]
      messages := resultOfType (.arr [.str "text"])
      listed := rfl
      valid := by decide
      system := rfl } true := by
  rintro ⟨message, same⟩
  cases same

end Deepseek

end ClaudeProxy
