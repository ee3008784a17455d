/-
**Thinking in a DeepSeek request** (`providers/deepseek/request.py`).

* `ThinkingConsistent` — a body that asks for thinking replays thinking before the first tool use of
  each assistant turn; one that does not has no thinking block and no hint that keeps thinking on.
* `turns` — the thinking and tool use blocks of a message: the strip and the normalization leave them
  as they are, and the decision on thinking is read off them.
* **`thinking_consistent_iff`** — the requests whose bodies are consistent; `mixedHistory_inconsistent`
  — one turn with thinking, and one without.
-/

import ClaudeProxy.Provider.DeepseekRequest

namespace ClaudeProxy

namespace Deepseek

/-! ### What is asked -/

def isToolUse (block : Json) : Bool := decide (blockType block = .str "tool_use")

def isThinking (block : Json) : Bool := decide (blockType block = .str "thinking")

/-- A thinking block that is not empty. -/
def holdsThinking (block : Json) : Bool :=
  isThinking block &&
    match block.member "thinking" with
    | .str thinking => decide (thinking ≠ "")
    | _ => false

/-- DeepSeek's rule for a turn: thinking before the first tool use, if there is one. -/
def replaysThinking (content : List Json) : Bool :=
  !content.any isToolUse || (content.takeWhile fun block => !isToolUse block).any holdsThinking

def hasEffort (outputConfig : Json) : Bool :=
  match outputConfig with
  | .obj fields => decide ("effort" ∈ fields.map Prod.fst)
  | _ => false

def hasClearThinkingEdit (contextManagement : Json) : Bool :=
  (contextManagement.member "edits").items.any isClearThinkingEdit

/-- The hints that keep thinking on. -/
def hasThinkingHints (data : List (String × Json)) : Bool :=
  hasEffort (Json.getKey data "output_config") ||
    hasClearThinkingEdit (Json.getKey data "context_management")

/-- The body asks for thinking. -/
def thinks (body : List (String × Json)) : Bool :=
  decide ((Json.getKey body "thinking").member "type" = .str "enabled")

/-- **The history goes with the thinking that is asked for.** -/
structure ThinkingConsistent (body : List (String × Json)) : Prop where
  enabled : thinks body = true → ∀ message ∈ (Json.getKey body "messages").items,
    message.member "role" = .str "assistant" → replaysThinking (blocks message) = true
  history : thinks body = false → ∀ message ∈ (Json.getKey body "messages").items,
    (blocks message).any isThinking = false
  hints : thinks body = false → hasThinkingHints body = false

/-- The requests whose bodies are consistent: where thinking is sent, every assistant turn with a tool
use has thinking to replay; where it is kept but not asked for, there is neither thinking nor a hint;
and where it is off, no user message holds thinking, and the hints are removed or absent. -/
def RequestConsistent (request : DeepseekRequest) (thinkingEnabled : Bool) : Prop :=
  if effectiveThinking request.data thinkingEnabled then
    if isObject (Json.getKey request.data "thinking") then
      ∀ message ∈ request.messages, message.member "role" = .str "assistant" →
        replaysThinking (blocks message) = true
    else
      (∀ message ∈ request.messages, (blocks message).any isThinking = false) ∧
        hasThinkingHints request.data = false
  else
    (∀ message ∈ request.messages, message.member "role" ≠ .str "assistant" →
      (blocks message).any isThinking = false) ∧
      (thinkingEnabled = true ∨ hasThinkingHints request.data = false)

/-! ### Turns -/

/-- A thinking or a tool use block. -/
def isTurn (block : Json) : Bool := isThinking block || isToolUse block

/-- The thinking and tool use blocks, in their order. -/
def turns (content : List Json) : List Json := content.filter isTurn

theorem isTurn_of_isToolUse {block : Json} (use : isToolUse block = true) : isTurn block = true := by
  rw [isTurn, use, Bool.or_true]

theorem isTurn_of_isThinking {block : Json} (thinking : isThinking block = true) :
    isTurn block = true := by
  rw [isTurn, thinking, Bool.true_or]

theorem any_turns {property : Json → Bool} (turn : ∀ block, property block = true → isTurn block = true)
    (content : List Json) : (turns content).any property = content.any property := by
  rw [turns, List.any_filter]
  congr 1
  funext block
  cases here : property block with
  | true => rw [turn block here, Bool.true_and]
  | false => rw [Bool.and_false]

/-- Whether thinking is replayed is read off the turns. -/
theorem replaysThinking_turns (content : List Json) :
    replaysThinking (turns content) = replaysThinking content := by
  have before : (turns content).takeWhile (fun block => !isToolUse block) =
      turns (content.takeWhile fun block => !isToolUse block) := by
    rw [turns, List.takeWhile_filter, turns]
    congr 2
    funext block
    cases use : isToolUse block with
    | true => rw [isTurn_of_isToolUse use]; rfl
    | false => simp
  rw [replaysThinking, replaysThinking, any_turns (fun _ => isTurn_of_isToolUse), before, any_turns]
  intro block holds
  exact isTurn_of_isThinking (Bool.and_eq_true_iff.mp holds).1

/-- So is what the code looks for. -/
theorem thinkingAtToolUse_turns (content : List Json) (hasThinking : Bool) :
    thinkingAtToolUse hasThinking (turns content) = thinkingAtToolUse hasThinking content := by
  induction content generalizing hasThinking with
  | nil => rfl
  | cons block rest ih =>
    unfold turns at ih ⊢
    rw [List.filter_cons]
    split_ifs with turn
    · unfold thinkingAtToolUse
      split
      · exact ih _
      · rfl
      · exact ih _
    · rw [thinkingAtToolUse.eq_def hasThinking (block :: rest)]
      dsimp only
      split
      · have thinking := ‹blockType block = .str "thinking"›
        exact absurd (isTurn_of_isThinking (decide_eq_true thinking)) turn
      · have use := ‹blockType block = .str "tool_use"›
        exact absurd (isTurn_of_isToolUse (decide_eq_true use)) turn
      · exact ih _

theorem isTurn_told (block other : Json) (same : blockType block = blockType other) :
    isTurn block = isTurn other := by
  rw [isTurn, isTurn, isThinking, isThinking, isToolUse, isToolUse, same]

theorem isTurn_iff {block : Json} : isTurn block = true ↔
    blockType block = .str "thinking" ∨ blockType block = .str "tool_use" := by
  simp [isTurn, isThinking, isToolUse]

theorem turns_strippedBlocks (content : List Json) : turns (strippedBlocks content) = turns content := by
  refine filter_strippedBlocks isTurn_told ?_ ?_ (by decide) content
  · rintro block turn result
    rw [isTurn_iff, result] at turn
    simp at turn
  · intro block turn
    rcases isTurn_iff.mp turn with same | same <;> simp [isAttachment, same]

theorem turns_normalized (printing : Printing) (content : List Json) :
    turns (content.map (normalizeBlock printing)) = turns content := by
  refine (onToolResults_normalize printing).filter_map isTurn_told ?_ content
  rintro block turn result
  rw [isTurn_iff, result] at turn
  simp at turn

/-! ### The decision -/

theorem hasReplayableThinking_strippedMessage (message : Json) :
    hasReplayableThinkingBeforeToolUse (strippedMessage message) =
      hasReplayableThinkingBeforeToolUse message := by
  unfold hasReplayableThinkingBeforeToolUse
  rw [member_strippedMessage (by decide), ← blocks, ← blocks, blocks_strippedMessage,
    ← thinkingAtToolUse_turns, turns_strippedBlocks, thinkingAtToolUse_turns]

/-- Whether there is a block of a type is not changed by the strip. -/
theorem any_strippedBlocks {kind : Json → Bool}
    (told : ∀ block other, blockType block = blockType other → kind block = kind other)
    (noAttachment : ∀ block, kind block = true → isAttachment block = false)
    (noText : kind omittedAttachmentBlock = false) (content : List Json) :
    (strippedBlocks content).any kind = content.any kind := by
  have kept : ((content.filter fun block => !isAttachment block).map strippedToolResult).any kind =
      content.any kind := by
    rw [List.any_map, List.any_filter]
    congr 1
    funext block
    rw [Function.comp_apply, told _ block (onToolResults_strip.type block)]
    cases here : kind block with
    | true => rw [noAttachment block here]; rfl
    | false => rw [Bool.and_false]
  unfold strippedBlocks
  dsimp only
  split_ifs with nothing
  · rw [← kept, nothing.1, List.any_cons, noText]
    rfl
  · exact kept

theorem hasToolHistoryBlocks_strippedMessage (message : Json) :
    hasToolHistoryBlocks (strippedMessage message) = hasToolHistoryBlocks message := by
  unfold hasToolHistoryBlocks
  rw [← blocks, ← blocks, blocks_strippedMessage, @member_strippedMessage "role" (by decide)]
  apply any_strippedBlocks
  · intro block other same
    rw [same]
  · intro block here
    rcases Bool.or_eq_true_iff.mp here with use | result
    · simp [isAttachment, (of_decide_eq_true use).2]
    · simp [isAttachment, (of_decide_eq_true result).2]
  · simp [omittedAttachmentBlock, blockType, Json.getKey, Assoc.get?_cons]

variable {printing : Printing} {request : DeepseekRequest} {thinkingEnabled : Bool}
  {body : List (String × Json)}

/-- **The strip does not change the decision on thinking.** -/
theorem effectiveThinking_strippedData (request : DeepseekRequest) (thinkingEnabled : Bool) :
    effectiveThinking request.strippedData thinkingEnabled =
      effectiveThinking request.data thinkingEnabled := by
  unfold effectiveThinking unsafeToolFollowup hasToolHistory hasReplayableToolThinking
  rw [messages_strippedData, request.listed]
  dsimp only [Json.items]
  rw [DeepseekRequest.stripped, List.any_map, List.any_map]
  congr 3
  · congr 1
    funext message
    exact hasToolHistoryBlocks_strippedMessage message
  · congr 2
    funext message
    exact hasReplayableThinking_strippedMessage message

/-! ### Hints -/

theorem hasEffort_removeEffort (data : List (String × Json)) :
    hasEffort (Json.getKey (removeEffort data) "output_config") = false := by
  unfold removeEffort
  split
  · rename_i outputConfig there
    split_ifs with effort
    · unfold setOrPop
      split_ifs
      · rw [getKey_popKey_self]
        rfl
      · rw [Json.getKey_setKey_self]
        exact decide_eq_false (notMem_popKey outputConfig "effort")
    · rw [there]
      exact decide_eq_false effort
  · rename_i other
    cases there : Json.getKey data "output_config" with
    | obj fields => exact absurd there (other fields)
    | null | bool | int | float | str | arr => rfl

theorem hasClearThinkingEdit_removed (data : List (String × Json)) :
    hasClearThinkingEdit (Json.getKey (removeClearThinkingEdits data) "context_management") =
      false := by
  unfold removeClearThinkingEdits
  split
  · rename_i contextManagement there
    split
    · rename_i edits listed
      dsimp only
      split_ifs with same nothing
      · -- Nothing was filtered out.
        have all := List.filter_eq_self.mp
          (List.filter_sublist.eq_of_length same : edits.filter _ = edits)
        rw [there, hasClearThinkingEdit, member_obj, listed, Json.items, List.any_eq_false]
        intro edit member
        simpa using all edit member
      · unfold setOrPop
        split_ifs
        · rw [getKey_popKey_self]
          rfl
        · rw [Json.getKey_setKey_self, hasClearThinkingEdit, member_obj, getKey_popKey_self]
          rfl
      · rw [Json.getKey_setKey_self, hasClearThinkingEdit, member_obj, Json.getKey_setKey_self,
          Json.items, List.any_filter]
        simp
    · rename_i other
      rw [there, hasClearThinkingEdit, member_obj]
      cases listed : Json.getKey contextManagement "edits" with
      | arr edits => exact absurd listed (other edits)
      | null | bool | int | float | str | obj => rfl
  · rename_i other
    cases there : Json.getKey data "context_management" with
    | obj fields => exact absurd there (other fields)
    | null | bool | int | float | str | arr => rfl

/-- **The hints of a body** are those of the request, unless a follow-up has lost its thinking. -/
theorem hasThinkingHints_nativeBody (data : List (String × Json)) :
    hasThinkingHints (nativeBody printing data thinkingEnabled) =
      if thinkingEnabled && unsafeToolFollowup data then false else hasThinkingHints data := by
  have effort := @getKey_nativeBody printing data thinkingEnabled "output_config" (by decide)
    (by decide)
  have edits := @getKey_nativeBody printing data thinkingEnabled "context_management" (by decide)
    (by decide)
  rw [if_neg (by decide), if_neg (by decide)] at effort edits
  unfold hasThinkingHints
  rw [effort, edits]
  split_ifs with removed
  · have messages := @getKey_withoutForcedChoice data "messages" (by decide) (by decide)
    unfold decidedData
    dsimp only
    rw [unsafeToolFollowup_congr messages, if_pos removed, removeDeepseekThinkingHints,
      hasClearThinkingEdit_removed, getKey_removeClearThinkingEdits _ (by decide),
      hasEffort_removeEffort]
    rfl
  · rw [getKey_decidedData data thinkingEnabled (by decide) (by decide)
      (.inr (Bool.eq_false_iff.mpr removed)),
      getKey_decidedData data thinkingEnabled (by decide) (by decide)
      (.inr (Bool.eq_false_iff.mpr removed))]

/-! ### The history -/

/-- The turns of a message that is sent are those of the request, unless thinking is off and the
message is an assistant's. -/
theorem turns_sent {message : Json}
    (kept : thinkingEnabled = true ∨ message.member "role" ≠ .str "assistant") :
    turns (blocks (nativeMessage printing thinkingEnabled (strippedMessage message))) =
      turns (blocks message) := by
  rw [blocks_nativeMessage, turns_normalized]
  have replayed : turns (replayedBlocks thinkingEnabled (strippedMessage message)) =
      turns (blocks (strippedMessage message)) := by
    unfold replayedBlocks
    rw [member_strippedMessage (by decide)]
    split_ifs with assistant
    · obtain rfl := kept.resolve_right (fun other => other assistant)
      rw [turns, turns, List.filter_filter]
      congr 1
      funext block
      cases turn : isTurn block with
      | true =>
        rcases isTurn_iff.mp turn with same | same <;> simp [isReplayed, same]
      | false => rfl
    · rfl
  rw [replayed, blocks_strippedMessage, turns_strippedBlocks]

/-- An assistant message that is sent without thinking has none. -/
theorem no_thinking_sent {message : Json} (assistant : message.member "role" = .str "assistant") :
    (blocks (nativeMessage printing false (strippedMessage message))).any isThinking = false := by
  rw [blocks_nativeMessage, replayedBlocks, member_strippedMessage (by decide), if_pos assistant,
    List.any_map, List.any_filter, List.any_eq_false]
  intro block _
  simp +contextual [isThinking, (onToolResults_normalize printing).type, isReplayed]

theorem any_isThinking_sent {message : Json}
    (kept : thinkingEnabled = true ∨ message.member "role" ≠ .str "assistant") :
    (blocks (nativeMessage printing thinkingEnabled (strippedMessage message))).any isThinking =
      (blocks message).any isThinking := by
  rw [← any_turns (fun _ => isTurn_of_isThinking), turns_sent kept,
    any_turns (fun _ => isTurn_of_isThinking)]

theorem replaysThinking_sent {message : Json} :
    replaysThinking (blocks (nativeMessage printing true (strippedMessage message))) =
      replaysThinking (blocks message) := by
  rw [← replaysThinking_turns, turns_sent (.inl rfl), replaysThinking_turns]

/-- The messages of a body. -/
theorem messages_nativeBody (request : DeepseekRequest) :
    (Json.getKey (nativeBody printing request.strippedData thinkingEnabled) "messages").items =
      request.messages.map fun message => nativeMessage printing
        (effectiveThinking request.data thinkingEnabled) (strippedMessage message) := by
  rw [getKey_nativeBody _ _ (by decide) (by decide), if_pos rfl, messages_strippedData,
    effectiveThinking_strippedData]
  exact List.map_map

/-- A body asks for thinking where it is kept and the request configures it. -/
theorem thinks_nativeBody (request : DeepseekRequest) :
    thinks (nativeBody printing request.strippedData thinkingEnabled) =
      (effectiveThinking request.data thinkingEnabled &&
        isObject (Json.getKey request.data "thinking")) := by
  have thinking : Json.getKey request.strippedData "thinking" = Json.getKey request.data "thinking" :=
    Json.getKey_setKey_ne _ (by decide) _
  unfold thinks
  rw [getKey_nativeBody _ _ (by decide) (by decide), if_neg (by decide), if_pos rfl,
    effectiveThinking_strippedData, thinking]
  split_ifs with asked
  · rw [asked]
    apply decide_eq_true
    unfold thinkingPayload
    cases ((Json.getKey request.data "thinking").member "budget_tokens").asInt? <;> rfl
  · rw [Bool.eq_false_iff.mpr asked]
    rfl

/-! ### Exactness -/

/-- A follow-up that loses the thinking that was on is one whose thinking is off. -/
theorem removed_iff (data : List (String × Json)) (thinkingEnabled : Bool) :
    (thinkingEnabled && unsafeToolFollowup data) = true ↔
      effectiveThinking data thinkingEnabled = false ∧ thinkingEnabled = true := by
  unfold effectiveThinking
  cases thinkingEnabled <;> simp

theorem hasThinkingHints_sent (request : DeepseekRequest) :
    hasThinkingHints (nativeBody printing request.strippedData thinkingEnabled) = false ↔
      (effectiveThinking request.data thinkingEnabled = false ∧ thinkingEnabled = true) ∨
        hasThinkingHints request.data = false := by
  have hints : hasThinkingHints request.strippedData = hasThinkingHints request.data := by
    unfold hasThinkingHints DeepseekRequest.strippedData
    rw [Json.getKey_setKey_ne _ (by decide), Json.getKey_setKey_ne _ (by decide)]
  rw [hasThinkingHints_nativeBody, hints, ← effectiveThinking_strippedData, ← removed_iff]
  split_ifs with removed
  · exact iff_of_true rfl (.inl removed)
  · exact (or_iff_right removed).symm

/-- **The bodies whose history goes with their thinking**: the body that a request is built into is
consistent exactly when the request is one of those above. -/
theorem thinking_consistent_iff
    (built : buildRequestBody printing request thinkingEnabled = .ok body) :
    ThinkingConsistent body ↔ RequestConsistent request thinkingEnabled := by
  obtain ⟨-, rfl⟩ := buildRequestBody_ok built
  have thinks := @thinks_nativeBody printing thinkingEnabled request
  have messages := @messages_nativeBody printing thinkingEnabled request
  have hints := @hasThinkingHints_sent printing thinkingEnabled request
  have split : ThinkingConsistent (nativeBody printing request.strippedData thinkingEnabled) ↔
      if effectiveThinking request.data thinkingEnabled &&
          isObject (Json.getKey request.data "thinking") then
        ∀ message ∈ request.messages, message.member "role" = .str "assistant" →
          replaysThinking (blocks (nativeMessage printing
            (effectiveThinking request.data thinkingEnabled) (strippedMessage message))) = true
      else
        (∀ message ∈ request.messages, (blocks (nativeMessage printing
          (effectiveThinking request.data thinkingEnabled) (strippedMessage message))).any isThinking =
            false) ∧
        hasThinkingHints (nativeBody printing request.strippedData thinkingEnabled) = false := by
    have role (message : Json) : (nativeMessage printing
        (effectiveThinking request.data thinkingEnabled) (strippedMessage message)).member "role" =
          message.member "role" := by
      rw [role_nativeMessage, member_strippedMessage (by decide)]
    split_ifs with on
    · constructor
      · intro consistent message member assistant
        refine consistent.enabled (thinks.trans on) _ ?_ ((role message).trans assistant)
        rw [messages]
        exact List.mem_map_of_mem member
      · intro replays
        refine ⟨fun _ => ?_, fun off => ?_, fun off => ?_⟩
        · rw [messages]
          rintro sent member assistant
          obtain ⟨message, inside, rfl⟩ := List.mem_map.mp member
          exact replays message inside ((role message).symm.trans assistant)
        · rw [thinks, on] at off
          cases off
        · rw [thinks, on] at off
          cases off
    · have off := thinks.trans (Bool.eq_false_iff.mpr on)
      constructor
      · intro consistent
        refine ⟨fun message member => consistent.history off _ ?_, consistent.hints off⟩
        rw [messages]
        exact List.mem_map_of_mem member
      · rintro ⟨history, noHints⟩
        refine ⟨fun enabled => absurd (thinks.symm.trans enabled) on, fun _ => ?_, fun _ => noHints⟩
        rw [messages]
        rintro sent member
        obtain ⟨message, inside, rfl⟩ := List.mem_map.mp member
        exact history message inside
  rw [split, hints, RequestConsistent]
  cases effective : effectiveThinking request.data thinkingEnabled with
  | true =>
    rw [Bool.true_and, if_pos rfl]
    split_ifs with configured
    · simp only [replaysThinking_sent]
    · simp only [any_isThinking_sent (.inl rfl), false_and, false_or]
  | false =>
    rw [Bool.false_and, if_neg Bool.false_ne_true, if_neg Bool.false_ne_true]
    refine and_congr ?_ (by simp)
    refine forall₂_congr fun message _ => ?_
    by_cases assistant : message.member "role" = .str "assistant"
    · exact iff_of_true (no_thinking_sent assistant) (fun other => absurd assistant other)
    · rw [any_isThinking_sent (.inr assistant)]
      exact ⟨fun none _ => none, fun none => none assistant⟩

/-! ### Two histories -/

/-- A tool turn of an assistant, behind this thinking, and its result. -/
def toolTurn (id : String) (thinking : List Json) : List Json :=
  [.obj [("role", .str "assistant"), ("content", .arr (thinking ++ [.obj [("type", .str "tool_use"),
      ("id", .str id), ("name", .str "Read"), ("input", .obj [])]]))],
    .obj [("role", .str "user"), ("content", .arr [.obj [("type", .str "tool_result"),
      ("tool_use_id", .str id), ("content", .str "ok")]])]]

def plainThinking : Json := .obj [("type", .str "thinking"), ("thinking", .str "plain")]

/-- A request for thinking, with this history. -/
def thinkingRequest (messages : List Json) (valid : messages.all isMessage = true) :
    DeepseekRequest where
  data := [("model", .str "m"), ("messages", .arr messages),
    ("thinking", .obj [("enabled", .bool true), ("type", .str "enabled")])]
  messages := messages
  listed := rfl
  valid := valid
  system := rfl

/-- One tool turn, with thinking. -/
def replayedRequest : DeepseekRequest :=
  thinkingRequest (toolTurn "t1" [plainThinking]) (by decide)

theorem replayedRequest_consistent : ∃ body,
    buildRequestBody nothingPrinted replayedRequest true = .ok body ∧ thinks body = true ∧
      ThinkingConsistent body := by
  have built : buildRequestBody nothingPrinted replayedRequest true =
      .ok (nativeBody nothingPrinted replayedRequest.strippedData true) := rfl
  have consistent : RequestConsistent replayedRequest true := by
    unfold RequestConsistent
    decide
  exact ⟨_, built, by decide, (thinking_consistent_iff built).mpr consistent⟩

/-- One tool turn with thinking, and one without. -/
def mixedRequest : DeepseekRequest :=
  thinkingRequest (toolTurn "t1" [plainThinking] ++ toolTurn "t2" []) (by decide)

/-- **A history that mixes turns with and without thinking is sent with thinking on**, although its
second tool turn has none to replay. -/
theorem mixedHistory_inconsistent : ∃ body,
    buildRequestBody nothingPrinted mixedRequest true = .ok body ∧ thinks body = true ∧
      ¬ ThinkingConsistent body := by
  have built : buildRequestBody nothingPrinted mixedRequest true =
      .ok (nativeBody nothingPrinted mixedRequest.strippedData true) := rfl
  have thinking : thinks (nativeBody nothingPrinted mixedRequest.strippedData true) = true := by
    decide
  refine ⟨_, built, thinking, fun consistent => ?_⟩
  have replays := consistent.enabled thinking
  revert replays
  decide

end Deepseek

end ClaudeProxy
