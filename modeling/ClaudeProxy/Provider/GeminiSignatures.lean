/-
**Gemini's thought signatures** (`providers/gemini/client.py`, `providers/gemini/request.py`).

Gemini signs its tool calls and asks for the signatures when the conversation goes on, but a client
may send a call back without. The provider records what came with each call, and puts it back into
the next request; for a call of the current turn without a signature it has a placeholder.

* `recordToolCallExtraContent`, `recorded` — the table of what came with the calls.
* `applyGeminiToolCallSignatures`, `buildRequestBody` — the request.
* `bareToolCall`, `bareMessage` — calls and messages without what may be put in.
* **`signatures_return`** — over any run of calls that are recorded, and for any request: a call without
  a signature is sent with what was recorded for it last, as long as fewer than 4096 other calls have
  come since it was first recorded; a signature that is there stays; and, for Gemini 3, no message of
  the current turn begins its calls without a signature; nothing else is changed.
-/

import ClaudeProxy.Library.FifoTable
import ClaudeProxy.Messaging.CliEvents

namespace ClaudeProxy

namespace Gemini

open Json (getKey setKey)

/-! ### What came with the calls -/

/-- `_MAX_TOOL_CALL_EXTRA_CONTENT_CACHE`. -/
def maxToolCallExtraContentCache : Nat := 4096

/-- The extra contents by the calls' ids, the oldest first. -/
abbrev ExtraContents := List (String × List (String × Json))

/-- `_record_tool_call_extra_content`. -/
def recordToolCallExtraContent (cache : ExtraContents) (toolCallId : String)
    (extraContent : List (String × Json)) : ExtraContents :=
  let cache := if toolCallId ∉ cache.map Prod.fst ∧ maxToolCallExtraContentCache ≤ cache.length
    then cache.drop 1 else cache
  Assoc.set toolCallId extraContent cache

/-- The table behind a run of calls. -/
def recorded (calls : ExtraContents) : ExtraContents :=
  calls.foldl (fun cache call => recordToolCallExtraContent cache call.1 call.2) []

/-! ### Signatures -/

/-- `_thought_signature_from_extra_content`. -/
def thoughtSignatureFromExtraContent (extraContent : Json) : Option String :=
  extraContent.asObj?.bind fun fields =>
    (getKey fields "google").asObj?.bind fun google =>
      (getKey google "thought_signature").asStr?.filter fun signature => signature ≠ ""

/-- `_tool_call_thought_signature`. -/
def toolCallThoughtSignature (toolCall : List (String × Json)) : Option String :=
  thoughtSignatureFromExtraContent (getKey toolCall "extra_content")

/-- `_set_tool_call_thought_signature`. -/
def setToolCallThoughtSignature (toolCall : List (String × Json)) (signature : String) :
    List (String × Json) :=
  let extraContent := (getKey toolCall "extra_content").asObj?.getD []
  let google := (getKey extraContent "google").asObj?.getD []
  setKey toolCall "extra_content"
    (.obj (setKey extraContent "google" (.obj (setKey google "thought_signature" (.str signature)))))

/-- `GEMINI_SKIP_THOUGHT_SIGNATURE_VALIDATOR`. -/
def skipThoughtSignatureValidator : String := "skip_thought_signature_validator"

/-! ### The current turn -/

/-- A part of a content that is text. -/
def isTextPart : Json → Bool
  | .obj part => (getKey part "text").asStr?.any fun text => Py.strip text ≠ ""
  | _ => false

/-- `_message_has_standard_user_content`, of anything. -/
def messageHasStandardUserContent : Json → Bool
  | .obj message =>
    decide (getKey message "role" = .str "user") &&
      match getKey message "content" with
      | .str text => decide (Py.strip text ≠ "")
      | .arr parts => parts.any isTextPart
      | _ => false
  | _ => false

/-- `_current_turn_start_index(messages) + 1`. -/
def currentTurnStart (messages : List Json) : Nat :=
  messages.length - messages.reverse.findIdx messageHasStandardUserContent

/-! ### The request -/

/-- The tool calls of an assistant's message are changed. -/
def changeToolCalls (change : List Json → List Json) : Json → Json
  | .obj message =>
    if getKey message "role" = .str "assistant" then
      match getKey message "tool_calls" with
      | .arr toolCalls => .obj (setKey message "tool_calls" (.arr (change toolCalls)))
      | _ => .obj message
    else .obj message
  | other => other

section Request

variable (text : CliText) (lower : String → String) (cache : ExtraContents)

/-- What was recorded for a call, if it has a signature. -/
def cachedExtraContent (toolCall : List (String × Json)) : Option (List (String × Json)) :=
  match getKey toolCall "id" with
  | .null => none
  | toolCallId => (Assoc.get? (text.print toolCallId) cache).filter fun extraContent =>
      (thoughtSignatureFromExtraContent (.obj extraContent)).isSome

/-- A call gets back what was recorded for it. -/
def restoreToolCall : Json → Json
  | .obj toolCall =>
    if (toolCallThoughtSignature toolCall).isSome then .obj toolCall
    else match cachedExtraContent text cache toolCall with
      | some extraContent => .obj (setKey toolCall "extra_content" (.obj extraContent))
      | none => .obj toolCall
  | other => other

/-- `_apply_cached_tool_call_signatures`. -/
def applyCachedToolCallSignatures (messages : List Json) : List Json :=
  messages.map (changeToolCalls (List.map (restoreToolCall text cache)))

/-- The first call of a message gets the placeholder. -/
def signFirst : List Json → List Json
  | .obj first :: rest =>
    if (toolCallThoughtSignature first).isSome then .obj first :: rest
    else .obj (setToolCallThoughtSignature first skipThoughtSignatureValidator) :: rest
  | toolCalls => toolCalls

/-- `_is_gemini_3_model`. -/
def isGemini3Model (model : Json) : Bool := Py.contains (lower (text.print model)) "gemini-3"

/-- `_apply_gemini_3_missing_current_turn_signatures`. -/
def applyGemini3MissingCurrentTurnSignatures (model : Json) (messages : List Json) : List Json :=
  if isGemini3Model text lower model then
    let start := currentTurnStart messages
    messages.take start ++ (messages.drop start).map (changeToolCalls signFirst)
  else messages

/-- `_apply_gemini_tool_call_signatures`. -/
def applyGeminiToolCallSignatures (body : List (String × Json)) : List (String × Json) :=
  match getKey body "messages" with
  | .arr messages =>
    setKey body "messages" (.arr (applyGemini3MissingCurrentTurnSignatures text lower
      (getKey body "model") (applyCachedToolCallSignatures text cache messages)))
  | _ => body

/-- `_apply_thinking_config`. -/
def applyThinkingConfig (extraBody : List (String × Json)) : List (String × Json) :=
  let literalExtraBody := (getKey extraBody "extra_body").asObj?.getD []
  let googleSection := (getKey literalExtraBody "google").asObj?.getD []
  let thinkingCfg := (getKey googleSection "thinking_config").asObj?.getD []
  let thinkingCfg := if (Assoc.get? "include_thoughts" thinkingCfg).isSome then thinkingCfg
    else setKey thinkingCfg "include_thoughts" (.bool true)
  setKey extraBody "extra_body" (.obj (setKey literalExtraBody "google"
    (.obj (setKey googleSection "thinking_config" (.obj thinkingCfg)))))

/-- `build_request_body`, of the body that `build_base_request_body` makes. -/
def buildRequestBody (body : List (String × Json)) (requestExtra : Option (List (String × Json)))
    (thinkingEnabled : Bool) : List (String × Json) :=
  let extraBody := requestExtra.getD []
  let extraBody := if thinkingEnabled then applyThinkingConfig extraBody else extraBody
  let body := if thinkingEnabled then body else setKey body "reasoning_effort" (.str "none")
  let body := if extraBody ≠ [] then setKey body "extra_body" (.obj extraBody) else body
  applyGeminiToolCallSignatures text lower cache body

end Request

/-! ### The table over a run -/

/-- The table is of bounded size, with distinct ids. -/
structure Bounded (cache : ExtraContents) : Prop where
  bounded : cache.length ≤ maxToolCallExtraContentCache
  distinct : (cache.map Prod.fst).Nodup

variable {cache : ExtraContents} {toolCallId other : String}
  {extraContent extraContent' : List (String × Json)} {names : Finset String}

/-- A new id is entered; where there are too many, the oldest one goes. -/
theorem record_of_notMem (absent : toolCallId ∉ cache.map Prod.fst) :
    recordToolCallExtraContent cache toolCallId extraContent =
      Assoc.enter maxToolCallExtraContentCache toolCallId extraContent cache := by
  rw [Assoc.enter_of_notMem absent]
  unfold recordToolCallExtraContent
  by_cases full : maxToolCallExtraContentCache ≤ cache.length
  · have later : toolCallId ∉ (cache.drop 1).map Prod.fst := fun inside => by
      rw [List.map_drop] at inside
      exact absent (List.mem_of_mem_drop inside)
    have nonempty : 1 ≤ cache.length := le_trans (by decide) full
    rw [if_pos ⟨absent, full⟩, if_pos (Nat.lt_succ_of_le full)]
    dsimp only
    rw [Assoc.set_of_notMem later, List.drop_append_of_le_length nonempty]
  · rw [if_neg fun both => full both.2, if_neg (by omega)]
    exact Assoc.set_of_notMem absent

/-- An id that is there gets its new content. -/
theorem record_of_mem (present : toolCallId ∈ cache.map Prod.fst) :
    recordToolCallExtraContent cache toolCallId extraContent =
      Assoc.set toolCallId extraContent cache := by
  unfold recordToolCallExtraContent
  rw [if_neg fun both => both.1 present]

/-- **One call keeps the table in bounds.** -/
theorem Bounded.record (kept : Bounded cache) (toolCallId : String)
    (extraContent : List (String × Json)) :
    Bounded (recordToolCallExtraContent cache toolCallId extraContent) := by
  by_cases present : toolCallId ∈ cache.map Prod.fst
  · rw [record_of_mem present]
    refine ⟨?_, Assoc.nodup_set kept.distinct _ _⟩
    have keys := congrArg List.length (Assoc.keys_set toolCallId extraContent cache)
    rw [if_pos present, List.length_map, List.length_map] at keys
    rw [keys]
    exact kept.bounded
  · rw [record_of_notMem present]
    exact ⟨Assoc.length_enter_le kept.bounded present, Assoc.nodup_enter kept.distinct _ _⟩

theorem bounded_recorded (calls : ExtraContents) : Bounded (recorded calls) := by
  induction calls using List.reverseRecOn with
  | nil => exact ⟨Nat.zero_le _, List.nodup_nil⟩
  | append_singleton calls call ih =>
    rw [recorded, List.foldl_append]
    exact ih.record call.1 call.2

/-- The ids in the table have been recorded. -/
theorem keys_recorded {calls : ExtraContents} {entry : String × List (String × Json)}
    (member : entry ∈ recorded calls) : entry.1 ∈ calls.map Prod.fst := by
  induction calls using List.reverseRecOn with
  | nil => cases member
  | append_singleton calls call ih =>
    rw [recorded, List.foldl_append, ← recorded] at member
    rw [List.map_append]
    have origin : entry = call ∨ entry ∈ recorded calls := by
      by_cases present : call.1 ∈ (recorded calls).map Prod.fst
      · rw [List.foldl_cons, List.foldl_nil, record_of_mem present] at member
        exact Assoc.mem_set member
      · rw [List.foldl_cons, List.foldl_nil,
          record_of_notMem present] at member
        exact Assoc.mem_enter member
    rcases origin with rfl | before
    · exact List.mem_append_right _ List.mem_cons_self
    · exact List.mem_append_left _ (ih before)

/-- The content that came last with a call. -/
def lastContent (calls : ExtraContents) (toolCallId : String) : Option (List (String × Json)) :=
  Assoc.get? toolCallId calls.reverse

theorem lastContent_concat (calls : ExtraContents) (content : List (String × Json)) :
    lastContent (calls ++ [(other, content)]) toolCallId =
      if other = toolCallId then some content else lastContent calls toolCallId := by
  rw [lastContent, List.reverse_append]
  rfl

/-- **A call stays in the table**, with what came last with it, while there is room for the others. -/
theorem heldSince_recorded {before : ExtraContents} (fresh : toolCallId ∉ before.map Prod.fst)
    (later : ExtraContents)
    (few : ((later.map Prod.fst).toFinset.erase toolCallId).card < maxToolCallExtraContentCache) :
    ∃ last, lastContent (before ++ (toolCallId, extraContent) :: later) toolCallId = some last ∧
      Assoc.HeldSince toolCallId last (later.map Prod.fst).toFinset
        (recorded (before ++ (toolCallId, extraContent) :: later)) := by
  induction later using List.reverseRecOn with
  | nil =>
    have absent : toolCallId ∉ (recorded before).map Prod.fst := fun inside => by
      obtain ⟨entry, member, rfl⟩ := List.mem_map.mp inside
      exact fresh (keys_recorded member)
    refine ⟨extraContent, by simp [lastContent, Assoc.get?_cons], ?_⟩
    rw [recorded, List.foldl_append, ← recorded, List.foldl_cons, List.foldl_nil,
      record_of_notMem absent]
    exact Assoc.HeldSince.entered (by decide) absent
  | append_singleton later call ih =>
    obtain ⟨other, content⟩ := call
    have names : ((later ++ [(other, content)]).map Prod.fst).toFinset =
        insert other (later.map Prod.fst).toFinset := by
      simp [List.toFinset_append, Finset.union_comm]
    have fewer : ((later.map Prod.fst).toFinset.erase toolCallId).card <
        maxToolCallExtraContentCache :=
      lt_of_le_of_lt (Finset.card_le_card (Finset.erase_subset_erase _ (by simp))) few
    obtain ⟨last, isLast, held⟩ := ih fewer
    have run : recorded (before ++ (toolCallId, extraContent) :: later ++ [(other, content)]) =
        recordToolCallExtraContent (recorded (before ++ (toolCallId, extraContent) :: later)) other
          content := by
      rw [recorded, List.foldl_append]
      rfl
    have kept := bounded_recorded (before ++ (toolCallId, extraContent) :: later)
    rw [← List.cons_append, ← List.append_assoc, run, lastContent_concat, isLast, names]
    by_cases same : other = toolCallId
    · subst same
      rw [if_pos rfl, record_of_mem (List.mem_map_of_mem held.mem)]
      exact ⟨content, rfl, (held.overwrite kept.distinct).weaken (Finset.subset_insert _ _)⟩
    · rw [if_neg same]
      refine ⟨last, rfl, ?_⟩
      by_cases present : other ∈ (recorded (before ++ (toolCallId, extraContent) :: later)).map Prod.fst
      · rw [record_of_mem present]
        exact (held.set_other same present).weaken (Finset.subset_insert _ _)
      · rw [record_of_notMem present]
        refine held.enter kept.distinct present ?_
        rwa [names] at few

/-! ### What is put into a request -/

/-- A call without what may be put in. -/
def bareToolCall : Json → Json
  | .obj toolCall => .obj (toolCall.filter fun member => member.1 ≠ "extra_content")
  | other => other

/-- A message without what may be put into its calls. -/
def bareMessage (message : Json) : Json := changeToolCalls (List.map bareToolCall) message

section Bare

theorem filter_setKey (fields : List (String × Json)) (value : Json) :
    (setKey fields "extra_content" value).filter (fun member => member.1 ≠ "extra_content") =
      fields.filter fun member => member.1 ≠ "extra_content" := by
  unfold setKey
  induction fields with
  | nil => rfl
  | cons member fields ih =>
    rw [Assoc.set]
    split_ifs with same
    · simp [same]
    · rw [List.filter_cons, List.filter_cons, ih]

theorem bareToolCall_setKey (toolCall : List (String × Json)) (value : Json) :
    bareToolCall (.obj (setKey toolCall "extra_content" value)) = bareToolCall (.obj toolCall) :=
  congrArg Json.obj (filter_setKey toolCall value)

theorem bareToolCall_restore (text : CliText) (toolCall : Json) :
    bareToolCall (restoreToolCall text cache toolCall) = bareToolCall toolCall := by
  cases toolCall with
  | obj fields =>
    rw [restoreToolCall]
    split_ifs
    · rfl
    · cases cachedExtraContent text cache fields with
      | none => rfl
      | some content => exact bareToolCall_setKey fields _
  | _ => rfl

theorem bareToolCall_signFirst (toolCalls : List Json) :
    (signFirst toolCalls).map bareToolCall = toolCalls.map bareToolCall := by
  unfold signFirst
  split
  · split_ifs
    · rfl
    · rw [List.map_cons, List.map_cons, setToolCallThoughtSignature, bareToolCall_setKey]
  · rfl

end Bare

/-! ### The calls of a message -/

/-- The calls of an assistant's message. -/
def toolCallsOf : Json → Option (List Json)
  | .obj message =>
    if getKey message "role" = .str "assistant" then
      match getKey message "tool_calls" with
      | .arr toolCalls => some toolCalls
      | _ => none
    else none
  | _ => none

section Calls

variable {change other : List Json → List Json} {message : Json}

theorem set_set {fields : List (String × Json)} {key : String} (first second : Json) :
    setKey (setKey fields key first) key second = setKey fields key second := by
  unfold setKey
  induction fields with
  | nil => simp [Assoc.set]
  | cons member fields ih =>
    by_cases same : member.1 = key
    · simp [Assoc.set, same]
    · simp [Assoc.set, same, ih]

/-- A message with calls: they are replaced. -/
theorem changeToolCalls_of_some {fields toolCalls : _} (role : getKey fields "role" = .str "assistant")
    (calls : getKey fields "tool_calls" = .arr toolCalls) :
    changeToolCalls change (.obj fields) =
      .obj (setKey fields "tool_calls" (.arr (change toolCalls))) := by
  rw [changeToolCalls, if_pos role, calls]

/-- A message is an assistant's with calls, or is left alone. -/
theorem changeToolCalls_cases (message : Json) :
    (∃ fields toolCalls, message = .obj fields ∧ getKey fields "role" = .str "assistant" ∧
      getKey fields "tool_calls" = .arr toolCalls ∧ toolCallsOf message = some toolCalls) ∨
    (toolCallsOf message = none ∧ ∀ change, changeToolCalls change message = message) := by
  cases message with
  | obj fields =>
    by_cases role : getKey fields "role" = .str "assistant"
    · cases calls : getKey fields "tool_calls" with
      | arr toolCalls =>
        exact .inl ⟨fields, toolCalls, rfl, role, calls, by rw [toolCallsOf, if_pos role, calls]⟩
      | _ =>
        refine .inr ⟨by rw [toolCallsOf, if_pos role, calls], fun change => ?_⟩
        rw [changeToolCalls, if_pos role, calls]
    · exact .inr ⟨if_neg role, fun change => if_neg role⟩
  | _ => exact .inr ⟨rfl, fun change => rfl⟩

theorem toolCallsOf_change (message : Json) :
    toolCallsOf (changeToolCalls change message) = (toolCallsOf message).map change := by
  rcases changeToolCalls_cases message with ⟨fields, toolCalls, rfl, role, calls, found⟩ | ⟨none_, same⟩
  · rw [changeToolCalls_of_some role calls, found, Option.map_some, toolCallsOf, Json.getKey_setKey_self,
      Json.getKey_setKey_ne _ (by decide), if_pos role]
  · rw [same, none_, Option.map_none]

/-- Two changes, one after the other. -/
theorem change_change (message : Json) :
    changeToolCalls other (changeToolCalls change message) =
      changeToolCalls (other ∘ change) message := by
  rcases changeToolCalls_cases message with ⟨fields, toolCalls, rfl, role, calls, -⟩ | ⟨-, same⟩
  · have role' : getKey (setKey fields "tool_calls" (.arr (change toolCalls))) "role" =
        .str "assistant" := by
      rw [Json.getKey_setKey_ne _ (by decide), role]
    rw [changeToolCalls_of_some role calls, changeToolCalls_of_some role calls,
      changeToolCalls_of_some role' (Json.getKey_setKey_self _ _ _), set_set]
    rfl
  · rw [same, same, same]

/-- A change of the calls that leaves them as they are without what was put in. -/
theorem bareMessage_change
    (keeps : ∀ toolCalls, (change toolCalls).map bareToolCall = toolCalls.map bareToolCall)
    (message : Json) : bareMessage (changeToolCalls change message) = bareMessage message := by
  have same : List.map bareToolCall ∘ change = List.map bareToolCall := funext keeps
  rw [bareMessage, bareMessage, change_change, same]

/-- The user's messages stay what they are. -/
theorem standardUserContent_change (message : Json) :
    messageHasStandardUserContent (changeToolCalls change message) =
      messageHasStandardUserContent message := by
  rcases changeToolCalls_cases message with ⟨fields, toolCalls, rfl, role, calls, -⟩ | ⟨-, same⟩
  · rw [changeToolCalls_of_some role calls]
    simp [messageHasStandardUserContent, Json.getKey_setKey_ne, role]
  · rw [same]

theorem currentTurnStart_change (messages : List Json) :
    currentTurnStart (messages.map (changeToolCalls change)) = currentTurnStart messages := by
  unfold currentTurnStart
  rw [List.length_map, ← List.map_reverse, List.findIdx_map]
  congr 2
  funext message
  exact standardUserContent_change message

end Calls

/-! ### The messages that are sent -/

section Sent

variable {text : CliText} {lower : String → String} {fields last : List (String × Json)}

/-- What the calls of the message at this place go through. -/
def callsChange (text : CliText) (cache : ExtraContents) (current : Bool) (toolCalls : List Json) :
    List Json :=
  let restored := toolCalls.map (restoreToolCall text cache)
  if current then signFirst restored else restored

theorem bareToolCall_callsChange (current : Bool) (toolCalls : List Json) :
    (callsChange text cache current toolCalls).map bareToolCall = toolCalls.map bareToolCall := by
  have restored : (toolCalls.map (restoreToolCall text cache)).map bareToolCall =
      toolCalls.map bareToolCall := by
    rw [List.map_map]
    exact List.map_congr_left fun toolCall _ => bareToolCall_restore text toolCall
  unfold callsChange
  cases current with
  | false => exact restored
  | true => exact (bareToolCall_signFirst _).trans restored

/-- **Message by message**: the calls are restored, and signed in the current turn. -/
theorem messages_sent (model : Json) (messages : List Json) :
    applyGemini3MissingCurrentTurnSignatures text lower model
        (applyCachedToolCallSignatures text cache messages) =
      messages.mapIdx fun place => changeToolCalls (callsChange text cache
        (isGemini3Model text lower model && decide (currentTurnStart messages ≤ place))) := by
  unfold applyGemini3MissingCurrentTurnSignatures applyCachedToolCallSignatures
  apply List.ext_getElem?
  intro place
  rw [List.getElem?_mapIdx]
  by_cases gemini3 : isGemini3Model text lower model
  · rw [if_pos gemini3, gemini3, Bool.true_and]
    dsimp only
    rw [currentTurnStart_change]
    have within : currentTurnStart messages ≤ messages.length := Nat.sub_le _ _
    by_cases current : currentTurnStart messages ≤ place
    · rw [List.getElem?_append_right (by simpa using .inl current), List.getElem?_map,
        List.getElem?_drop, List.getElem?_map, decide_eq_true current]
      rw [List.length_take, List.length_map, Nat.min_eq_left within, Nat.add_sub_cancel' current,
        Option.map_map]
      congr 1
      funext message
      exact change_change message
    · have earlier : place < currentTurnStart messages := Nat.lt_of_not_le current
      rw [List.getElem?_append_left (by simpa using ⟨earlier, by omega⟩),
        List.getElem?_take_of_lt earlier, List.getElem?_map, decide_eq_false current]
      rfl
  · rw [if_neg gemini3, Bool.eq_false_of_not_eq_true gemini3, List.getElem?_map]
    rfl

theorem restore_of_signed (signed : (toolCallThoughtSignature fields).isSome) :
    restoreToolCall text cache (.obj fields) = .obj fields := by
  rw [restoreToolCall, if_pos signed]

/-- A call without a signature gets back what is in the table for it. -/
theorem restore_of_held (unsigned : toolCallThoughtSignature fields = none)
    (called : getKey fields "id" = .str toolCallId) (held : Assoc.get? toolCallId cache = some last)
    (signed : (thoughtSignatureFromExtraContent (.obj last)).isSome) :
    restoreToolCall text cache (.obj fields) = .obj (setKey fields "extra_content" (.obj last)) := by
  have found : cachedExtraContent text cache fields = some last := by
    rw [cachedExtraContent, called]
    change (Assoc.get? toolCallId cache).filter _ = _
    rw [held, Option.filter_some, if_pos signed]
  rw [restoreToolCall, unsigned, if_neg (by simp), found]

/-- A call that nothing with a signature was recorded for stays as it is. -/
theorem restore_of_unknown (unknown : cachedExtraContent text cache fields = none) :
    restoreToolCall text cache (.obj fields) = .obj fields := by
  rw [restoreToolCall, unknown, ite_self]

/-- A restored call is still a call. -/
theorem restore_obj (text : CliText) (cache : ExtraContents) (fields : List (String × Json)) :
    ∃ fields', restoreToolCall text cache (.obj fields) = .obj fields' := by
  rw [restoreToolCall]
  split_ifs
  · exact ⟨_, rfl⟩
  · cases cachedExtraContent text cache fields with
    | none => exact ⟨_, rfl⟩
    | some content => exact ⟨_, rfl⟩

/-- The signature that was put in is the call's. -/
theorem toolCallThoughtSignature_set {signature : String} (nonempty : signature ≠ "") :
    toolCallThoughtSignature (setToolCallThoughtSignature fields signature) = some signature := by
  rw [toolCallThoughtSignature, setToolCallThoughtSignature, Json.getKey_setKey_self,
    thoughtSignatureFromExtraContent]
  simp [Json.asObj?, Json.asStr?, nonempty]

/-- A call that has a signature when it is the first one's turn is left alone. -/
theorem signFirst_of_signed {rest : List Json} (signed : (toolCallThoughtSignature fields).isSome) :
    signFirst (.obj fields :: rest) = .obj fields :: rest := by
  rw [signFirst, if_pos signed]

theorem signFirst_signs (fields : List (String × Json)) (rest : List Json) :
    ∃ fields', signFirst (.obj fields :: rest) = .obj fields' :: rest ∧
      (toolCallThoughtSignature fields').isSome := by
  by_cases signed : (toolCallThoughtSignature fields).isSome
  · exact ⟨fields, signFirst_of_signed signed, signed⟩
  · refine ⟨setToolCallThoughtSignature fields skipThoughtSignatureValidator, ?_, ?_⟩
    · rw [signFirst, if_neg signed]
    · rw [toolCallThoughtSignature_set (by decide), Option.isSome_some]

/-- A call that is signed once it is restored is sent so. -/
theorem callsChange_of_signed {toolCalls : List Json} {place : Nat} {toolCall : Json} (current : Bool)
    (there : toolCalls[place]? = some toolCall)
    (restored : restoreToolCall text cache toolCall = .obj fields)
    (signed : (toolCallThoughtSignature fields).isSome) :
    (callsChange text cache current toolCalls)[place]? = some (.obj fields) := by
  have inside : (toolCalls.map (restoreToolCall text cache))[place]? = some (.obj fields) := by
    rw [List.getElem?_map, there, Option.map_some, restored]
  unfold callsChange
  dsimp only
  cases current with
  | false => exact inside
  | true =>
    rw [if_pos rfl]
    cases restoredCalls : toolCalls.map (restoreToolCall text cache) with
    | nil => rw [restoredCalls] at inside; cases inside
    | cons first rest =>
      rw [restoredCalls] at inside
      cases place with
      | zero =>
        cases Option.some.inj inside
        rw [signFirst_of_signed signed]
        rfl
      | succ place =>
        cases first with
        | obj firstFields =>
          obtain ⟨fields', sent, -⟩ := signFirst_signs firstFields rest
          rw [sent]
          exact inside
        | _ => exact inside

/-- The first call is sent with a signature. -/
theorem callsChange_first {toolCalls : List Json} (first : toolCalls[0]? = some (.obj fields)) :
    ∃ sent, (callsChange text cache true toolCalls)[0]? = some (.obj sent) ∧
      (toolCallThoughtSignature sent).isSome := by
  cases toolCalls with
  | nil => cases first
  | cons toolCall rest =>
    cases Option.some.inj first
    obtain ⟨restored, isRestored⟩ := restore_obj text cache fields
    obtain ⟨sent, isSent, signed⟩ :=
      signFirst_signs restored (rest.map (restoreToolCall text cache))
    refine ⟨sent, ?_, signed⟩
    rw [callsChange, if_pos rfl, List.map_cons, isRestored, isSent]
    rfl

/-- Outside the current turn, or behind the first one, a call without a record is sent as it came. -/
theorem callsChange_of_unknown {toolCalls : List Json} {place : Nat} {current : Bool}
    (there : toolCalls[place]? = some (.obj fields))
    (unknown : cachedExtraContent text cache fields = none) (apart : current = true → place ≠ 0) :
    (callsChange text cache current toolCalls)[place]? = some (.obj fields) := by
  have inside : (toolCalls.map (restoreToolCall text cache))[place]? = some (.obj fields) := by
    rw [List.getElem?_map, there, Option.map_some, restore_of_unknown unknown]
  unfold callsChange
  dsimp only
  cases current with
  | false => exact inside
  | true =>
    obtain ⟨place, rfl⟩ := Nat.exists_eq_succ_of_ne_zero (apart rfl)
    rw [if_pos rfl]
    cases restoredCalls : toolCalls.map (restoreToolCall text cache) with
    | nil => rw [restoredCalls] at inside; cases inside
    | cons first rest =>
      rw [restoredCalls] at inside
      cases first with
      | obj firstFields =>
        obtain ⟨fields', sent, -⟩ := signFirst_signs firstFields rest
        rw [sent]
        exact inside
      | _ => exact inside

/-! ### The body of the request -/

variable {body : List (String × Json)} {messages : List Json}
  {requestExtra : Option (List (String × Json))} {thinkingEnabled : Bool}

theorem applySignatures_other {key : String} (notMessages : key ≠ "messages") :
    getKey (applyGeminiToolCallSignatures text lower cache body) key = getKey body key := by
  rw [applyGeminiToolCallSignatures]
  split
  · exact Json.getKey_setKey_ne _ notMessages _
  · rfl

/-- The thinking settings touch two members only. -/
theorem thinking_other {extraBody : List (String × Json)} {key : String} (notExtra : key ≠ "extra_body")
    (notEffort : key ≠ "reasoning_effort") (effort : Json) :
    getKey (if extraBody ≠ [] then
        setKey (if thinkingEnabled then body else setKey body "reasoning_effort" effort) "extra_body"
          (.obj extraBody)
      else if thinkingEnabled then body else setKey body "reasoning_effort" effort) key =
      getKey body key := by
  split_ifs <;> simp only [Json.getKey_setKey_ne _ notExtra, Json.getKey_setKey_ne _ notEffort]

/-- The rest of the body is as it was built. -/
theorem buildRequestBody_other {key : String}
    (apart : key ∉ ["messages", "extra_body", "reasoning_effort"]) :
    getKey (buildRequestBody text lower cache body requestExtra thinkingEnabled) key =
      getKey body key := by
  simp only [List.mem_cons, List.not_mem_nil, or_false, not_or] at apart
  obtain ⟨notMessages, notExtra, notEffort⟩ := apart
  rw [buildRequestBody, applySignatures_other notMessages]
  exact thinking_other notExtra notEffort _

theorem applySignatures_messages (list : getKey body "messages" = .arr messages) :
    getKey (applyGeminiToolCallSignatures text lower cache body) "messages" =
      .arr (applyGemini3MissingCurrentTurnSignatures text lower (getKey body "model")
        (applyCachedToolCallSignatures text cache messages)) := by
  rw [applyGeminiToolCallSignatures, list]
  exact Json.getKey_setKey_self _ _ _

theorem buildRequestBody_messages (list : getKey body "messages" = .arr messages) :
    getKey (buildRequestBody text lower cache body requestExtra thinkingEnabled) "messages" =
      .arr (messages.mapIdx fun place => changeToolCalls (callsChange text cache
        (isGemini3Model text lower (getKey body "model") &&
          decide (currentTurnStart messages ≤ place)))) := by
  rw [buildRequestBody,
    applySignatures_messages ((thinking_other (by decide) (by decide) _).trans list), messages_sent,
    thinking_other (by decide) (by decide)]

end Sent

/-- How the calls of a message are sent, where this was recorded last for this id: `current` says whether
the message is of the current turn of a Gemini 3 conversation. -/
structure CallsSent (text : CliText) (cache : ExtraContents) (toolCallId : String)
    (last : List (String × Json)) (current : Prop) (toolCalls sent : List Json) : Prop where
  /-- A signature that is there stays. -/
  own : ∀ (place : Nat) fields, toolCalls[place]? = some (.obj fields) →
    (toolCallThoughtSignature fields).isSome → sent[place]? = some (.obj fields)
  /-- A call without one has what was recorded for it. -/
  returned : (thoughtSignatureFromExtraContent (.obj last)).isSome →
    ∀ (place : Nat) fields, toolCalls[place]? = some (.obj fields) → toolCallThoughtSignature fields = none →
      getKey fields "id" = .str toolCallId →
      sent[place]? = some (.obj (setKey fields "extra_content" (.obj last)))
  /-- The current turn begins its calls with a signature. -/
  begins : current → ∀ fields, toolCalls[0]? = some (.obj fields) →
    ∃ fields', sent[0]? = some (.obj fields') ∧ (toolCallThoughtSignature fields').isSome
  /-- A call that nothing is put into is sent as it came. -/
  untouched : ∀ (place : Nat) fields, toolCalls[place]? = some (.obj fields) →
    cachedExtraContent text cache fields = none → (current → place ≠ 0) →
    sent[place]? = some (.obj fields)

/-- **The signatures come back.** Whatever calls are recorded, with fewer than 4096 others since the call
of this id was first recorded: in any request, the calls are sent as `CallsSent` says, with what was
recorded last for the id; and apart from what is put into them the messages, and the rest of the body, are
as they were built. -/
theorem signatures_return (text : CliText) (lower : String → String) {before later : ExtraContents}
    {toolCallId : String} {first : List (String × Json)} (fresh : toolCallId ∉ before.map Prod.fst)
    (few : ((later.map Prod.fst).toFinset.erase toolCallId).card < maxToolCallExtraContentCache)
    {body : List (String × Json)} {messages : List Json}
    (list : getKey body "messages" = .arr messages) (requestExtra : Option (List (String × Json)))
    (thinkingEnabled : Bool) :
    ∃ last messages',
      lastContent (before ++ (toolCallId, first) :: later) toolCallId = some last ∧
      getKey (buildRequestBody text lower (recorded (before ++ (toolCallId, first) :: later)) body
        requestExtra thinkingEnabled) "messages" = .arr messages' ∧
      messages'.map bareMessage = messages.map bareMessage ∧
      (∀ (place : Nat) message toolCalls, messages[place]? = some message →
        toolCallsOf message = some toolCalls →
        ∃ message' sent, messages'[place]? = some message' ∧ toolCallsOf message' = some sent ∧
          CallsSent text (recorded (before ++ (toolCallId, first) :: later)) toolCallId last
            (isGemini3Model text lower (getKey body "model") ∧ currentTurnStart messages ≤ place)
            toolCalls sent) ∧
      ∀ key ∉ ["messages", "extra_body", "reasoning_effort"],
        getKey (buildRequestBody text lower (recorded (before ++ (toolCallId, first) :: later)) body
          requestExtra thinkingEnabled) key = getKey body key := by
  obtain ⟨last, isLast, held⟩ := @heldSince_recorded toolCallId first before fresh later few
  have kept := bounded_recorded (before ++ (toolCallId, first) :: later)
  have inTable := Assoc.get?_eq_some_of_mem kept.distinct held.mem
  generalize recorded (before ++ (toolCallId, first) :: later) = cache at inTable ⊢
  refine ⟨last, _, isLast, buildRequestBody_messages list, ?_, ?_,
    fun key apart => buildRequestBody_other apart⟩
  · apply List.ext_getElem?
    intro place
    rw [List.getElem?_map, List.getElem?_mapIdx, Option.map_map, List.getElem?_map]
    congr 1
    funext message
    exact bareMessage_change (bareToolCall_callsChange _) message
  · intro place message toolCalls there calls
    generalize isCurrent : (isGemini3Model text lower (getKey body "model") &&
      decide (currentTurnStart messages ≤ place)) = current
    have meaning : (isGemini3Model text lower (getKey body "model") ∧
        currentTurnStart messages ≤ place) ↔ current = true := by
      rw [← isCurrent, Bool.and_eq_true, decide_eq_true_iff]
    refine ⟨changeToolCalls (callsChange text cache current) message,
      callsChange text cache current toolCalls, ?_, ?_, ?_⟩
    · rw [List.getElem?_mapIdx, there, isCurrent, Option.map_some]
    · rw [toolCallsOf_change, calls, Option.map_some]
    · rw [meaning]
      constructor
      case own =>
        intro place fields there signed
        exact callsChange_of_signed current there (restore_of_signed signed) signed
      case returned =>
        intro signed place fields there unsigned called
        refine callsChange_of_signed current there (restore_of_held unsigned called inTable signed) ?_
        rw [toolCallThoughtSignature, Json.getKey_setKey_self]
        exact signed
      case begins =>
        rintro rfl fields there
        exact callsChange_first there
      case untouched =>
        intro place fields there unknown apart
        exact callsChange_of_unknown there unknown apart

/-- What came with a call for the weather. -/
def weatherContent : List (String × Json) :=
  [("google", .obj [("thought_signature", .str "c2lnbmVk")])]

/-- The call as the client sends it back. -/
def weatherCall : List (String × Json) := [("id", .str "call_1"), ("type", .str "function")]

/-- The client's conversation. -/
def weatherMessages : List Json :=
  [.obj [("role", .str "user"), ("content", .str "How is the weather?")],
    .obj [("role", .str "assistant"), ("tool_calls", .arr [.obj weatherCall])]]

theorem weatherSignature_returns :
    ∃ messages' message' sent,
      getKey (buildRequestBody ⟨fun _ => "", fun _ => false⟩ String.toLower
        (recorded [("call_1", []), ("call_2", []), ("call_1", weatherContent)])
        [("messages", .arr weatherMessages)] none true) "messages" = .arr messages' ∧
      messages'[1]? = some message' ∧ toolCallsOf message' = some sent ∧
      sent[0]? = some (.obj (setKey weatherCall "extra_content" (.obj weatherContent))) := by
  obtain ⟨last, messages', isLast, same, -, calls, -⟩ :=
    @signatures_return _ String.toLower [] [("call_2", []), ("call_1", weatherContent)] "call_1" []
      (by decide) (by decide) [("messages", .arr weatherMessages)] weatherMessages rfl none true
  obtain rfl : weatherContent = last := Option.some.inj isLast
  obtain ⟨message', sent, there, isSent, kept⟩ := calls 1 _ [.obj weatherCall] rfl rfl
  exact ⟨messages', message', sent, same, there, isSent,
    kept.returned (by decide) 0 weatherCall rfl (by decide) rfl⟩

end Gemini

end ClaudeProxy
