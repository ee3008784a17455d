/-
**Tool calls and their results stay together.**

* `AnsweredBy` — a user message that begins with one `tool_result` for every call of a turn, in any
  order, and goes on with text; `WellFormed` — a history that answers every turn so.
* `Adjacent` — the chat messages of a history, message by message: after the message with a turn's
  calls come the results, then the turn's deferred content, then the user's text; each of them says what
  its blocks say.
* `foldlM_results`, `foldlM_injected_results` — the results of a well-formed answer, without and
  with pending content.
* **`tool_calls_are_adjacent`** — a well-formed history is refused, or converted adjacently.
-/

import ClaudeProxy.Conversion.Lossless

namespace ClaudeProxy

section Adjacency

variable {β : Type} (view : β → Block) (printing : Printing)

/-! ### Well-formed histories -/

/-- The `tool_use` blocks of a message. -/
def Message.calls (message : Message β) : List β :=
  message.blocks.filter fun block => (view block).isToolUse

/-- An assistant message with a `tool_use` block. -/
def Message.CallsTools (message : Message β) : Prop :=
  message.role = .assistant ∧ message.calls view ≠ []

/-- `block.type == "text"`. -/
def Block.isText : Block → Bool
  | .text _ => true
  | _ => false

/-- The turn's ids are distinct and not blank, and the message begins with one result for each of
them, in any order, and goes on with text. -/
structure AnsweredBy (turn user : Message β) : Prop where
  distinct : ((turn.calls view).map (callId view)).Nodup
  notBlank : ∀ block ∈ turn.calls view, ∃ id, callId view block = some id ∧ Py.strip id ≠ ""
  fromUser : user.role = .user
  answers : ∃ results texts, user.content = .blocks (results ++ texts) ∧
    (∀ block ∈ results, (view block).isToolResult = true) ∧
    (results.map (resultId view)).Perm ((turn.calls view).map (callId view)) ∧
    ∀ block ∈ texts, (view block).isText = true

/-- Every assistant message with tool calls is answered by the message after it. -/
def WellFormed : List (Message β) → Prop
  | [] => True
  | message :: rest =>
    (message.CallsTools view → ∃ user after, rest = user :: after ∧ AnsweredBy view message user) ∧
      WellFormed rest

/-! ### Adjacent chat messages -/

/-- The `role: tool` message of a `tool_result` block. -/
def IsAnswer (message : ChatMessage β) (block : β) : Prop :=
  message.role = .tool ∧ message.toolCalls = [] ∧ message.carried = [block] ∧
    message.toolCallId = resultId view block ∧ message.Faithful view printing

/-- One assistant message that holds the deferred blocks, in their own words, if there are any. -/
def HoldsDeferred (replay : ReasoningReplayMode) (turn : Message β)
    (deferred : List (ChatMessage β)) : Prop :=
  if postToolBlocks view turn.blocks = [] then deferred = []
  else
    ∃ message, deferred = [message] ∧ message.role = .assistant ∧ message.toolCalls = [] ∧
      message.Faithful view printing ∧
      message.content.sources =
        (postToolBlocks view turn.blocks).filter (fun block => (view block).inContent replay) ∧
      message.reasoningContent.sources =
        (postToolBlocks view turn.blocks).filter fun block =>
          (view block).inReasoning (cleanReasoningContent turn.reasoningContent) replay

/-- The chat messages of a history, in which every message with tool calls is directly followed by
one `role: tool` message for each of them and then by the turn's deferred content. -/
inductive Adjacent (replay : ReasoningReplayMode) :
    List (Message β) → List (ChatMessage β) → Prop
  | nil : Adjacent replay [] []
  | other {message : Message β} {rest : List (Message β)} {segment output : List (ChatMessage β)} :
    ¬ message.CallsTools view → (∀ chat ∈ segment, chat.toolCalls = []) →
      Adjacent replay rest output → Adjacent replay (message :: rest) (segment ++ output)
  | turn {turn user : Message β} {rest : List (Message β)} {call : ChatMessage β}
    {answers deferred texts output : List (ChatMessage β)} {results : List β} :
    turn.CallsTools view → call.role = .assistant → call.Faithful view printing →
      call.toolCalls.map ToolCall.source = turn.calls view →
      call.toolCalls.map ToolCall.id = (turn.calls view).map (callId view) →
      List.Forall₂ (IsAnswer view printing) answers results →
      (answers.map ChatMessage.toolCallId).Perm (call.toolCalls.map ToolCall.id) →
      HoldsDeferred view printing replay turn deferred →
      (∀ chat ∈ texts, chat.role = .user ∧ chat.toolCalls = []) →
      Adjacent replay rest output →
      Adjacent replay (turn :: user :: rest)
        (call :: (answers ++ (deferred ++ (texts ++ output))))

/-! ### The results of an answer -/

theorem toolCallIds_of_answers {answers : List (ChatMessage β)} {results : List β}
    (answered : List.Forall₂ (IsAnswer view printing) answers results) :
    answers.map ChatMessage.toolCallId = results.map (resultId view) := by
  induction answered with
  | nil => rfl
  | cons here _ ih => rw [List.map_cons, List.map_cons, here.2.2.2.1, ih]

theorem isAnswer_toolMessage {block : β} {toolUseId : Option String} {content : Json}
    (read : view block = .toolResult toolUseId content) :
    IsAnswer view printing (toolMessage printing block toolUseId content) block := by
  refine ⟨rfl, rfl, rfl, ?_, (toolMessage_ofBlocks view printing read).faithful⟩
  rw [resultId, read]
  rfl

/-- Results, with nothing pending: one `role: tool` message each. -/
theorem foldlM_results {results : List β}
    (all : ∀ block ∈ results, (view block).isToolResult = true)
    (before : List (ChatMessage β)) :
    ∃ answers, List.Forall₂ (IsAnswer view printing) answers results ∧
      results.foldlM (UserParts.add view printing) ⟨before, []⟩ = .ok ⟨before ++ answers, []⟩ := by
  induction results generalizing before with
  | nil => exact ⟨[], .nil, by rw [List.append_nil]; rfl⟩
  | cons block rest ih =>
    cases read : view block with
    | toolResult toolUseId content =>
      obtain ⟨answers, answered, ran⟩ := ih
        (fun other member => all other (List.mem_cons_of_mem _ member))
        (before ++ [toolMessage printing block toolUseId content])
      refine ⟨_, .cons (isAnswer_toolMessage view printing read) answered, ?_⟩
      have added : UserParts.add view printing ⟨before, []⟩ block =
          .ok ⟨before ++ [toolMessage printing block toolUseId content], []⟩ := by
        rw [UserParts.add, read]
        simp [UserParts.flushed, flushText]
      rw [List.foldlM_cons, added]
      refine Eq.trans ran ?_
      rw [List.append_assoc, List.singleton_append]
    | _ =>
      have isResult := all block List.mem_cons_self
      rw [read] at isResult
      exact absurd isResult (by simp [Block.isToolResult])

/-- Texts are collected until they are flushed. -/
theorem foldlM_texts {texts : List β} (all : ∀ block ∈ texts, (view block).isText = true)
    (parts : UserParts β) :
    ∃ more, texts.foldlM (UserParts.add view printing) parts =
      .ok { parts with textParts := parts.textParts ++ more } := by
  induction texts generalizing parts with
  | nil => exact ⟨[], by rw [List.append_nil]; rfl⟩
  | cons block rest ih =>
    cases read : view block with
    | text text =>
      obtain ⟨more, ran⟩ := ih (fun other member => all other (List.mem_cons_of_mem _ member))
        { parts with textParts := parts.textParts ++ [⟨text, some block⟩] }
      refine ⟨⟨text, some block⟩ :: more, ?_⟩
      have added : parts.add view printing block =
          .ok { parts with textParts := parts.textParts ++ [⟨text, some block⟩] } := by
        rw [UserParts.add, read]
      rw [List.foldlM_cons, added]
      refine Eq.trans ran ?_
      rw [List.append_assoc, List.singleton_append]
    | _ =>
      have isText := all block List.mem_cons_self
      rw [read] at isText
      exact absurd isText (by simp [Block.isText])

theorem flushText_user (textParts : List (Part β)) :
    ∀ chat ∈ flushText textParts, chat.role = .user ∧ chat.toolCalls = [] := by
  intro chat member
  rw [flushText] at member
  split_ifs at member
  · exact absurd member List.not_mem_nil
  · rw [List.mem_singleton.mp member]
    exact ⟨rfl, rfl⟩

/-- Texts leave pending content alone. -/
theorem foldlM_injected_texts {texts : List β}
    (all : ∀ block ∈ texts, (view block).isText = true) (state : Injection β) :
    texts.foldlM (Injection.add view printing) state =
      (do
        let parts ← texts.foldlM (UserParts.add view printing) state.parts
        .ok { state with parts := parts }) := by
  induction texts generalizing state with
  | nil => rfl
  | cons block rest ih =>
    have isText := all block List.mem_cons_self
    have added : state.add view printing block =
        (do
          let parts ← state.parts.add view printing block
          .ok { state with parts := parts }) := by
      cases read : view block with
      | toolResult _ _ =>
        rw [read] at isText
        exact absurd isText (by simp [Block.isText])
      | _ =>
        rw [Injection.add, read]
    rw [List.foldlM_cons, List.foldlM_cons, added]
    cases state.parts.add view printing block with
    | error raised => rfl
    | ok parts => exact ih (fun other member => all other (List.mem_cons_of_mem _ member)) _

/-- **Results with content pending**: one `role: tool` message each, and the pending content after
the last of them. -/
theorem foldlM_injected_results {results : List β}
    (all : ∀ block ∈ results, (view block).isToolResult = true) (pending : PendingAfterTools β)
    (distinct : pending.remainingToolIds.Nodup)
    (perm : (results.map (resultId view)).Perm (pending.remainingToolIds.map some))
    (waiting : pending.remainingToolIds ≠ []) {deferred : List (ChatMessage β)}
    (emits : ∀ ids emitted, deferredPostToolToMessages view printing
      { pending with remainingToolIds := ids, deferredEmitted := emitted } = .ok deferred)
    (before : List (ChatMessage β)) :
    ∃ answers last, List.Forall₂ (IsAnswer view printing) answers results ∧
      results.foldlM (Injection.add view printing) ⟨⟨before, []⟩, pending, false⟩ =
        .ok ⟨⟨before ++ (answers ++ deferred), []⟩, last, true⟩ := by
  induction results generalizing pending before with
  | nil =>
    have empty := List.nil_perm.mp perm
    exact absurd (List.map_eq_nil_iff.mp empty) waiting
  | cons block rest ih =>
    have allRest : ∀ other ∈ rest, (view other).isToolResult = true :=
      fun other member => all other (List.mem_cons_of_mem _ member)
    cases read : view block with
    | toolResult toolUseId content =>
      have here : resultId view block = toolUseId := by rw [resultId, read]
      rw [List.map_cons, here] at perm
      have inside : toolUseId ∈ pending.remainingToolIds.map some :=
        perm.subset List.mem_cons_self
      obtain ⟨id, member, rfl⟩ := List.mem_map.mp inside
      have left : (rest.map (resultId view)).Perm
          ((pending.discard id).remainingToolIds.map some) := by
        have erased := (List.perm_cons_erase member).map some
        have kept : (pending.discard id).remainingToolIds = pending.remainingToolIds.erase id := by
          rw [distinct.erase_eq_filter, PendingAfterTools.discard]
          refine List.filter_congr fun other _ => ?_
          by_cases same : other = id <;> simp [same]
        rw [kept]
        exact (perm.trans erased).cons_inv
      have answer := isAnswer_toolMessage view printing read
      have step : Injection.add view printing ⟨⟨before, []⟩, pending, false⟩ block =
          if (pending.discard id).remainingToolIds.isEmpty then do
            let deferred ← deferredPostToolToMessages view printing (pending.discard id)
            .ok ⟨⟨before ++ [toolMessage printing block (some id) content] ++ deferred, []⟩,
              { pending.discard id with deferredEmitted := true }, true⟩
          else .ok ⟨⟨before ++ [toolMessage printing block (some id) content], []⟩,
            pending.discard id, false⟩ := by
        rw [Injection.add, read]
        simp [UserParts.flushed, flushText]
      by_cases done : (pending.discard id).remainingToolIds = []
      · rw [done] at left
        have noMore : rest = [] := List.map_eq_nil_iff.mp (List.perm_nil.mp left)
        subst noMore
        refine ⟨_, { pending.discard id with deferredEmitted := true }, .cons answer .nil, ?_⟩
        rw [List.foldlM_cons, step, if_pos (by rw [done]; rfl),
          show deferredPostToolToMessages view printing (pending.discard id) = .ok deferred from
            emits _ pending.deferredEmitted]
        simp
        rfl
      · obtain ⟨answers, last, answered, ran⟩ := ih allRest (pending.discard id)
          (distinct.filter _) left done (fun ids emitted => emits ids emitted)
          (before ++ [toolMessage printing block (some id) content])
        refine ⟨_, last, .cons answer answered, ?_⟩
        rw [List.foldlM_cons, step, if_neg (by simpa using done)]
        refine Eq.trans ran ?_
        simp
    | _ =>
      have isResult := all block List.mem_cons_self
      rw [read] at isResult
      exact absurd isResult (by simp [Block.isToolResult])

/-! ### Messages without tool calls -/

theorem UserParts.add_noCalls {parts next : UserParts β} {block : β}
    (added : parts.add view printing block = .ok next)
    (noCalls : ∀ chat ∈ parts.flushed, chat.toolCalls = []) :
    ∀ chat ∈ next.flushed, chat.toolCalls = [] := by
  have flushes (result : List (ChatMessage β)) (textParts : List (Part β))
      (clean : ∀ chat ∈ result, chat.toolCalls = []) :
      ∀ chat ∈ result ++ flushText textParts, chat.toolCalls = [] := by
    intro chat member
    rcases List.mem_append.mp member with member | member
    · exact clean chat member
    · exact (flushText_user textParts chat member).2
  have clean : ∀ chat ∈ parts.result, chat.toolCalls = [] :=
    fun chat member => noCalls chat (List.mem_append_left _ member)
  rw [UserParts.add] at added
  split at added
  · obtain rfl := Except.ok.inj added
    exact flushes _ _ clean
  · cases added
  · obtain rfl := Except.ok.inj added
    refine flushes _ _ fun chat member => ?_
    rcases List.mem_append.mp member with member | member
    · exact noCalls chat member
    · rw [List.mem_singleton.mp member]
      rfl
  · obtain rfl := Except.ok.inj added
    exact noCalls

/-- A user message brings no tool calls. -/
theorem convertUserMessage_noCalls {content : List β} {messages : List (ChatMessage β)}
    (converted : convertUserMessage view printing content = .ok messages) :
    ∀ chat ∈ messages, chat.toolCalls = [] := by
  have folded (parts last : UserParts β)
      (ran : content.foldlM (UserParts.add view printing) parts = .ok last)
      (noCalls : ∀ chat ∈ parts.flushed, chat.toolCalls = []) :
      ∀ chat ∈ last.flushed, chat.toolCalls = [] := by
    clear converted
    induction content generalizing parts with
    | nil =>
      obtain rfl := Except.ok.inj ran
      exact noCalls
    | cons block rest ih =>
      obtain ⟨middle, added, ran⟩ := except_bind_eq_ok ran
      exact ih middle ran (UserParts.add_noCalls view printing added noCalls)
  obtain ⟨parts, ran, flushed⟩ := except_bind_eq_ok converted
  obtain rfl := Except.ok.inj flushed
  exact folded _ _ ran fun chat member => absurd member List.not_mem_nil

/-- A message that calls no tools, with nothing pending, brings no tool calls and leaves nothing
pending. -/
theorem Conversion.add_other (replay : ReasoningReplayMode) {message : Message β}
    (noCalls : ¬ message.CallsTools view) (accepted : ¬ message.Refused view)
    (before : List (ChatMessage β)) :
    ∃ segment, Conversion.add view printing replay ⟨before, none⟩ message =
        .ok ⟨before ++ segment, none⟩ ∧ ∀ chat ∈ segment, chat.toolCalls = [] := by
  obtain ⟨role, content, thought⟩ := message
  cases content with
  | plain text =>
    refine ⟨[convertPlainMessage role text (cleanReasoningContent thought) replay], ?_, ?_⟩
    · cases role <;> rfl
    · intro chat member
      rw [List.mem_singleton.mp member]
      unfold convertPlainMessage
      cases role <;> cases cleanReasoningContent thought <;> cases replay <;> rfl
  | blocks content =>
    cases role with
    | user =>
      have noImage : ∀ block ∈ content, view block ≠ .image := fun block member image =>
        accepted ⟨block, member, by rw [image]; rfl⟩
      obtain ⟨messages, converted, -⟩ := convertUserMessage_eq view printing content noImage
      refine ⟨messages, ?_, convertUserMessage_noCalls view printing converted⟩
      show (convertUserMessage view printing content >>= _) = _
      rw [converted]
      rfl
    | assistant =>
      have allowed : ∀ block ∈ content, (view block).allowedInAssistant = true := by
        intro block member
        by_contra forbidden
        exact accepted ⟨block, member, by simpa [Block.refusedIn] using forbidden⟩
      have noTools : content.filter (fun block => (view block).isToolUse) = [] := by
        by_contra some_
        exact noCalls ⟨rfl, some_⟩
      have noIndex : indexFirstToolUse view content = none := by
        rw [indexFirstToolUse_eq_none, fromTools_eq_nil_iff]
        intro block member
        simpa using List.filter_eq_nil_iff.mp noTools block member
      have passes : ∀ block ∈ content, assertNoForbiddenAssistantBlock (view block) = .ok () :=
        fun block member => (assertNoForbiddenAssistantBlock_iff _).mpr (allowed block member)
      refine ⟨[assistantMessage view printing (cleanReasoningContent thought) replay content],
        ?_, ?_⟩
      · show Conversion.addAssistantBlocks view printing replay (cleanReasoningContent thought)
          ⟨before, none⟩ content = _
        rw [Conversion.addAssistantBlocks, noIndex]
        show ((content.forM fun block =>
          assertNoForbiddenAssistantBlock (view block) : Except PyError PUnit) >>= _) = _
        rw [forM_eq_ok passes]
        show (convertAssistantMessage view printing _ replay content >>= _) = _
        rw [convertAssistantMessage_eq view printing _ _ _ allowed]
        rfl
      · intro chat member
        rw [List.mem_singleton.mp member]
        have sources := sources_iterToolUses view printing content
        rw [noTools] at sources
        exact List.map_eq_nil_iff.mp sources

/-! ### A turn and its answer -/

/-- A turn, with nothing pending: one message with its calls, and its deferred content pending. -/
theorem Conversion.add_turn (replay : ReasoningReplayMode) {turn : Message β}
    (calls : turn.CallsTools view) (accepted : ¬ turn.Refused view)
    (before : List (ChatMessage β)) :
    ∃ call, Conversion.add view printing replay ⟨before, none⟩ turn =
        .ok ⟨before ++ [call], pendingAfter view printing
          (cleanReasoningContent turn.reasoningContent) replay turn.blocks⟩ ∧
      call.role = .assistant ∧ call.Faithful view printing ∧
      call.toolCalls.map ToolCall.source = turn.calls view ∧
      call.toolCalls.map ToolCall.id = (turn.calls view).map (callId view) := by
  obtain ⟨role, content, thought⟩ := turn
  obtain ⟨assistant, someCall⟩ := calls
  cases assistant
  cases content with
  | plain text => exact absurd rfl someCall
  | blocks content =>
    have allowed : ∀ block ∈ content, (view block).allowedInAssistant = true := by
      intro block member
      by_contra forbidden
      exact accepted ⟨block, member, by simpa [Block.refusedIn] using forbidden⟩
    have passed : (content.forM fun block =>
          if (view block).isToolUse then .ok ()
          else assertNoForbiddenAssistantBlock (view block)) = Except.ok () := by
      refine forM_eq_ok fun block member => ?_
      rw [(assertNoForbiddenAssistantBlock_iff _).mpr (allowed block member), ite_self]
    cases first : indexFirstToolUse view content with
    | none =>
      rw [indexFirstToolUse_eq_none, fromTools_eq_nil_iff] at first
      refine absurd (List.filter_eq_nil_iff.mpr fun block member => ?_) someCall
      rw [first block member]
      decide
    | some firstToolIndex =>
      obtain ⟨call, converted, role, toolCalls, -⟩ := convertAssistantMessageWithSplit_eq view
        printing (cleanReasoningContent thought) replay content firstToolIndex first allowed
      have ofBlocks := convertAssistantMessageWithSplit_ofBlocks view printing
        (cleanReasoningContent thought) replay content firstToolIndex _ converted
      have sources : call.toolCalls.map ToolCall.source =
          (⟨.assistant, .blocks content, thought⟩ : Message β).calls view := by
        rw [toolCalls, sources_iterToolUses]
        rfl
      refine ⟨call, ?_, role, ofBlocks.faithful, sources, ?_⟩
      · show Conversion.addAssistantBlocks view printing replay (cleanReasoningContent thought)
          ⟨before, none⟩ content = _
        rw [Conversion.addAssistantBlocks, first]
        show ((content.forM fun block =>
          if (view block).isToolUse then .ok ()
          else assertNoForbiddenAssistantBlock (view block) : Except PyError PUnit) >>= _) = _
        rw [passed]
        show (convertAssistantMessageWithSplit view printing _ replay content firstToolIndex
          >>= _) = _
        rw [converted]
        show Except.ok _ = _
        rw [Option.or_none]
        rfl
      · rw [← sources, List.map_map]
        refine List.map_congr_left fun entry member => ?_
        obtain ⟨input, extraContent, read, -⟩ := ofBlocks.faithful.toolCalls entry member
        show entry.id = callId view entry.source
        rw [callId, read]

/-- The ids a well-formed answer is awaited for are the ids of the turn's calls. -/
theorem toolUseIds_of_answered {turn user : Message β} (answered : AnsweredBy view turn user) :
    (toolUseIds view turn.blocks).map some = (turn.calls view).map (callId view) := by
  have ids : toolUseIds view turn.blocks = (turn.calls view).filterMap (callId view) := by
    have given : turn.blocks.filterMap (callId view) =
        (turn.calls view).filterMap (callId view) := by
      rw [Message.calls, List.filterMap_filter]
      congr 1
      funext block
      cases read : view block <;> simp [callId, read, Block.isToolUse]
    rw [toolUseIds, given, List.filter_eq_self]
    intro id member
    obtain ⟨block, inside, same⟩ := List.mem_filterMap.mp member
    obtain ⟨other, found, notBlank⟩ := answered.notBlank block inside
    rw [found] at same
    obtain rfl := Option.some.inj same
    exact decide_eq_true notBlank
  have blanks := answered.notBlank
  rw [ids]
  clear ids
  generalize turn.calls view = calls at blanks ⊢
  induction calls with
  | nil => rfl
  | cons block rest ih =>
    obtain ⟨id, found, -⟩ := blanks block List.mem_cons_self
    rw [List.filterMap_cons_some found, List.map_cons, List.map_cons, found,
      ih fun other member => blanks other (List.mem_cons_of_mem _ member)]

/-- **A turn and the user message that answers it.** -/
theorem Conversion.add_answer (replay : ReasoningReplayMode) {turn user : Message β}
    (calls : turn.CallsTools view) (accepted : ¬ turn.Refused view)
    (answered : AnsweredBy view turn user) (before : List (ChatMessage β)) :
    ∃ answers deferred texts results,
      Conversion.add view printing replay ⟨before, pendingAfter view printing
          (cleanReasoningContent turn.reasoningContent) replay turn.blocks⟩ user =
        .ok ⟨before ++ (answers ++ (deferred ++ texts)), none⟩ ∧
      List.Forall₂ (IsAnswer view printing) answers results ∧
      (answers.map ChatMessage.toolCallId).Perm ((turn.calls view).map (callId view)) ∧
      HoldsDeferred view printing replay turn deferred ∧
      ∀ chat ∈ texts, chat.role = .user ∧ chat.toolCalls = [] := by
  obtain ⟨results, texts, content, areResults, perm, areTexts⟩ := answered.answers
  have ids := toolUseIds_of_answered view answered
  obtain ⟨role, _, thought⟩ := user
  obtain rfl := content
  obtain rfl : role = .user := answered.fromUser
  by_cases nothing : postToolBlocks view turn.blocks = []
  · obtain ⟨answers, areAnswers, ranResults⟩ := foldlM_results view printing areResults []
    obtain ⟨more, ranTexts⟩ := foldlM_texts view printing areTexts ⟨[] ++ answers, []⟩
    refine ⟨answers, [], flushText more, results, ?_, areAnswers, ?_, ?_, flushText_user more⟩
    · have noPending : pendingAfter view printing (cleanReasoningContent turn.reasoningContent)
          replay turn.blocks = none := by
        rw [pendingAfter, nothing]
        rfl
      have converted : convertUserMessage view printing (results ++ texts) =
          .ok (answers ++ flushText more) := by
        rw [convertUserMessage, List.foldlM_append, ranResults]
        show (texts.foldlM _ _ >>= _) = _
        rw [ranTexts]
        rfl
      rw [noPending]
      show (convertUserMessage view printing (results ++ texts) >>= _) = _
      rw [converted]
      rfl
    · rw [toolCallIds_of_answers view printing areAnswers]
      exact perm
    · rw [HoldsDeferred, if_pos nothing]
  · have allowed : ∀ block ∈ postToolBlocks view turn.blocks,
        (view block).allowedInAssistant = true := by
      intro block member
      by_contra forbidden
      have inside : block ∈ turn.blocks :=
        (List.dropWhile_suffix _).subset (List.mem_of_mem_filter member)
      exact accepted ⟨block, inside, by simpa [Block.refusedIn, calls.1] using forbidden⟩
    have pends : pendingAfter view printing (cleanReasoningContent turn.reasoningContent) replay
        turn.blocks = some
          { remainingToolIds := toolUseIds view turn.blocks
            deferredBlocks := postToolBlocks view turn.blocks
            topLevelReasoning := cleanReasoningContent turn.reasoningContent
            reasoningReplay := replay
            deferredEmitted := false } := by
      rw [pendingAfter, if_neg (by simpa using nothing), awaitedIds_eq]
    have waiting : toolUseIds view turn.blocks ≠ [] := by
      intro noIds
      rw [noIds] at ids
      exact calls.2 (List.map_eq_nil_iff.mp ids.symm)
    have distinct : (toolUseIds view turn.blocks).Nodup := by
      have mapped := answered.distinct
      rw [← ids] at mapped
      exact mapped.of_map _
    have emits (ids : List String) (emitted : Bool) : deferredPostToolToMessages view printing
          { remainingToolIds := ids
            deferredBlocks := postToolBlocks view turn.blocks
            topLevelReasoning := cleanReasoningContent turn.reasoningContent
            reasoningReplay := replay
            deferredEmitted := emitted } =
        .ok [assistantMessage view printing (cleanReasoningContent turn.reasoningContent) replay
          (postToolBlocks view turn.blocks)] := by
      rw [deferredPostToolToMessages, if_neg (by simpa using nothing),
        convertAssistantMessage_eq view printing _ _ _ allowed]
      rfl
    obtain ⟨answers, last, areAnswers, ranResults⟩ := foldlM_injected_results view printing
      areResults
      { remainingToolIds := toolUseIds view turn.blocks
        deferredBlocks := postToolBlocks view turn.blocks
        topLevelReasoning := cleanReasoningContent turn.reasoningContent
        reasoningReplay := replay
        deferredEmitted := false }
      distinct (by rw [ids]; exact perm) waiting emits []
    obtain ⟨more, ranTexts⟩ := foldlM_texts view printing areTexts
      ⟨[] ++ (answers ++ [assistantMessage view printing
        (cleanReasoningContent turn.reasoningContent) replay (postToolBlocks view turn.blocks)]),
        []⟩
    refine ⟨answers, [assistantMessage view printing
      (cleanReasoningContent turn.reasoningContent) replay (postToolBlocks view turn.blocks)],
      flushText more, results, ?_, areAnswers, ?_, ?_, flushText_user more⟩
    · rw [pends]
      unfold Conversion.add Conversion.addUserBlocks
      dsimp only
      rw [PendingAfterTools.needsDeferred_eq_true nothing rfl, if_neg (by decide),
        if_neg (by simpa using waiting)]
      unfold convertUserMessageWithInjection
      rw [PendingAfterTools.needsDeferred_eq_true nothing rfl,
        if_neg (by simpa using waiting), List.foldlM_append, ranResults]
      show ((texts.foldlM (Injection.add view printing) _ >>= _) >>= _) = _
      rw [foldlM_injected_texts view printing areTexts, ranTexts]
      show Except.ok _ = Except.ok _
      simp [UserParts.flushed]
    · rw [toolCallIds_of_answers view printing areAnswers]
      exact perm
    · rw [HoldsDeferred, if_neg nothing]
      have noCalls : ((postToolBlocks view turn.blocks).filter fun block =>
          (view block).isToolUse) = [] := by
        refine List.filter_eq_nil_iff.mpr fun block member => ?_
        simpa using (List.mem_filter.mp member).2
      have sources := sources_iterToolUses view printing (postToolBlocks view turn.blocks)
      rw [noCalls] at sources
      have ofBlocks := convertAssistantMessage_ofBlocks view printing _ replay _ _
        (convertAssistantMessage_eq view printing
          (cleanReasoningContent turn.reasoningContent) replay _ allowed)
      exact ⟨_, rfl, rfl, List.map_eq_nil_iff.mp sources, ofBlocks.faithful,
        sources_contentParts view replay _, sources_reasoning view printing _ replay _⟩

/-! ### The history -/

/-- **The run lemma**: with nothing pending, a well-formed history is converted adjacently and leaves
nothing pending. -/
theorem foldlM_adjacent (replay : ReasoningReplayMode) :
    ∀ (history : List (Message β)), WellFormed view history →
      (∀ message ∈ history, ¬ message.Refused view) → ∀ before : List (ChatMessage β),
      ∃ output, history.foldlM (Conversion.add view printing replay) ⟨before, none⟩ =
          .ok ⟨before ++ output, none⟩ ∧ Adjacent view printing replay history output
  | [], _, _, before => ⟨[], by rw [List.append_nil]; rfl, .nil⟩
  | message :: rest, wellFormed, accepted, before => by
    have acceptedRest : ∀ other ∈ rest, ¬ other.Refused view :=
      fun other member => accepted other (List.mem_cons_of_mem _ member)
    have here := accepted message List.mem_cons_self
    by_cases calls : message.CallsTools view
    · obtain ⟨user, after, rfl, answered⟩ := wellFormed.1 calls
      obtain ⟨call, added, role, faithful, toolCalls, ids⟩ :=
        Conversion.add_turn view printing replay calls here before
      obtain ⟨answers, deferred, texts, results, replied, areAnswers, perm, holds, areTexts⟩ :=
        Conversion.add_answer view printing replay calls here answered (before ++ [call])
      obtain ⟨output, ran, adjacent⟩ := foldlM_adjacent replay after wellFormed.2.2
        (fun other member => acceptedRest other (List.mem_cons_of_mem _ member))
        (before ++ [call] ++ (answers ++ (deferred ++ texts)))
      refine ⟨_, ?_, .turn calls role faithful toolCalls ids areAnswers (ids ▸ perm) holds areTexts
        adjacent⟩
      rw [List.foldlM_cons, added]
      show (Conversion.add view printing replay _ user >>= _) = _
      rw [replied]
      refine Eq.trans ran ?_
      simp
    · obtain ⟨segment, added, noCalls⟩ :=
        Conversion.add_other view printing replay calls here before
      obtain ⟨output, ran, adjacent⟩ := foldlM_adjacent replay rest wellFormed.2 acceptedRest
        (before ++ segment)
      refine ⟨segment ++ output, ?_, .other calls noCalls adjacent⟩
      rw [List.foldlM_cons, added]
      refine Eq.trans ran ?_
      rw [List.append_assoc]

/-- **Tool calls are adjacent to their results.** A well-formed history with a refused block is
refused; any other is converted so that every message with tool calls is directly followed by one
`role: tool` message for each of them, in the order of the results, and then by one assistant message
with the turn's deferred blocks, if it has any; each of these says what its blocks say. -/
theorem tool_calls_are_adjacent (replay : ReasoningReplayMode) (history : List (Message β))
    (wellFormed : WellFormed view history) :
    ((∃ message ∈ history, message.Refused view) ∧
        ∃ text, convertMessages view printing replay history =
          .error (.openAIConversionError text)) ∨
      ∃ output, convertMessages view printing replay history = .ok output ∧
        Adjacent view printing replay history output := by
  by_cases refuses : ∃ message ∈ history, message.Refused view
  · obtain ⟨message, member, refused⟩ := refuses
    exact Or.inl ⟨⟨message, member, refused⟩,
      convertMessages_refused view printing replay member refused⟩
  · obtain ⟨output, ran, adjacent⟩ := foldlM_adjacent view printing replay history wellFormed
      (fun message member refused => refuses ⟨message, member, refused⟩) []
    refine Or.inr ⟨output, ?_, adjacent⟩
    rw [convertMessages, ran]
    rfl

end Adjacency

/-- Two calls with text after them, answered in the other order, with a remark. -/
def answeredInReverse : List (Message Block) :=
  [{ role := .assistant
     content := .blocks [.toolUse (some "toolu_1") "ls" (.obj []) .null,
       .toolUse (some "toolu_2") "pwd" (.obj []) .null, .text "Both asked."]
     reasoningContent := none },
   { role := .user
     content := .blocks [.toolResult (some "toolu_2") (.str "/"),
       .toolResult (some "toolu_1") (.str "a"), .text "Go on."]
     reasoningContent := none }]

theorem answeredInReverse_wellFormed : WellFormed id answeredInReverse := by
  refine ⟨fun _ => ⟨_, _, rfl, ⟨by decide, by decide, rfl, ?_⟩⟩, fun calls => ?_, trivial⟩
  · exact ⟨[.toolResult (some "toolu_2") (.str "/"), .toolResult (some "toolu_1") (.str "a")],
      [.text "Go on."], rfl, by decide, by decide, by decide⟩
  · exact absurd calls.1 (by decide)

/-- The results stay behind the calls, and the text comes after them. -/
theorem answeredInReverse_adjacent :
    ((∃ message ∈ answeredInReverse, message.Refused id) ∧
        ∃ text, convertMessages id emptyObject .thinkTags answeredInReverse =
          .error (.openAIConversionError text)) ∨
      ∃ output, convertMessages id emptyObject .thinkTags answeredInReverse = .ok output ∧
        Adjacent id emptyObject .thinkTags answeredInReverse output :=
  tool_calls_are_adjacent id emptyObject .thinkTags answeredInReverse answeredInReverse_wellFormed

end ClaudeProxy
