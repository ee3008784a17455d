/-
**A text as a string, or as one text block.**

* `SentMessage`, `sentMessages` — the chat messages as they are sent: joined texts, and calls without
  the blocks they were read from.
* `Defers` — the deferred blocks of an earlier turn still wait behind the messages after it;
  `foldl_nextPending_iff` — that is what the loop has pending.
* `convertFrom` — the rest of a history, converted from some pending content.
* `Echoed` — all that is sent until pending content is emitted repeats it.
* **`string_form_iff`** — both forms of a message give the same chat messages exactly when a block is
  refused elsewhere, or nothing that one form leaves pending and the other emits, and no reasoning that
  only one of them replays, can be told from the output.
-/

import ClaudeProxy.Conversion.Adjacency

namespace ClaudeProxy

/-! ### What is sent -/

/-- An entry of `tool_calls` as it is sent. -/
structure SentCall where
  id : Option String
  name : String
  arguments : String
  extraContent : Option (List (String × Json))

/-- A chat message as it is sent; an empty `reasoningContent` is a message without that key. -/
structure SentMessage where
  role : ChatRole
  content : String
  toolCalls : List SentCall
  toolCallId : Option String
  reasoningContent : String

section Forms

variable {β : Type} (view : β → Block) (printing : Printing)

def ToolCall.sent (call : ToolCall β) : SentCall :=
  ⟨call.id, call.name, call.arguments, call.extraContent⟩

def ChatMessage.sent (message : ChatMessage β) : SentMessage :=
  { role := message.role
    content := message.content.render
    toolCalls := message.toolCalls.map ToolCall.sent
    toolCallId := message.toolCallId
    reasoningContent := message.reasoningContent.render }

/-- What `convert_messages` returns, as it is sent. -/
def sentMessages (replay : ReasoningReplayMode) (messages : List (Message β)) :
    Except PyError (List SentMessage) := do
  let output ← convertMessages view printing replay messages
  .ok (output.map ChatMessage.sent)

/-! ### What is asked of the history -/

/-- The ids of a turn's calls that the messages `between` leave unanswered. -/
def awaited (turn : Message β) (between : List (Message β)) : List String :=
  unanswered view (toolUseIds view turn.blocks) (between.flatMap Message.blocks)

/-- **The deferred blocks of `turn` still wait** behind the messages `between`: none of them emits them,
and none of its tool results is the last one awaited. -/
structure Defers (turn : Message β) (between : List (Message β)) : Prop where
  assistant : turn.role = .assistant
  deferred : postToolBlocks view turn.blocks ≠ []
  leaves : ∀ other ∈ between, other.LeavesPending
  awaits : (∃ other ∈ between, other.role = .user) → awaited view turn between ≠ []

/-- The pending content of a turn that defers. -/
def owing (replay : ReasoningReplayMode) (turn : Message β) (between : List (Message β)) :
    PendingAfterTools β :=
  { remainingToolIds := awaited view turn between
    deferredBlocks := postToolBlocks view turn.blocks
    topLevelReasoning := cleanReasoningContent turn.reasoningContent
    reasoningReplay := replay
    deferredEmitted := false }

/-- What an assistant says: a text, and the reasoning that goes with it. -/
structure Speech where
  text : String
  reasoning : String
  deriving DecidableEq

/-- An assistant's plain text. -/
def plainSpeech (replay : ReasoningReplayMode) (reasoning : Option String) (text : String) : Speech :=
  match reasoning, replay with
  | some thought, .reasoningContent => ⟨text, thought⟩
  | some thought, .thinkTags =>
    ⟨Py.join "\n\n" (thinkTagContent thought :: if text = "" then [] else [text]), ""⟩
  | _, _ => ⟨text, ""⟩

/-- An assistant's blocks, none of which is a tool call. -/
def blockSpeech (replay : ReasoningReplayMode) (reasoning : Option String) (content : List β) :
    Speech :=
  let text := Py.join "\n\n" ((content.filterMap (contentPart view replay)).map Part.text)
  let thinking := (content.filterMap (thinkingPart view reasoning replay)).map Part.text
  { text := if text = "" then " " else text
    reasoning :=
      match replay with
      | .reasoningContent => reasoning.getD (Py.join "\n" thinking)
      | _ => "" }

/-- **Every message until the pending content is emitted says just what it says**; `awaiting` is whether
tool results are awaited. -/
def Echoed (replay : ReasoningReplayMode) (said : Speech) (awaiting : Prop) :
    List (Message β) → Prop
  | [] => True
  | message :: rest =>
    match message.role, message.content with
    | .assistant, .plain text =>
      plainSpeech replay (cleanReasoningContent message.reasoningContent) text = said ∧
        Echoed replay said awaiting rest
    | .assistant, .blocks _ => True
    | .user, .plain _ => True
    | .user, .blocks content =>
      ¬ awaiting ∨ ((∀ block ∈ content, (view block).ofUser = false) ∧ Echoed replay said awaiting rest)

/-- **When the two forms of a text are converted alike**: a user's text, unless tool results are awaited
for deferred blocks; an assistant's text, unless its reasoning is put into think tags or deferred
blocks wait, and these can be told from what is said until they are emitted. -/
def FormsAgree (replay : ReasoningReplayMode) (role : Role) (thought : Option String) (text : String)
    (before after : List (Message β)) : Prop :=
  match role with
  | .user => ∀ earlier turn between, before = earlier ++ turn :: between →
      Defers view turn between → awaited view turn between = []
  | .assistant =>
    ¬ (replay = .thinkTags ∧ cleanReasoningContent thought ≠ none) ∧
      ∀ earlier turn between, before = earlier ++ turn :: between → Defers view turn between →
        let said := blockSpeech view replay (cleanReasoningContent turn.reasoningContent)
          (postToolBlocks view turn.blocks)
        plainSpeech replay (cleanReasoningContent thought) text = said ∧
          Echoed view replay said (awaited view turn between ≠ []) after

/-! ### What is pending -/

/-- Nothing pending stays nothing, as long as no turn comes. -/
theorem foldl_nextPending_none (replay : ReasoningReplayMode) {between : List (Message β)}
    (leaves : ∀ other ∈ between, other.LeavesPending) :
    between.foldl (nextPending view printing replay) none = none := by
  induction between with
  | nil => rfl
  | cons message rest ih =>
    obtain ⟨role, content, thought⟩ := message
    have here := leaves _ List.mem_cons_self
    have still := ih fun other member => leaves other (List.mem_cons_of_mem _ member)
    cases role with
    | assistant =>
      cases content with
      | blocks content => exact absurd here id
      | plain text => exact still
    | user =>
      cases content with
      | plain text => exact absurd here id
      | blocks content => exact still

/-- Assistants' texts leave what is pending alone. -/
theorem foldl_nextPending_assistants (replay : ReasoningReplayMode) {between : List (Message β)}
    (pending : Option (PendingAfterTools β)) (leaves : ∀ other ∈ between, other.LeavesPending)
    (noUser : ¬ ∃ other ∈ between, other.role = .user) :
    between.foldl (nextPending view printing replay) pending = pending ∧
      between.flatMap Message.blocks = [] := by
  induction between with
  | nil => exact ⟨rfl, rfl⟩
  | cons message rest ih =>
    obtain ⟨role, content, thought⟩ := message
    have here := leaves _ List.mem_cons_self
    cases role with
    | user => exact absurd ⟨_, List.mem_cons_self, rfl⟩ noUser
    | assistant =>
      cases content with
      | blocks content => exact absurd here id
      | plain text =>
        refine ih (fun other member => leaves other (List.mem_cons_of_mem _ member)) ?_
        rintro ⟨other, member, isUser⟩
        exact noUser ⟨other, List.mem_cons_of_mem _ member, isUser⟩

/-- A user's message that answers the last id leaves nothing pending. -/
theorem foldl_nextPending_answered (replay : ReasoningReplayMode) {between : List (Message β)}
    (pending : PendingAfterTools β) (leaves : ∀ other ∈ between, other.LeavesPending)
    (user : ∃ other ∈ between, other.role = .user)
    (answered : unanswered view pending.remainingToolIds (between.flatMap Message.blocks) = []) :
    between.foldl (nextPending view printing replay) (some pending) = none := by
  induction between generalizing pending with
  | nil =>
    obtain ⟨other, member, -⟩ := user
    exact absurd member List.not_mem_nil
  | cons message rest ih =>
    obtain ⟨role, content, thought⟩ := message
    have here := leaves _ List.mem_cons_self
    have leavesRest : ∀ other ∈ rest, other.LeavesPending :=
      fun other member => leaves other (List.mem_cons_of_mem _ member)
    rw [List.foldl_cons]
    cases role with
    | assistant =>
      cases content with
      | blocks content => exact absurd here id
      | plain text =>
        obtain ⟨other, member, isUser⟩ := user
        rcases List.mem_cons.mp member with rfl | member
        · cases isUser
        · exact ih pending leavesRest ⟨other, member, isUser⟩ answered
    | user =>
      cases content with
      | plain text => exact absurd here id
      | blocks content =>
        have step : nextPending view printing replay (some pending)
            ⟨.user, .blocks content, thought⟩ =
            if unanswered view pending.remainingToolIds content = [] then none
            else some { pending with
              remainingToolIds := unanswered view pending.remainingToolIds content } := rfl
        rw [step]
        split_ifs with done
        · exact foldl_nextPending_none view printing replay leavesRest
        · have apart : (Message.mk Role.user (.blocks content) thought :: rest).flatMap
              Message.blocks = content ++ rest.flatMap Message.blocks := rfl
          rw [apart, ← unanswered_append] at answered
          by_cases more : ∃ other ∈ rest, other.role = .user
          · exact ih _ leavesRest more answered
          · have noBlocks := (foldl_nextPending_assistants view printing replay
              (some pending) leavesRest more).2
            rw [noBlocks, unanswered_nil] at answered
            exact absurd answered done

/-- **What is pending behind a history** is what an earlier turn of it defers. -/
theorem foldl_nextPending_iff (replay : ReasoningReplayMode) (history : List (Message β))
    (pending : PendingAfterTools β) :
    history.foldl (nextPending view printing replay) none = some pending ↔
      ∃ earlier turn between, history = earlier ++ turn :: between ∧ Defers view turn between ∧
        pending = owing view replay turn between := by
  constructor
  · intro pends
    obtain ⟨earlier, turn, between, rfl, assistant, deferred, leaves, same⟩ :=
      foldl_nextPending_origin view printing replay history pending pends
    refine ⟨earlier, turn, between, rfl, ⟨assistant, deferred, leaves, ?_⟩, same⟩
    intro user answered
    have drained := foldl_nextPending_answered view printing replay
      (owing view replay turn []) leaves user (by rw [owing, awaited, unanswered_append]; exact answered)
    rw [List.foldl_append, List.foldl_cons,
      nextPending_assistant view printing replay _ assistant deferred] at pends
    rw [owing, awaited, List.flatMap_nil, unanswered_nil] at drained
    rw [drained] at pends
    cases pends
  · rintro ⟨earlier, turn, between, rfl, defers, rfl⟩
    rw [List.foldl_append, List.foldl_cons,
      nextPending_assistant view printing replay _ defers.assistant defers.deferred]
    by_cases waiting : awaited view turn between = []
    · have noUser : ¬ ∃ other ∈ between, other.role = .user :=
        fun user => defers.awaits user waiting
      obtain ⟨stays, noBlocks⟩ :=
        foldl_nextPending_assistants view printing replay (some _) defers.leaves noUser
      rw [stays, owing, awaited, noBlocks, unanswered_nil]
    · exact foldl_nextPending_between view printing replay between _ defers.leaves waiting

/-! ### The rest of a history -/

/-- A state behind the messages `done`. -/
def Conversion.behind (done : List (ChatMessage β)) (state : Conversion β) : Conversion β :=
  { state with result := done ++ state.result }

/-- The rest of a history, converted from some pending content. -/
def convertFrom (replay : ReasoningReplayMode) (pending : Option (PendingAfterTools β))
    (messages : List (Message β)) : Except PyError (List (ChatMessage β)) := do
  let state ← messages.foldlM (Conversion.add view printing replay) ⟨[], pending⟩
  let state ← state.flushDeferred view printing
  .ok state.result

theorem Conversion.flushDeferred_behind (done : List (ChatMessage β)) (state : Conversion β) :
    (state.behind done).flushDeferred view printing =
      Conversion.behind done <$> state.flushDeferred view printing := by
  obtain ⟨result, pending⟩ := state
  cases pending with
  | none => rfl
  | some pending =>
    unfold Conversion.flushDeferred
    dsimp only [Conversion.behind]
    split_ifs
    · rw [map_bind]
      refine bind_congr fun deferred => ?_
      rw [List.append_assoc]
      rfl
    · rfl

theorem Conversion.addAssistantBlocks_behind (replay : ReasoningReplayMode)
    (reasoning : Option String) (done : List (ChatMessage β)) (state : Conversion β)
    (content : List β) :
    (state.behind done).addAssistantBlocks view printing replay reasoning content =
      Conversion.behind done <$>
        state.addAssistantBlocks view printing replay reasoning content := by
  unfold Conversion.addAssistantBlocks
  rw [Conversion.flushDeferred_behind, bind_map_left, map_bind]
  refine bind_congr fun flushed => ?_
  split
  · rw [map_bind]
    refine bind_congr fun _ => ?_
    rw [map_bind]
    refine bind_congr fun converted => ?_
    obtain ⟨message, newPending⟩ := converted
    show Except.ok _ = Except.ok _
    simp [Conversion.behind]
  · rw [map_bind]
    refine bind_congr fun _ => ?_
    rw [map_bind]
    refine bind_congr fun message => ?_
    show Except.ok _ = Except.ok _
    simp [Conversion.behind]

theorem Conversion.addUserBlocks_behind (done : List (ChatMessage β)) (state : Conversion β)
    (content : List β) :
    (state.behind done).addUserBlocks view printing content =
      Conversion.behind done <$> state.addUserBlocks view printing content := by
  have plainly (state : Conversion β) :
      (convertUserMessage view printing content >>= fun messages =>
        Except.ok { state.behind done with result := (state.behind done).result ++ messages }) =
        Conversion.behind done <$> (convertUserMessage view printing content >>= fun messages =>
          Except.ok { state with result := state.result ++ messages }) := by
    rw [map_bind]
    refine bind_congr fun messages => ?_
    show Except.ok _ = Except.ok _
    simp [Conversion.behind]
  obtain ⟨result, pending⟩ := state
  cases pending with
  | none => exact plainly _
  | some pending =>
    unfold Conversion.addUserBlocks
    dsimp only [Conversion.behind]
    split_ifs
    · exact plainly ⟨result, some pending⟩
    · rw [map_bind]
      refine Eq.trans ?_ (bind_congr fun flushed => plainly flushed)
      have flushes := Conversion.flushDeferred_behind view printing done ⟨result, some pending⟩
      dsimp only [Conversion.behind] at flushes
      rw [flushes, bind_map_left]
    · rw [map_bind]
      refine bind_congr fun converted => ?_
      obtain ⟨messages, cleared, pending⟩ := converted
      show Except.ok _ = Except.ok _
      simp [Conversion.behind]

/-- **What a message adds does not depend on what is behind it.** -/
theorem Conversion.add_behind (replay : ReasoningReplayMode) (done : List (ChatMessage β))
    (state : Conversion β) (message : Message β) :
    (state.behind done).add view printing replay message =
      Conversion.behind done <$> state.add view printing replay message := by
  obtain ⟨role, content, thought⟩ := message
  cases role with
  | assistant =>
    cases content with
    | blocks content => exact Conversion.addAssistantBlocks_behind view printing _ _ _ _ _
    | plain text =>
      show Except.ok _ = Except.ok _
      simp [Conversion.behind]
  | user =>
    cases content with
    | blocks content => exact Conversion.addUserBlocks_behind view printing _ _ _
    | plain text =>
      unfold Conversion.add
      dsimp only
      rw [Conversion.flushDeferred_behind, bind_map_left, map_bind]
      refine bind_congr fun flushed => ?_
      show Except.ok _ = Except.ok _
      simp [Conversion.behind]

theorem Conversion.foldlM_behind (replay : ReasoningReplayMode) (done : List (ChatMessage β))
    (messages : List (Message β)) (state : Conversion β) :
    messages.foldlM (Conversion.add view printing replay) (state.behind done) =
      Conversion.behind done <$> messages.foldlM (Conversion.add view printing replay) state := by
  induction messages generalizing state with
  | nil => rfl
  | cons message rest ih =>
    rw [List.foldlM_cons, List.foldlM_cons, Conversion.add_behind, bind_map_left, map_bind]
    exact bind_congr fun next => ih next

/-- **The rest of a history, from any state.** -/
theorem convertFrom_behind (replay : ReasoningReplayMode) (messages : List (Message β))
    (state : Conversion β) :
    (messages.foldlM (Conversion.add view printing replay) state >>= fun last =>
        last.flushDeferred view printing >>= fun flushed => Except.ok flushed.result) =
      (state.result ++ ·) <$> convertFrom view printing replay state.pending messages := by
  have split : state = Conversion.behind state.result ⟨[], state.pending⟩ := by
    simp [Conversion.behind]
  conv_lhs => rw [split]
  rw [Conversion.foldlM_behind, bind_map_left, convertFrom, map_bind]
  refine bind_congr fun last => ?_
  rw [Conversion.flushDeferred_behind, bind_map_left, map_bind]
  rfl

/-! ### Refused messages -/

/-- **A bad item makes a fold raise the same error from every state**, when that is what its step
does and the other steps go on. -/
theorem foldlM_raises_of {α γ ε : Type} {step : γ → α → Except ε γ} {bad : α → Prop}
    {fine : γ → Prop} {errors : ε → Prop}
    (raises : ∀ item, bad item →
      ∃ error, errors error ∧ ∀ state, fine state → step state item = .error error)
    (goesOn : ∀ state item, fine state → ¬ bad item → ∃ next, step state item = .ok next ∧ fine next)
    {list : List α} (some_bad : ∃ item ∈ list, bad item) :
    ∃ error, errors error ∧ ∀ state, fine state → list.foldlM step state = .error error := by
  induction list with
  | nil =>
    obtain ⟨item, member, -⟩ := some_bad
    exact absurd member List.not_mem_nil
  | cons item rest ih =>
    by_cases here : bad item
    · obtain ⟨error, among, raises⟩ := raises item here
      refine ⟨error, among, fun state good => ?_⟩
      rw [List.foldlM_cons, raises state good]
      rfl
    · have later : ∃ other ∈ rest, bad other := by
        obtain ⟨other, member, isBad⟩ := some_bad
        rcases List.mem_cons.mp member with rfl | member
        · exact absurd isBad here
        · exact ⟨other, member, isBad⟩
      obtain ⟨error, among, raises⟩ := ih later
      refine ⟨error, among, fun state good => ?_⟩
      obtain ⟨next, stepped, still⟩ := goesOn state item good here
      rw [List.foldlM_cons, stepped]
      exact raises next still

theorem foldlM_user_image {content : List β} (image : ∃ block ∈ content, view block = .image)
    (parts : UserParts β) :
    content.foldlM (UserParts.add view printing) parts = .error userImageError := by
  have refuses : ∀ block, view block = .image → ∃ error, error = userImageError ∧
      ∀ parts, True → UserParts.add view printing parts block = .error error := by
    intro block here
    refine ⟨_, rfl, fun parts _ => ?_⟩
    rw [UserParts.add, here]
  have adds : ∀ parts block, True → view block ≠ .image →
      ∃ next, UserParts.add view printing parts block = .ok next ∧ True := by
    intro parts block _ other
    obtain ⟨next, added, -⟩ := UserParts.add_eq view printing parts block other
    exact ⟨next, added, trivial⟩
  obtain ⟨_, rfl, raises⟩ := foldlM_raises_of refuses adds image
  exact raises parts trivial

theorem foldlM_injection_image {content : List β} (image : ∃ block ∈ content, view block = .image)
    (state : Injection β)
    (allowed : ∀ block ∈ state.pending.deferredBlocks, (view block).allowedInAssistant = true) :
    content.foldlM (Injection.add view printing) state = .error userImageError := by
  have refuses : ∀ block, view block = .image → ∃ error, error = userImageError ∧
      ∀ state : Injection β,
        (∀ block ∈ state.pending.deferredBlocks, (view block).allowedInAssistant = true) →
          Injection.add view printing state block = .error error := by
    intro block here
    refine ⟨_, rfl, fun state _ => ?_⟩
    rw [Injection.add, here]
    dsimp only
    rw [UserParts.add, here]
    rfl
  have adds : ∀ (state : Injection β) block,
      (∀ block ∈ state.pending.deferredBlocks, (view block).allowedInAssistant = true) →
        view block ≠ .image → ∃ next, Injection.add view printing state block = .ok next ∧
          ∀ block ∈ next.pending.deferredBlocks, (view block).allowedInAssistant = true := by
    intro state block allowed other
    obtain ⟨next, added, -, same, -⟩ := Injection.add_eq view printing state block other allowed
    exact ⟨next, added, by rw [same]; exact allowed⟩
  obtain ⟨_, rfl, raises⟩ := foldlM_raises_of refuses adds image
  exact raises state allowed

theorem Conversion.flushDeferred_of_none {state : Conversion β} (nothing : state.pending = none) :
    state.flushDeferred view printing = .ok state := by
  unfold Conversion.flushDeferred
  rw [nothing]

/-- An assistant's blocks are converted behind what was pending. -/
theorem Conversion.addAssistantBlocks_flushed (replay : ReasoningReplayMode)
    (reasoning : Option String) {state flushed : Conversion β} (content : List β)
    (flushes : state.flushDeferred view printing = .ok flushed) (nothing : flushed.pending = none) :
    state.addAssistantBlocks view printing replay reasoning content =
      flushed.addAssistantBlocks view printing replay reasoning content := by
  unfold Conversion.addAssistantBlocks
  rw [flushes, Conversion.flushDeferred_of_none view printing nothing]

/-- **A refused message raises the same error from every state.** -/
theorem Conversion.add_raises (replay : ReasoningReplayMode) {message : Message β}
    (refused : message.Refused view) :
    ∃ error, ∀ state : Conversion β, state.Waiting view →
      state.add view printing replay message = .error error := by
  obtain ⟨role, content, thought⟩ := message
  cases content with
  | plain text =>
    obtain ⟨block, member, -⟩ := refused
    exact absurd member List.not_mem_nil
  | blocks content =>
    cases role with
    | assistant =>
      have raises := Conversion.add_refused view printing replay refused {}
      cases first : ({} : Conversion β).add view printing replay
          ⟨.assistant, .blocks content, thought⟩ with
      | ok next => exact absurd first (raises next)
      | error error =>
        refine ⟨error, fun state waiting => ?_⟩
        obtain ⟨flushed, flushes, nothing, -⟩ := state.flushDeferred_eq view printing waiting
        have split : flushed = Conversion.behind flushed.result {} := by
          simp [Conversion.behind, ← nothing]
        have behind := Conversion.add_behind view printing replay flushed.result {}
          ⟨.assistant, .blocks content, thought⟩
        rw [first, ← split] at behind
        exact (Conversion.addAssistantBlocks_flushed view printing replay _ content flushes
          nothing).trans behind
    | user =>
      obtain ⟨block, member, forbidden⟩ := refused
      have image : ∃ block ∈ content, view block = .image :=
        ⟨block, member, of_decide_eq_true forbidden⟩
      have plain : convertUserMessage view printing content = .error userImageError := by
        rw [convertUserMessage, foldlM_user_image view printing image]
        rfl
      refine ⟨userImageError, fun state waiting => ?_⟩
      obtain ⟨result, pending⟩ := state
      unfold Conversion.add Conversion.addUserBlocks
      dsimp only
      cases pending with
      | none =>
        dsimp only
        rw [plain]
        rfl
      | some pending =>
        obtain ⟨someBlock, notEmitted, allowed⟩ := waiting pending rfl
        have needs := PendingAfterTools.needsDeferred_eq_true someBlock notEmitted
        dsimp only
        rw [needs, if_neg (by decide)]
        split_ifs with answered
        · obtain ⟨flushed, flushes, -⟩ :=
            Conversion.flushDeferred_eq view printing ⟨result, some pending⟩ waiting
          rw [flushes, plain]
          rfl
        · have injected : convertUserMessageWithInjection view printing content pending =
              .error userImageError := by
            unfold convertUserMessageWithInjection
            rw [needs, if_neg (by simpa using answered),
              foldlM_injection_image view printing image ⟨{}, pending, false⟩ allowed]
            rfl
          rw [injected]
          rfl

/-- **A history with a refused message raises the same error from every state.** -/
theorem foldlM_raises (replay : ReasoningReplayMode) {messages : List (Message β)}
    (refused : ∃ message ∈ messages, message.Refused view) :
    ∃ error, ∀ state : Conversion β, state.Waiting view →
      messages.foldlM (Conversion.add view printing replay) state = .error error := by
  have refuses : ∀ message : Message β, message.Refused view → ∃ error, True ∧
      ∀ state : Conversion β, state.Waiting view →
        state.add view printing replay message = .error error := by
    intro message here
    obtain ⟨error, raises⟩ := Conversion.add_raises view printing replay here
    exact ⟨error, trivial, raises⟩
  have adds : ∀ (state : Conversion β) (message : Message β), state.Waiting view →
      ¬ message.Refused view →
        ∃ next, state.add view printing replay message = .ok next ∧ next.Waiting view := by
    intro state message waiting here
    obtain ⟨next, added, still, -⟩ :=
      Conversion.add_eq view printing replay state message waiting here
    exact ⟨next, added, still⟩
  obtain ⟨error, -, raises⟩ := foldlM_raises_of refuses adds refused
  exact ⟨error, raises⟩

/-! ### What is said -/

/-- An assistant's message without calls, as it is sent. -/
def Speech.sent (said : Speech) : SentMessage :=
  { role := .assistant
    content := said.text
    toolCalls := []
    toolCallId := none
    reasoningContent := said.reasoning }

theorem Speech.sent_injective : Function.Injective Speech.sent := by
  rintro ⟨text, reasoning⟩ ⟨otherText, otherReasoning⟩ same
  injection same with _ sameText _ _ sameReasoning
  exact congrArg₂ Speech.mk sameText sameReasoning

@[simp] theorem Text.render_plain (text : String) : (Text.plain text : Text β).render = text := by
  have joined : (Text.plain text : Text β).joined = text := Py.join_singleton "" text
  rw [Text.render, joined]
  split_ifs with empty
  · exact empty.symm
  · rfl

@[simp] theorem Text.render_empty : (Text.empty : Text β).render = "" := rfl

theorem Text.render_of_joined (separator : String) (parts : List (Part β)) :
    (⟨separator, parts, ""⟩ : Text β).render = Py.join separator (parts.map Part.text) := by
  rw [Text.render]
  split_ifs with empty
  · exact empty.symm
  · rfl

theorem sent_convertPlainMessage (replay : ReasoningReplayMode) (reasoning : Option String)
    (text : String) :
    (convertPlainMessage .assistant text reasoning replay : ChatMessage β).sent =
      (plainSpeech replay reasoning text).sent := by
  unfold convertPlainMessage plainSpeech ChatMessage.sent Speech.sent
  cases reasoning with
  | none => simp
  | some thought =>
    cases replay with
    | disabled => simp
    | reasoningContent => simp
    | thinkTags =>
      dsimp only
      rw [Text.render_of_joined]
      by_cases empty : text = ""
      · simp [empty]
      · simp [empty]

theorem sent_assistantMessage (replay : ReasoningReplayMode) (reasoning : Option String)
    {content : List β} (noCalls : ∀ block ∈ content, (view block).isToolUse = false) :
    (assistantMessage view printing reasoning replay content).sent =
      (blockSpeech view replay reasoning content).sent := by
  have calls : iterToolUsesInOrder view printing content = [] := by
    have sources := sources_iterToolUses view printing content
    rw [List.filter_eq_nil_iff.mpr fun block member => by simp [noCalls block member]] at sources
    exact List.map_eq_nil_iff.mp sources
  unfold assistantMessage assistantParts AssistantParts.message blockSpeech ChatMessage.sent
    Speech.sent
  rw [calls]
  cases replay with
  | disabled => rfl
  | thinkTags => rfl
  | reasoningContent =>
    cases reasoning with
    | none =>
      dsimp only
      rw [Text.render_of_joined]
      rfl
    | some thought =>
      dsimp only
      rw [Text.render_plain]
      rfl

/-- **The two forms of an assistant's text** say the same, unless think tags hold its reasoning. -/
theorem plainSpeech_eq_iff (replay : ReasoningReplayMode) (reasoning : Option String) {text : String}
    {block : β} (nonempty : text ≠ "") (read : view block = .text text) :
    plainSpeech replay reasoning text = blockSpeech view replay reasoning [block] ↔
      ¬ (replay = .thinkTags ∧ reasoning ≠ none) := by
  have said : blockSpeech view replay reasoning [block] =
      ⟨text, if replay = .reasoningContent then reasoning.getD "" else ""⟩ := by
    cases replay <;> simp [blockSpeech, contentPart, thinkingPart, read, nonempty]
  rw [said]
  cases reasoning with
  | none => cases replay <;> simp [plainSpeech]
  | some thought =>
    cases replay with
    | disabled => simp [plainSpeech]
    | reasoningContent => simp [plainSpeech]
    | thinkTags =>
      have longer : Py.join "\n\n" [thinkTagContent thought, text] ≠ text := by
        intro same
        have length := congrArg String.length same
        rw [Py.join, String.intercalate_cons_cons, String.intercalate_singleton,
          String.length_append, String.length_append] at length
        have separator : "\n\n".length = 2 := rfl
        omega
      simp [plainSpeech, nonempty, longer]

/-! ### What one message sends -/

/-- The rest of a history as it is sent. -/
def sentFrom (replay : ReasoningReplayMode) (pending : Option (PendingAfterTools β))
    (messages : List (Message β)) : Except PyError (List SentMessage) :=
  List.map ChatMessage.sent <$> convertFrom view printing replay pending messages

variable {view printing} in
theorem sentFrom_cons {replay : ReasoningReplayMode} {pending next : Option (PendingAfterTools β)}
    {message : Message β} {segment : List (ChatMessage β)} (rest : List (Message β))
    (added : Conversion.add view printing replay ⟨[], pending⟩ message = .ok ⟨segment, next⟩) :
    sentFrom view printing replay pending (message :: rest) =
      (segment.map ChatMessage.sent ++ ·) <$> sentFrom view printing replay next rest := by
  have behind := convertFrom_behind view printing replay rest ⟨segment, next⟩
  unfold sentFrom
  rw [convertFrom, List.foldlM_cons, added]
  refine (congrArg (List.map ChatMessage.sent <$> ·) behind).trans ?_
  rw [← comp_map, ← comp_map]
  congr 1
  funext output
  exact List.map_append

/-- The pending content waits to be emitted. -/
def PendingAfterTools.Waits (pending : PendingAfterTools β) : Prop :=
  (⟨[], some pending⟩ : Conversion β).Waiting view

/-- The message that pending content is converted to. -/
def PendingAfterTools.deferredMessage (pending : PendingAfterTools β) : ChatMessage β :=
  assistantMessage view printing pending.topLevelReasoning pending.reasoningReplay
    pending.deferredBlocks

/-- What the pending content says. -/
def PendingAfterTools.speech (pending : PendingAfterTools β) : Speech :=
  blockSpeech view pending.reasoningReplay pending.topLevelReasoning pending.deferredBlocks

section Waits

variable {view printing}
variable {replay : ReasoningReplayMode} {pending : PendingAfterTools β}

theorem PendingAfterTools.Waits.flush (waits : pending.Waits view) (result : List (ChatMessage β)) :
    Conversion.flushDeferred view printing ⟨result, some pending⟩ =
      .ok ⟨result ++ [pending.deferredMessage view printing], none⟩ := by
  obtain ⟨someBlock, notEmitted, allowed⟩ := waits pending rfl
  unfold Conversion.flushDeferred
  dsimp only
  rw [if_pos (PendingAfterTools.needsDeferred_eq_true someBlock notEmitted),
    deferredPostToolToMessages, if_neg (by simpa using someBlock),
    convertAssistantMessage_eq view printing _ _ _ allowed]
  rfl

theorem sentFrom_none_nil : sentFrom view printing replay none [] = .ok [] := rfl

theorem PendingAfterTools.Waits.sentFrom_nil (waits : pending.Waits view) :
    sentFrom view printing replay (some pending) [] =
      .ok [(pending.deferredMessage view printing).sent] := by
  rw [sentFrom, convertFrom, List.foldlM_nil]
  show List.map ChatMessage.sent <$>
    (Conversion.flushDeferred view printing ⟨[], some pending⟩ >>= _) = _
  rw [waits.flush]
  rfl

/-- A message that emits what is pending before it is converted itself. -/
def Message.EmitsFirst (message : Message β) (pending : PendingAfterTools β) : Prop :=
  match message.role, message.content with
  | .assistant, .plain _ => False
  | .user, .blocks _ => pending.remainingToolIds = []
  | _, _ => True

theorem PendingAfterTools.Waits.add_emitsFirst (waits : pending.Waits view) {message : Message β}
    (first : message.EmitsFirst pending) :
    Conversion.add view printing replay ⟨[], some pending⟩ message =
      Conversion.add view printing replay ⟨[pending.deferredMessage view printing], none⟩
        message := by
  have flushes := @PendingAfterTools.Waits.flush _ view printing _ waits []
  obtain ⟨role, content, thought⟩ := message
  cases role with
  | assistant =>
    cases content with
    | plain text => exact absurd first id
    | blocks content =>
      exact Conversion.addAssistantBlocks_flushed view printing replay _ content flushes rfl
  | user =>
    cases content with
    | plain text =>
      unfold Conversion.add
      dsimp only
      rw [flushes]
      rfl
    | blocks content =>
      obtain ⟨someBlock, notEmitted, -⟩ := waits pending rfl
      have answered : pending.remainingToolIds = [] := first
      unfold Conversion.add Conversion.addUserBlocks
      dsimp only
      rw [PendingAfterTools.needsDeferred_eq_true someBlock notEmitted, if_neg (by decide),
        if_pos (by rw [answered]; rfl), flushes]
      rfl

/-- **It is sent behind the pending content**, as if nothing had been pending. -/
theorem PendingAfterTools.Waits.sentFrom_emitsFirst (waits : pending.Waits view)
    {message : Message β} (first : message.EmitsFirst pending) (rest : List (Message β)) :
    sentFrom view printing replay (some pending) (message :: rest) =
      ((pending.deferredMessage view printing).sent :: ·) <$>
        sentFrom view printing replay none (message :: rest) := by
  have same := @PendingAfterTools.Waits.add_emitsFirst _ view printing replay _ waits _ first
  have behind := convertFrom_behind view printing replay (message :: rest)
    ⟨[pending.deferredMessage view printing], none⟩
  unfold sentFrom
  rw [convertFrom, List.foldlM_cons, same, ← List.foldlM_cons]
  refine (congrArg (List.map ChatMessage.sent <$> ·) behind).trans ?_
  rw [← comp_map, ← comp_map]
  rfl

theorem foldlM_eq_self {α γ : Type} {step : γ → α → Except PyError γ} {list : List α} {state : γ}
    (fixed : ∀ value ∈ list, step state value = .ok state) : list.foldlM step state = .ok state := by
  induction list with
  | nil => rfl
  | cons value rest ih =>
    rw [List.foldlM_cons, fixed value List.mem_cons_self]
    exact ih fun other member => fixed other (List.mem_cons_of_mem _ member)

theorem UserParts.add_silent (parts : UserParts β) {block : β}
    (silent : (view block).ofUser = false) (noImage : view block ≠ .image) :
    parts.add view printing block = .ok parts := by
  cases read : view block <;> rw [read] at silent noImage <;>
    simp_all [UserParts.add, Block.ofUser]

theorem Injection.add_silent (state : Injection β) {block : β}
    (silent : (view block).ofUser = false) (noImage : view block ≠ .image) :
    state.add view printing block = .ok state := by
  have parts := @UserParts.add_silent _ view printing state.parts _ silent noImage
  unfold Injection.add
  split
  · rename_i read
    rw [read] at silent
    cases silent
  · rw [parts]
    rfl

/-- A user's message without a text or a tool result sends nothing. -/
theorem Conversion.add_silent {waiting : Option (PendingAfterTools β)} {content : List β}
    (thought : Option String)
    (waits : ∀ known ∈ waiting, known.Waits view ∧ known.remainingToolIds ≠ [])
    (silent : ∀ block ∈ content, (view block).ofUser = false)
    (noImage : ∀ block ∈ content, view block ≠ .image) :
    Conversion.add view printing replay ⟨[], waiting⟩ ⟨.user, .blocks content, thought⟩ =
      .ok ⟨[], waiting⟩ := by
  unfold Conversion.add Conversion.addUserBlocks
  dsimp only
  cases waiting with
  | none =>
    have plain : convertUserMessage view printing content = .ok [] := by
      rw [convertUserMessage, foldlM_eq_self fun block member =>
        UserParts.add_silent _ (silent block member) (noImage block member)]
      rfl
    dsimp only
    rw [plain]
    rfl
  | some known =>
    obtain ⟨waits, awaiting⟩ := waits known rfl
    obtain ⟨someBlock, notEmitted, -⟩ := waits known rfl
    have needs := PendingAfterTools.needsDeferred_eq_true someBlock notEmitted
    have injected : convertUserMessageWithInjection view printing content known =
        .ok ([], false, known) := by
      unfold convertUserMessageWithInjection
      rw [needs, if_neg (by simpa using awaiting), foldlM_eq_self fun block member =>
        Injection.add_silent _ (silent block member) (noImage block member)]
      rfl
    dsimp only
    rw [needs, if_neg (by decide), if_neg (by simpa using awaiting), injected]
    rfl

/-- The first message of a list, if there is one, is not the assistant's. -/
def OpensAsUser (messages : List (ChatMessage β)) : Prop :=
  ∀ chat ∈ messages.head?, chat.role ≠ .assistant

theorem OpensAsUser.append {first second : List (ChatMessage β)} (opens : OpensAsUser first)
    (opensToo : OpensAsUser second) : OpensAsUser (first ++ second) := by
  cases first with
  | nil => exact opensToo
  | cons chat rest => exact opens

theorem OpensAsUser.append_of_ne {first : List (ChatMessage β)} (opens : OpensAsUser first)
    (nonempty : first ≠ []) (second : List (ChatMessage β)) : OpensAsUser (first ++ second) := by
  cases first with
  | nil => exact absurd rfl nonempty
  | cons chat rest => exact opens

theorem opensAsUser_flushText (textParts : List (Part β)) : OpensAsUser (flushText textParts) := by
  intro chat member
  have user := (flushText_user textParts chat (List.mem_of_mem_head? member)).1
  rw [user]
  decide

theorem opensAsUser_toolMessage (source : β) (toolUseId : Option String) (content : Json) :
    OpensAsUser [toolMessage printing source toolUseId content] := by
  intro chat member
  obtain rfl := Option.some.inj member
  show ChatRole.tool ≠ .assistant
  decide

theorem UserParts.add_opens {parts next : UserParts β} {block : β}
    (added : parts.add view printing block = .ok next) (opens : OpensAsUser parts.result) :
    OpensAsUser next.result := by
  rw [UserParts.add] at added
  split at added
  · obtain rfl := Except.ok.inj added
    exact opens
  · cases added
  · obtain rfl := Except.ok.inj added
    exact (opens.append (opensAsUser_flushText _)).append (opensAsUser_toolMessage _ _ _)
  · obtain rfl := Except.ok.inj added
    exact opens

theorem Injection.add_opens {state next : Injection β} {block : β}
    (added : state.add view printing block = .ok next) (opens : OpensAsUser state.parts.result) :
    OpensAsUser next.parts.result := by
  unfold Injection.add at added
  split at added
  · rename_i toolUseId content read
    have answered := (opens.append (opensAsUser_flushText state.parts.textParts)).append
      (@opensAsUser_toolMessage _ printing block toolUseId content)
    dsimp only at added
    split_ifs at added
    · obtain ⟨deferred, -, same⟩ := except_bind_eq_ok added
      obtain rfl := Except.ok.inj same
      exact answered.append_of_ne (by simp) deferred
    · obtain rfl := Except.ok.inj added
      exact answered
  · obtain ⟨parts, addedParts, same⟩ := except_bind_eq_ok added
    obtain rfl := Except.ok.inj same
    exact UserParts.add_opens addedParts opens

/-- **A user's message with a text or a tool result, while results are awaited**: it comes before what
is pending. -/
theorem PendingAfterTools.Waits.add_speaks (waits : pending.Waits view)
    (awaiting : pending.remainingToolIds ≠ []) {content : List β} (thought : Option String)
    (speaks : ∃ block ∈ content, (view block).ofUser = true)
    (noImage : ∀ block ∈ content, view block ≠ .image) :
    ∃ chat segment next, chat.role ≠ .assistant ∧
      Conversion.add view printing replay ⟨[], some pending⟩ ⟨.user, .blocks content, thought⟩ =
        .ok ⟨chat :: segment, next⟩ := by
  obtain ⟨someBlock, notEmitted, allowed⟩ := waits pending rfl
  have needs := PendingAfterTools.needsDeferred_eq_true someBlock notEmitted
  obtain ⟨last, ran, carried, -⟩ := foldlM_injection view printing content ⟨{}, pending, false⟩
    noImage allowed
  have folded (messages : List β) (state final : Injection β)
      (folds : messages.foldlM (Injection.add view printing) state = .ok final)
      (opens : OpensAsUser state.parts.result) : OpensAsUser final.parts.result := by
    induction messages generalizing state with
    | nil =>
      obtain rfl := Except.ok.inj folds
      exact opens
    | cons block rest ih =>
      obtain ⟨middle, added, folds⟩ := except_bind_eq_ok folds
      exact ih middle folds (Injection.add_opens added opens)
  have opens : OpensAsUser last.parts.flushed :=
    (folded content _ last ran fun chat member => by cases member).append
      (opensAsUser_flushText _)
  have injected : convertUserMessageWithInjection view printing content pending =
      .ok (last.parts.flushed, last.cleared, last.pending) := by
    unfold convertUserMessageWithInjection
    rw [needs, if_neg (by simpa using awaiting), ran]
    rfl
  have added : Conversion.add view printing replay ⟨[], some pending⟩
      ⟨.user, .blocks content, thought⟩ =
      .ok ⟨last.parts.flushed, if last.cleared then none else some last.pending⟩ := by
    unfold Conversion.add Conversion.addUserBlocks
    dsimp only
    rw [needs, if_neg (by decide), if_neg (by simpa using awaiting), injected]
    rfl
  cases shape : last.parts.flushed with
  | nil =>
    obtain ⟨block, member, said⟩ := speaks
    have inside : block ∈ carriedBy last.parts.flushed := by
      rw [carried]
      refine Multiset.mem_add.mpr (.inl (Multiset.mem_add.mpr (.inr ?_)))
      exact List.mem_filter.mpr ⟨member, said⟩
    rw [shape] at inside
    exact absurd inside (Multiset.notMem_zero _)
  | cons chat segment =>
    rw [shape] at opens added
    exact ⟨chat, segment, _, opens chat rfl, added⟩

/-! ### Until the pending content is emitted -/

/-- An accepted history is sent. -/
theorem sentFrom_ok {waiting : Option (PendingAfterTools β)} {messages : List (Message β)}
    (waits : ∀ known ∈ waiting, known.Waits view)
    (accepted : ∀ message ∈ messages, ¬ message.Refused view) :
    ∃ output, sentFrom view printing replay waiting messages = .ok output := by
  have begins : (⟨[], waiting⟩ : Conversion β).Waiting view :=
    fun known same => waits known same known rfl
  have runs (state : Conversion β) (waiting : state.Waiting view) :
      ∃ last, messages.foldlM (Conversion.add view printing replay) state = .ok last ∧
        last.Waiting view := by
    clear begins waits
    induction messages generalizing state with
    | nil => exact ⟨state, rfl, waiting⟩
    | cons message rest ih =>
      obtain ⟨next, added, still, -⟩ := Conversion.add_eq view printing replay state message waiting
        (accepted message List.mem_cons_self)
      rw [List.foldlM_cons, added]
      exact ih (fun other member => accepted other (List.mem_cons_of_mem _ member)) next still
  obtain ⟨last, ran, still⟩ := runs _ begins
  obtain ⟨flushed, flushes, -⟩ := last.flushDeferred_eq view printing still
  refine ⟨flushed.result.map ChatMessage.sent, ?_⟩
  rw [sentFrom, convertFrom, ran]
  show List.map ChatMessage.sent <$> (last.flushDeferred view printing >>= _) = _
  rw [flushes]
  rfl

theorem PendingAfterTools.sent_deferredMessage
    (noCalls : ∀ block ∈ pending.deferredBlocks, (view block).isToolUse = false) :
    (pending.deferredMessage view printing).sent = (pending.speech view).sent :=
  sent_assistantMessage view printing _ _ noCalls

theorem map_cons_inj {first second : SentMessage} {rest other : Except PyError (List SentMessage)}
    (ran : ∃ output, rest = .ok output) :
    (first :: ·) <$> rest = (second :: ·) <$> other ↔ first = second ∧ rest = other := by
  obtain ⟨output, rfl⟩ := ran
  cases other with
  | error raised =>
    constructor
    · intro same
      cases same
    · rintro ⟨-, same⟩
      cases same
  | ok others =>
    show Except.ok _ = Except.ok _ ↔ _ ∧ Except.ok _ = Except.ok _
    rw [Except.ok.injEq, Except.ok.injEq, List.cons.injEq]

/-- An assistant's plain text is sent before what is pending. -/
theorem sentFrom_plain (waiting : Option (PendingAfterTools β)) (text : String)
    (thought : Option String) (rest : List (Message β)) :
    sentFrom view printing replay waiting (⟨.assistant, .plain text, thought⟩ :: rest) =
      ((plainSpeech replay (cleanReasoningContent thought) text).sent :: ·) <$>
        sentFrom view printing replay waiting rest := by
  rw [← @sent_convertPlainMessage β]
  exact @sentFrom_cons _ view printing replay waiting waiting
    ⟨.assistant, .plain text, thought⟩ _ rest rfl

/-- **Pending content behind a message that says the same**: it cannot be told from pending content
before it exactly when all that is sent until it is emitted says the same. -/
theorem PendingAfterTools.Waits.echoed_iff (waits : pending.Waits view)
    (noCalls : ∀ block ∈ pending.deferredBlocks, (view block).isToolUse = false)
    (said : Speech) {after : List (Message β)}
    (accepted : ∀ message ∈ after, ¬ message.Refused view) :
    sentFrom view printing replay (some pending) after =
        (said.sent :: ·) <$> sentFrom view printing replay none after ↔
      pending.speech view = said ∧
        Echoed view replay (pending.speech view) (pending.remainingToolIds ≠ []) after := by
  have deferred := @PendingAfterTools.sent_deferredMessage _ view printing _ noCalls
  induction after generalizing said with
  | nil =>
    rw [waits.sentFrom_nil, sentFrom_none_nil, deferred]
    show Except.ok [_] = Except.ok [_] ↔ _
    rw [Except.ok.injEq, List.cons.injEq, Speech.sent_injective.eq_iff, Echoed]
    simp
  | cons message rest ih =>
    have acceptedRest : ∀ other ∈ rest, ¬ other.Refused view :=
      fun other member => accepted other (List.mem_cons_of_mem _ member)
    have continues (said : Speech) := ih said acceptedRest
    have ranNone : ∃ output, sentFrom view printing replay none (message :: rest) = .ok output :=
      sentFrom_ok (fun known same => by cases same) accepted
    have emitsFirst (first : message.EmitsFirst pending) :
        sentFrom view printing replay (some pending) (message :: rest) =
          (said.sent :: ·) <$> sentFrom view printing replay none (message :: rest) ↔
        pending.speech view = said := by
      rw [waits.sentFrom_emitsFirst first, deferred, map_cons_inj ranNone,
        Speech.sent_injective.eq_iff]
      exact and_iff_left rfl
    obtain ⟨role, content, thought⟩ := message
    cases role with
    | assistant =>
      cases content with
      | blocks content =>
        rw [emitsFirst trivial, Echoed]
        exact (and_iff_left trivial).symm
      | plain text =>
        rw [sentFrom_plain, sentFrom_plain, Echoed]
        have ran : ∃ output, sentFrom view printing replay (some pending) rest = .ok output :=
          sentFrom_ok (fun known same => by cases same; exact waits) acceptedRest
        refine (map_cons_inj ran).trans ?_
        rw [Speech.sent_injective.eq_iff]
        constructor
        · rintro ⟨first, later⟩
          obtain ⟨repeats, echoed⟩ := (continues _).mp later
          exact ⟨repeats.trans first, repeats.symm, echoed⟩
        · rintro ⟨repeats, first, echoed⟩
          exact ⟨first.trans repeats, (continues _).mpr ⟨first.symm, echoed⟩⟩
    | user =>
      cases content with
      | plain text =>
        rw [emitsFirst trivial, Echoed]
        exact (and_iff_left trivial).symm
      | blocks content =>
        by_cases awaiting : pending.remainingToolIds = []
        · rw [emitsFirst awaiting, Echoed]
          exact (and_iff_left (.inl (not_not.mpr awaiting))).symm
        · have noImage : ∀ block ∈ content, view block ≠ .image := fun block member image =>
            accepted _ List.mem_cons_self ⟨block, member, decide_eq_true image⟩
          by_cases silent : ∀ block ∈ content, (view block).ofUser = false
          · have behind := @sentFrom_cons _ view printing replay (some pending) (some pending)
              ⟨.user, .blocks content, thought⟩ _ rest (Conversion.add_silent thought
                (fun known same => by cases same; exact ⟨waits, awaiting⟩) silent noImage)
            have alone := @sentFrom_cons _ view printing replay none none
              ⟨.user, .blocks content, thought⟩ _ rest (Conversion.add_silent thought
                (fun known same => by cases same) silent noImage)
            rw [behind, alone, List.map_nil]
            simp only [List.nil_append, id_map']
            refine (continues said).trans (and_congr_right fun _ => ?_)
            rw [Echoed]
            exact ⟨fun echoed => .inr ⟨silent, echoed⟩,
              fun either => (either.resolve_left (not_not.mpr awaiting)).2⟩
          · have speaks : ∃ block ∈ content, (view block).ofUser = true := by
              simpa using silent
            obtain ⟨chat, segment, next, role, added⟩ :=
              @PendingAfterTools.Waits.add_speaks _ view printing replay _ waits awaiting content thought
                speaks noImage
            rw [sentFrom_cons rest added]
            constructor
            · intro same
              obtain ⟨alone, ranNone⟩ := ranNone
              rw [ranNone] at same
              cases ran : sentFrom view printing replay next rest with
              | error raised =>
                rw [ran] at same
                cases same
              | ok others =>
                rw [ran] at same
                have heads := (List.cons.inj (Except.ok.inj same)).1
                exact absurd (congrArg SentMessage.role heads) role
            · rintro ⟨-, echoed⟩
              rw [Echoed] at echoed
              rcases echoed with closed | ⟨quiet, -⟩
              · exact absurd awaiting closed
              · exact absurd quiet silent

end Waits

/-! ### The two forms -/

section Main

variable {view printing}
variable {replay : ReasoningReplayMode}

/-- A history that is sent from `before` on. -/
theorem sentMessages_split {before : List (Message β)}
    (accepted : ∀ message ∈ before, ¬ message.Refused view) :
    ∃ sent : List SentMessage, ∀ rest : List (Message β),
      sentMessages view printing replay (before ++ rest) =
        (sent ++ ·) <$> sentFrom view printing replay
          (before.foldl (nextPending view printing replay) none) rest := by
  obtain ⟨state, -, ran, -, pends, -⟩ := foldlM_accounts view printing replay before accepted
  refine ⟨state.result.map ChatMessage.sent, fun rest => ?_⟩
  have behind := convertFrom_behind view printing replay rest state
  rw [pends] at behind
  unfold sentMessages convertMessages sentFrom
  rw [List.foldlM_append, ran]
  refine (congrArg (fun run => run >>= fun output : List (ChatMessage β) =>
    Except.ok (output.map ChatMessage.sent)) behind).trans ?_
  rw [bind_map_left, ← comp_map, ← bind_pure_comp]
  refine bind_congr fun output => ?_
  show Except.ok _ = Except.ok _
  rw [List.map_append]
  rfl

theorem map_append_inj {sent : List SentMessage} {first second : Except PyError (List SentMessage)} :
    (sent ++ ·) <$> first = (sent ++ ·) <$> second ↔ first = second := by
  refine ⟨fun same => ?_, fun same => by rw [same]⟩
  cases first with
  | error raised =>
    cases second with
    | error other =>
      injection same with same
      rw [same]
    | ok output => cases same
  | ok output =>
    cases second with
    | error raised => cases same
    | ok other =>
      have equal : sent ++ output = sent ++ other := Except.ok.inj same
      rw [List.append_cancel_left equal]

/-- A user's text is sent alike in both forms, with nothing pending. -/
theorem sentFrom_user {text : String} {block : β} (read : view block = .text text)
    (thought : Option String) (after : List (Message β)) :
    sentFrom view printing replay none (⟨.user, .plain text, thought⟩ :: after) =
      sentFrom view printing replay none (⟨.user, .blocks [block], thought⟩ :: after) := by
  have blocks : Conversion.add view printing replay ⟨[], none⟩ ⟨.user, .blocks [block], thought⟩ =
      .ok ⟨[ChatMessage.user [⟨text, some block⟩]], none⟩ := by
    unfold Conversion.add Conversion.addUserBlocks convertUserMessage
    dsimp only
    rw [List.foldlM_cons, UserParts.add, read]
    rfl
  rw [@sentFrom_cons _ view printing replay none none ⟨.user, .plain text, thought⟩ _ after rfl,
    sentFrom_cons after blocks]
  have same : (convertPlainMessage .user text (cleanReasoningContent thought) replay :
      ChatMessage β).sent = (ChatMessage.user [⟨text, some block⟩] : ChatMessage β).sent := by
    unfold convertPlainMessage ChatMessage.user ChatMessage.sent
    rw [Text.render_of_joined]
    simp
  simp only [List.nil_append, List.map_singleton, same]

/-- **A user's text**: the forms agree exactly when no tool results are awaited. -/
theorem sentFrom_user_iff {waiting : Option (PendingAfterTools β)}
    (waits : ∀ known ∈ waiting, known.Waits view) {text : String} {block : β}
    (read : view block = .text text) (thought : Option String) {after : List (Message β)}
    (accepted : ∀ message ∈ after, ¬ message.Refused view) :
    sentFrom view printing replay waiting (⟨.user, .plain text, thought⟩ :: after) =
        sentFrom view printing replay waiting (⟨.user, .blocks [block], thought⟩ :: after) ↔
      ∀ known ∈ waiting, known.remainingToolIds = [] := by
  have alike := @sentFrom_user _ view printing replay _ _ read thought after
  cases waiting with
  | none => exact ⟨fun _ known same => (by cases same), fun _ => alike⟩
  | some known =>
    replace waits := waits known rfl
    have plain := @PendingAfterTools.Waits.sentFrom_emitsFirst _ view printing replay _ waits
      ⟨.user, .plain text, thought⟩ trivial after
    constructor
    · intro same other member
      cases member
      by_contra awaiting
      have isText : (view block).ofUser = true := by rw [read]; rfl
      have plainAccepted : ¬ (⟨.user, .plain text, thought⟩ : Message β).Refused view := by
        rintro ⟨_, member, -⟩
        cases member
      have noImage : view block ≠ .image := by rw [read]; exact Block.noConfusion
      obtain ⟨chat, segment, next, role, added⟩ :=
        @PendingAfterTools.Waits.add_speaks _ view printing replay _ waits awaiting [block] thought
          ⟨block, List.mem_singleton_self _, isText⟩
          fun other member => by rw [List.mem_singleton.mp member]; exact noImage
      obtain ⟨alone, ran⟩ := @sentFrom_ok _ view printing replay none
        (⟨.user, .plain text, thought⟩ :: after) (fun known same => by cases same)
        (List.forall_mem_cons.mpr ⟨plainAccepted, accepted⟩)
      rw [plain, ran, sentFrom_cons after added] at same
      cases later : sentFrom view printing replay next after with
      | error raised =>
        rw [later] at same
        cases same
      | ok others =>
        rw [later] at same
        have heads := (List.cons.inj (Except.ok.inj same)).1
        exact role (congrArg SentMessage.role heads).symm
    · intro answered
      have blocks := @PendingAfterTools.Waits.sentFrom_emitsFirst _ view printing replay _ waits
        ⟨.user, .blocks [block], thought⟩ (answered known rfl) after
      rw [plain, blocks, alike]

/-- **An assistant's text**: the forms agree exactly when the reasoning is not put into think tags and
what is pending is only repeated. -/
theorem sentFrom_assistant_iff {waiting : Option (PendingAfterTools β)}
    (waits : ∀ known ∈ waiting, known.Waits view)
    (noCalls : ∀ known ∈ waiting, ∀ block ∈ known.deferredBlocks, (view block).isToolUse = false)
    {text : String} {block : β} (nonempty : text ≠ "") (read : view block = .text text)
    (thought : Option String) {after : List (Message β)}
    (accepted : ∀ message ∈ after, ¬ message.Refused view) :
    sentFrom view printing replay waiting (⟨.assistant, .plain text, thought⟩ :: after) =
        sentFrom view printing replay waiting (⟨.assistant, .blocks [block], thought⟩ :: after) ↔
      ¬ (replay = .thinkTags ∧ cleanReasoningContent thought ≠ none) ∧
        ∀ known ∈ waiting,
          plainSpeech replay (cleanReasoningContent thought) text = known.speech view ∧
            Echoed view replay (known.speech view) (known.remainingToolIds ≠ []) after := by
  have blocks : sentFrom view printing replay none
      (⟨.assistant, .blocks [block], thought⟩ :: after) =
      ((blockSpeech view replay (cleanReasoningContent thought) [block]).sent :: ·) <$>
        sentFrom view printing replay none after := by
    have allowed : ∀ other ∈ [block], (view other).allowedInAssistant = true := by
      intro other member
      rw [List.mem_singleton.mp member, read]
      rfl
    have noCall : ∀ other ∈ [block], (view other).isToolUse = false := by
      intro other member
      rw [List.mem_singleton.mp member, read]
      rfl
    have added : Conversion.add view printing replay ⟨[], none⟩
        ⟨.assistant, .blocks [block], thought⟩ =
        .ok ⟨[assistantMessage view printing (cleanReasoningContent thought) replay [block]],
          none⟩ := by
      have first : indexFirstToolUse view [block] = none := by
        rw [indexFirstToolUse_eq_none, fromTools_eq_nil_iff]
        exact noCall
      unfold Conversion.add Conversion.addAssistantBlocks
      dsimp only
      rw [Conversion.flushDeferred_of_none view printing rfl, first]
      show ([block].forM (fun block => assertNoForbiddenAssistantBlock (view block)) >>= _) = _
      rw [forM_eq_ok fun other member =>
        (assertNoForbiddenAssistantBlock_iff _).mpr (allowed other member)]
      show (convertAssistantMessage view printing _ replay [block] >>= _) = _
      rw [convertAssistantMessage_eq view printing _ _ _ allowed]
      rfl
    rw [sentFrom_cons after added, List.map_singleton,
      sent_assistantMessage view printing replay _ noCall]
    rfl
  rw [← plainSpeech_eq_iff view replay (cleanReasoningContent thought) nonempty read]
  cases waiting with
  | none =>
    have ran := @sentFrom_ok _ view printing replay none after (fun known same => by cases same)
      accepted
    rw [sentFrom_plain, blocks, map_cons_inj ran, Speech.sent_injective.eq_iff]
    exact and_congr_right fun _ => ⟨fun _ known same => (by cases same), fun _ => rfl⟩
  | some known =>
    replace waits := waits known rfl
    replace noCalls := noCalls known rfl
    have ran := @sentFrom_ok _ view printing replay (some known) after
      (fun other same => by cases same; exact waits) accepted
    rw [sentFrom_plain, @PendingAfterTools.Waits.sentFrom_emitsFirst _ view printing replay _ waits
      ⟨.assistant, .blocks [block], thought⟩ trivial, blocks,
      PendingAfterTools.sent_deferredMessage noCalls, map_cons_inj ran,
      waits.echoed_iff noCalls _ accepted, Speech.sent_injective.eq_iff]
    constructor
    · rintro ⟨repeats, same, echoed⟩
      exact ⟨repeats.trans same, fun other member => by cases member; exact ⟨repeats, echoed⟩⟩
    · rintro ⟨same, echoes⟩
      obtain ⟨repeats, echoed⟩ := echoes known rfl
      exact ⟨repeats, repeats.symm.trans same, echoed⟩

/-- What is pending behind an accepted history waits to be emitted. -/
theorem waits_of_foldl (before : List (Message β))
    (accepted : ∀ message ∈ before, ¬ message.Refused view) :
    ∀ known ∈ before.foldl (nextPending view printing replay) none, known.Waits view := by
  obtain ⟨state, -, -, waiting, pends, -⟩ := foldlM_accounts view printing replay before accepted
  intro known member other same
  exact waiting other (pends.trans (member.trans same))

/-- A refused message elsewhere raises the same error in both forms. -/
theorem sentMessages_refused {before after : List (Message β)}
    (refused : ∃ message ∈ before ++ after, message.Refused view) {first second : Message β}
    (accepted : ¬ first.Refused view) (alsoAccepted : ¬ second.Refused view) :
    sentMessages view printing replay (before ++ first :: after) =
      sentMessages view printing replay (before ++ second :: after) := by
  have begins : ({} : Conversion β).Waiting view := Conversion.Waiting.of_none view rfl
  unfold sentMessages convertMessages
  by_cases here : ∃ message ∈ before, message.Refused view
  · obtain ⟨error, raises⟩ := foldlM_raises view printing replay here
    rw [List.foldlM_append, List.foldlM_append, raises {} begins]
    rfl
  · obtain ⟨state, -, ran, waiting, -⟩ := foldlM_accounts view printing replay before
      fun message member isRefused => here ⟨message, member, isRefused⟩
    obtain ⟨message, member, isRefused⟩ := refused
    have later : ∃ message ∈ after, message.Refused view :=
      ⟨message, (List.mem_append.mp member).resolve_left fun inside =>
        here ⟨message, inside, isRefused⟩, isRefused⟩
    obtain ⟨error, raises⟩ := foldlM_raises view printing replay later
    have each (message : Message β) (accepted : ¬ message.Refused view) :
        (message :: after).foldlM (Conversion.add view printing replay) state = .error error := by
      obtain ⟨next, added, still, -⟩ :=
        Conversion.add_eq view printing replay state message waiting accepted
      rw [List.foldlM_cons, added]
      exact raises next still
    have both (message : Message β) (accepted : ¬ message.Refused view) :
        (before ++ message :: after).foldlM (Conversion.add view printing replay) {} =
          .error error := by
      rw [List.foldlM_append, ran]
      exact each message accepted
    rw [both first accepted, both second alsoAccepted]

end Main

/-- **A string or one text block.** For a text that is not empty, both forms of the message are
converted to the same chat messages exactly when another message is refused or the forms agree. -/
theorem string_form_iff (replay : ReasoningReplayMode) (before after : List (Message β)) (role : Role)
    (thought : Option String) {text : String} {block : β} (nonempty : text ≠ "")
    (read : view block = .text text) :
    sentMessages view printing replay (before ++ ⟨role, .plain text, thought⟩ :: after) =
        sentMessages view printing replay (before ++ ⟨role, .blocks [block], thought⟩ :: after) ↔
      (∃ message ∈ before ++ after, message.Refused view) ∨
        FormsAgree view replay role thought text before after := by
  by_cases refused : ∃ message ∈ before ++ after, message.Refused view
  · refine iff_of_true ?_ (.inl refused)
    refine sentMessages_refused refused ?_ ?_
    · rintro ⟨_, member, -⟩
      cases member
    · rintro ⟨_, member, isRefused⟩
      rw [List.mem_singleton.mp member, read] at isRefused
      cases role <;> cases isRefused
  · have accepted : ∀ message ∈ before ++ after, ¬ message.Refused view :=
      fun message member isRefused => refused ⟨message, member, isRefused⟩
    have acceptedAfter : ∀ message ∈ after, ¬ message.Refused view :=
      fun message member => accepted message (List.mem_append_right _ member)
    obtain ⟨sent, splits⟩ := @sentMessages_split _ view printing replay before
      fun message member => accepted message (List.mem_append_left _ member)
    have waiting := @waits_of_foldl _ view printing replay before
      fun message member => accepted message (List.mem_append_left _ member)
    rw [splits, splits, map_append_inj, or_iff_right refused]
    have pends := foldl_nextPending_iff view printing replay before
    cases role with
    | user =>
      rw [sentFrom_user_iff waiting read thought acceptedAfter]
      constructor
      · intro answered earlier turn between split defers
        exact answered _ ((pends _).mpr ⟨earlier, turn, between, split, defers, rfl⟩)
      · intro agree known member
        obtain ⟨earlier, turn, between, split, defers, rfl⟩ := (pends known).mp member
        exact agree earlier turn between split defers
    | assistant =>
      have noCalls : ∀ known ∈ before.foldl (nextPending view printing replay) none,
          ∀ block ∈ known.deferredBlocks, (view block).isToolUse = false := by
        intro known member block inside
        obtain ⟨-, turn, between, -, -, rfl⟩ := (pends known).mp member
        simpa using (List.mem_filter.mp inside).2
      rw [sentFrom_assistant_iff waiting noCalls nonempty read thought acceptedAfter]
      refine and_congr_right fun _ => ?_
      constructor
      · intro echoes earlier turn between split defers
        exact echoes _ ((pends _).mpr ⟨earlier, turn, between, split, defers, rfl⟩)
      · intro agree known member
        obtain ⟨earlier, turn, between, split, defers, rfl⟩ := (pends known).mp member
        exact agree earlier turn between split defers

end Forms

/-- An assistant's answer with reasoning, replayed as a field of its own. -/
theorem replayedAnswer_agrees :
    sentMessages id ⟨fun _ => "", fun _ => "", fun _ => ""⟩ .reasoningContent
        ([⟨.user, .plain "List the files.", none⟩] ++ ⟨.assistant, .plain "One file.", some "ls"⟩ :: []) =
      sentMessages id ⟨fun _ => "", fun _ => "", fun _ => ""⟩ .reasoningContent
        ([⟨.user, .plain "List the files.", none⟩] ++
          ⟨.assistant, .blocks [.text "One file."], some "ls"⟩ :: []) := by
  refine (string_form_iff id _ .reasoningContent _ [] .assistant (some "ls")
    (by decide) rfl).mpr (.inr ⟨by decide, ?_⟩)
  intro earlier turn between split defers
  have inside : turn ∈ [(⟨.user, .plain "List the files.", none⟩ : Message Block)] := by
    rw [split]
    simp
  have assistant := defers.assistant
  rw [List.mem_singleton.mp inside] at assistant
  cases assistant

/-- **Reasoning in think tags**: the string is sent behind its reasoning, the block without it. -/
theorem taggedReasoning_differs :
    sentMessages id ⟨fun _ => "", fun _ => "", fun _ => ""⟩ .thinkTags
        [⟨.assistant, .plain "One file.", some "ls"⟩] ≠
      sentMessages id ⟨fun _ => "", fun _ => "", fun _ => ""⟩ .thinkTags
        [⟨.assistant, .blocks [.text "One file."], some "ls"⟩] := by
  intro same
  have contents := congrArg (fun run => run.toOption.map (List.map SentMessage.content)) same
  exact absurd contents (by decide)

end ClaudeProxy
