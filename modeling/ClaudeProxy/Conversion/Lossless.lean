/-
**When `convert_messages` is lossless.**

* `CarriedOnce` — every text, tool call, tool result and replayed thinking block is carried once, no
  block is carried twice, and only thinking may be missing; `Lossless` — moreover, what is carried
  says what its block says, and the texts of string messages are there in order.
* `foldlM_accounts` — the run lemma: what a history of accepted messages carries, and when it
  carries more than that.
* `convertMessages_refused` — a history with a refused block is refused.
* **`conversion_lossless_iff`** — `convert_messages` refuses or is lossless, exactly when a block is
  refused, or every block is handled, no text before a tool call is swallowed and no deferred
  content is repeated.
-/

import ClaudeProxy.Conversion.Accounting
import ClaudeProxy.Conversion.Faithful
import Mathlib.Data.List.Pairwise

namespace ClaudeProxy

section Lossless

variable {β : Type} (view : β → Block) (printing : Printing)

/-! ### The property -/

/-- A block that has to arrive. -/
def Block.mustArrive (reasoning : Option String) (replay : ReasoningReplayMode) : Block → Bool
  | .text _ | .toolUse .. | .toolResult .. => true
  | .thinking _ => replay ≠ .disabled ∧ reasoning = none
  | _ => false

/-- A block that may be left out without an error. -/
def Block.mayBeLeftOut : Block → Bool
  | .thinking _ | .redactedThinking => true
  | _ => false

/-- Every block that has to arrive is carried once; the others are not carried twice, and only
thinking may be among them. -/
def CarriedOnce [DecidableEq β] (replay : ReasoningReplayMode) (history : List (Message β))
    (output : List (ChatMessage β)) : Prop :=
  ∀ message ∈ history, ∀ block ∈ message.blocks,
    if (view block).mustArrive (cleanReasoningContent message.reasoningContent) replay then
      (carriedBy output).count block = 1
    else (view block).mayBeLeftOut = true ∧ (carriedBy output).count block ≤ 1

instance [DecidableEq β] (replay : ReasoningReplayMode) (history : List (Message β))
    (output : List (ChatMessage β)) : Decidable (CarriedOnce view replay history output) := by
  unfold CarriedOnce
  infer_instance

/-- The chat messages hold every text, tool call, tool result and replayed thinking block once, each as
its block says it, and the texts of string messages in order. -/
structure Lossless [DecidableEq β] (replay : ReasoningReplayMode) (history : List (Message β))
    (output : List (ChatMessage β)) : Prop where
  carriedOnce : CarriedOnce view replay history output
  faithful : ∀ chat ∈ output, chat.Faithful view printing
  plainTexts : output.flatMap ChatMessage.plainTexts = history.flatMap (Message.plainTexts replay)

/-- A block of a kind that a message of this role hands on, or may leave out. -/
def Block.handledIn (role : Role) (reasoning : Option String) (replay : ReasoningReplayMode) :
    Block → Bool
  | .text _ | .redactedThinking => true
  | .toolUse .. => role = .assistant
  | .toolResult .. => role = .user
  | .thinking _ => role = .assistant ∨ replay = .disabled ∨ reasoning ≠ none
  | _ => false

/-- Every block of the message is of a kind its role handles. -/
def Message.Handled (replay : ReasoningReplayMode) (message : Message β) : Prop :=
  ∀ block ∈ message.blocks, (view block).handledIn message.role
    (cleanReasoningContent message.reasoningContent) replay = true

/-- An assistant message with tool calls whose text before them is one space. -/
def Message.Swallows (replay : ReasoningReplayMode) (message : Message β) : Prop :=
  message.role = .assistant ∧ swallowsText view replay message.blocks = true

/-! ### A whole history -/

theorem deliveredByAssistant_sublist (reasoning : Option String) (replay : ReasoningReplayMode)
    (content : List β) : (deliveredByAssistant view reasoning replay content).Sublist content := by
  rw [deliveredByAssistant]
  split_ifs
  · conv_rhs => rw [← beforeTools_append_fromTools view content]
    exact List.Sublist.append List.filter_sublist List.filter_sublist
  · exact List.filter_sublist

/-- A message hands on blocks of its own, in order. -/
theorem deliveredBy_sublist (replay : ReasoningReplayMode) (message : Message β) :
    (deliveredBy view replay message).Sublist message.blocks := by
  rw [deliveredBy]
  cases message.role with
  | assistant => exact deliveredByAssistant_sublist view _ _ _
  | user => exact List.filter_sublist

theorem mem_deliveredBy_of_postTool (replay : ReasoningReplayMode) {turn : Message β}
    (assistant : turn.role = .assistant) {block : β} (member : block ∈ postToolBlocks view turn.blocks)
    (carried : (view block).ofAssistant (cleanReasoningContent turn.reasoningContent) replay = true) :
    block ∈ deliveredBy view replay turn := by
  have inside : block ∈ fromTools view turn.blocks := List.mem_of_mem_filter member
  rw [deliveredBy, assistant]
  dsimp only
  rw [deliveredByAssistant]
  split_ifs
  · exact List.mem_append_right _ (List.mem_filter.mpr ⟨inside, carried⟩)
  · exact List.mem_filter.mpr ⟨(List.dropWhile_suffix _).subset inside, carried⟩

/-- What a message makes be carried again was handed on before. -/
theorem repeatedBy_subset (replay : ReasoningReplayMode) (done : List (Message β))
    (message : Message β) :
    ∀ block ∈ repeatedBy view (done.foldl (nextPending view printing replay) none) message,
      block ∈ done.flatMap (deliveredBy view replay) := by
  intro block member
  cases pends : done.foldl (nextPending view printing replay) none with
  | none =>
    rw [pends, repeatedBy_none] at member
    exact absurd member (Multiset.notMem_zero _)
  | some pending =>
    cases role : message.role with
    | assistant =>
      rw [repeatedBy_assistant view _ role] at member
      exact absurd member (Multiset.notMem_zero _)
    | user =>
      obtain ⟨before, turn, between, rfl, assistant, -, -, rfl⟩ :=
        foldl_nextPending_origin view printing replay done pending pends
      rw [pends, repeatedBy_some view _ role] at member
      split_ifs at member
      · exact absurd member (Multiset.notMem_zero _)
      · have owed := Multiset.mem_of_mem_nsmul member
        obtain ⟨inside, carried⟩ := List.mem_filter.mp owed
        exact List.mem_flatMap.mpr ⟨turn, by simp,
          mem_deliveredBy_of_postTool view replay assistant inside carried⟩

/-- **The run lemma**: accepted messages are converted, and carry what they hand on; they carry
more exactly where deferred content is repeated. -/
theorem foldlM_accounts (replay : ReasoningReplayMode) (history : List (Message β))
    (accepted : ∀ message ∈ history, ¬ message.Refused view) :
    ∃ state extra, history.foldlM (Conversion.add view printing replay) {} = .ok state ∧
      state.Waiting view ∧
      state.pending = history.foldl (nextPending view printing replay) none ∧
      carriedBy state.result + owedBy view state.pending =
        ↑(history.flatMap (deliveredBy view replay)) + extra ∧
      (∀ block ∈ extra, block ∈ history.flatMap (deliveredBy view replay)) ∧
      (extra ≠ 0 ↔ RepeatsDeferred view replay history) := by
  induction history using List.reverseRecOn with
  | nil =>
    refine ⟨{}, 0, rfl, Conversion.Waiting.of_none view rfl, rfl, rfl,
      fun _ member => absurd member (Multiset.notMem_zero _), ?_⟩
    refine ⟨fun something => absurd rfl something, ?_⟩
    rintro ⟨done, message, after, split, -⟩
    exact absurd split (by simp)
  | append_singleton earlier message ih =>
    obtain ⟨state, extra, ran, waiting, pends, accounts, within, repeats⟩ :=
      ih fun other member => accepted other (List.mem_append_left _ member)
    obtain ⟨next, added, stillWaiting, nextPends, more⟩ := Conversion.add_eq view printing replay
      state message waiting (accepted message (by simp))
    rw [pends] at nextPends more
    refine ⟨next, extra + repeatedBy view
      (earlier.foldl (nextPending view printing replay) none) message, ?_, stillWaiting, ?_, ?_,
      ?_, ?_⟩
    · rw [List.foldlM_append, ran]
      show (state.add view printing replay message >>= pure) = _
      rw [added]
      rfl
    · rw [nextPends, List.foldl_append, List.foldl_cons, List.foldl_nil]
    · rw [more, ← pends, accounts, List.flatMap_append, List.flatMap_singleton, ← Multiset.coe_add]
      abel
    · intro block member
      rw [List.flatMap_append]
      refine List.mem_append_left _ ?_
      rcases Multiset.mem_add.mp member with member | member
      · exact within block member
      · exact repeatedBy_subset view printing replay earlier message block member
    · rw [RepeatsDeferred, exists_place_concat earlier message (RepeatsAt view replay),
        ← repeatedBy_ne_zero_iff view printing replay earlier message]
      have earlierRepeats : (∃ done value after, earlier = done ++ value :: after ∧
          RepeatsAt view replay done value) ↔ extra ≠ 0 := repeats.symm
      rw [earlierRepeats, ne_eq, ← Multiset.card_eq_zero, Multiset.card_add, Nat.add_eq_zero_iff,
        Multiset.card_eq_zero, Multiset.card_eq_zero, not_and_or]

/-- **An accepted history is converted to what it hands on, and more exactly where deferred content
is repeated.** -/
theorem convertMessages_accounts (replay : ReasoningReplayMode) (history : List (Message β))
    (accepted : ∀ message ∈ history, ¬ message.Refused view) :
    ∃ output extra, convertMessages view printing replay history = .ok output ∧
      carriedBy output = ↑(history.flatMap (deliveredBy view replay)) + extra ∧
      (∀ block ∈ extra, block ∈ history.flatMap (deliveredBy view replay)) ∧
      (extra ≠ 0 ↔ RepeatsDeferred view replay history) := by
  obtain ⟨state, extra, ran, waiting, -, accounts, within, repeats⟩ :=
    foldlM_accounts view printing replay history accepted
  obtain ⟨last, flushes, -, emitted⟩ := state.flushDeferred_eq view printing waiting
  refine ⟨last.result, extra, ?_, emitted.trans accounts, within, repeats⟩
  rw [convertMessages, ran]
  show (state.flushDeferred view printing >>= _) = _
  rw [flushes]
  rfl

/-! ### Refused messages -/

theorem except_bind_eq_ok {α γ : Type} {run : Except PyError α} {next : α → Except PyError γ}
    {result : γ} (returned : (run >>= next) = .ok result) :
    ∃ value, run = .ok value ∧ next value = .ok result := by
  cases run with
  | error raised => exact nomatch returned
  | ok value => exact ⟨value, rfl, returned⟩

theorem foldlM_ne_ok {α γ : Type} {step : γ → α → Except PyError γ} {list : List α} {value : α}
    (member : value ∈ list) (raises : ∀ state next, step state value ≠ .ok next) (start last : γ) :
    list.foldlM step start ≠ .ok last := by
  induction list generalizing start with
  | nil => exact absurd member List.not_mem_nil
  | cons head rest ih =>
    intro returned
    obtain ⟨middle, stepped, ran⟩ := except_bind_eq_ok returned
    rcases List.mem_cons.mp member with rfl | member
    · exact raises _ _ stepped
    · exact ih member _ ran

theorem forM_ne_ok {α : Type} {step : α → Except PyError PUnit} {list : List α} {value : α}
    (member : value ∈ list) (raises : step value ≠ .ok ()) : list.forM step ≠ .ok () := by
  induction list with
  | nil => exact absurd member List.not_mem_nil
  | cons head rest ih =>
    intro returned
    obtain ⟨⟨⟩, stepped, ran⟩ := except_bind_eq_ok returned
    rcases List.mem_cons.mp member with rfl | member
    · exact raises stepped
    · exact ih member ran

theorem convertUserMessage_image {content : List β} {block : β} (member : block ∈ content)
    (image : view block = .image) (messages : List (ChatMessage β)) :
    convertUserMessage view printing content ≠ .ok messages := by
  intro returned
  obtain ⟨parts, ran, -⟩ := except_bind_eq_ok returned
  refine foldlM_ne_ok member (fun state next added => ?_) _ _ ran
  rw [UserParts.add, image] at added
  cases added

theorem convertUserMessageWithInjection_image {content : List β} {block : β}
    (member : block ∈ content) (image : view block = .image) (pending : PendingAfterTools β)
    (result : List (ChatMessage β) × Bool × PendingAfterTools β) :
    convertUserMessageWithInjection view printing content pending ≠ .ok result := by
  unfold convertUserMessageWithInjection
  intro returned
  split_ifs at returned
  · obtain ⟨messages, converted, -⟩ := except_bind_eq_ok returned
    exact convertUserMessage_image view printing member image messages converted
  · obtain ⟨state, ran, -⟩ := except_bind_eq_ok returned
    refine foldlM_ne_ok member (fun state next added => ?_) _ _ ran
    rw [Injection.add, image] at added
    obtain ⟨parts, addedParts, -⟩ := except_bind_eq_ok added
    rw [UserParts.add, image] at addedParts
    cases addedParts

/-- A refused message raises, whatever came before. -/
theorem Conversion.add_refused (replay : ReasoningReplayMode) {message : Message β}
    (refused : message.Refused view) (state next : Conversion β) :
    state.add view printing replay message ≠ .ok next := by
  obtain ⟨role, content, thought⟩ := message
  obtain ⟨block, member, forbidden⟩ := refused
  intro returned
  cases content with
  | plain text => exact absurd member List.not_mem_nil
  | blocks content =>
    replace member : block ∈ content := member
    cases role with
    | assistant =>
      have raises : assertNoForbiddenAssistantBlock (view block) ≠ .ok () := fun passes => by
        rw [Block.refusedIn, (assertNoForbiddenAssistantBlock_iff _).mp passes] at forbidden
        exact absurd forbidden (by decide)
      replace returned : state.addAssistantBlocks view printing replay
        (cleanReasoningContent thought) content = .ok next := returned
      unfold Conversion.addAssistantBlocks at returned
      obtain ⟨flushed, -, returned⟩ := except_bind_eq_ok returned
      split at returned
      · obtain ⟨_, checked, -⟩ := except_bind_eq_ok returned
        refine forM_ne_ok member (fun passes => ?_) checked
        split_ifs at passes with isCall
        · cases read : view block <;> rw [read] at isCall forbidden <;>
            simp_all [Block.isToolUse, Block.refusedIn, Block.allowedInAssistant]
        · exact raises passes
      · obtain ⟨_, checked, -⟩ := except_bind_eq_ok returned
        exact forM_ne_ok member raises checked
    | user =>
      have image : view block = .image := of_decide_eq_true forbidden
      have noPlain (state : Conversion β) :
          (convertUserMessage view printing content >>= fun messages =>
            Except.ok { state with result := state.result ++ messages }) ≠ .ok next := fun plain => by
        obtain ⟨messages, converted, -⟩ := except_bind_eq_ok plain
        exact convertUserMessage_image view printing member image messages converted
      replace returned : state.addUserBlocks view printing content = .ok next := returned
      unfold Conversion.addUserBlocks at returned
      split at returned
      · exact noPlain _ returned
      · split_ifs at returned
        · exact noPlain _ returned
        · obtain ⟨flushed, -, plain⟩ := except_bind_eq_ok returned
          exact noPlain _ plain
        · obtain ⟨result, converted, -⟩ := except_bind_eq_ok returned
          exact convertUserMessageWithInjection_image view printing member image _ _ converted

/-- **A history with a refused block raises `OpenAIConversionError`.** -/
theorem convertMessages_refused (replay : ReasoningReplayMode) {history : List (Message β)}
    {message : Message β} (member : message ∈ history) (refused : message.Refused view) :
    ∃ text, convertMessages view printing replay history =
      .error (.openAIConversionError text) := by
  cases converted : convertMessages view printing replay history with
  | error raised =>
    obtain ⟨text, rfl⟩ := convertMessages_errors view printing replay history raised converted
    exact ⟨text, rfl⟩
  | ok output =>
    obtain ⟨state, ran, -⟩ := except_bind_eq_ok converted
    exact absurd ran (foldlM_ne_ok member
      (fun state next => Conversion.add_refused view printing replay refused state next) _ _)

/-! ### Swallowed text -/

/-- A part is no longer than the text it is joined into. -/
theorem length_le_join (separator : String) {parts : List String} {part : String}
    (member : part ∈ parts) : part.length ≤ (Py.join separator parts).length := by
  obtain ⟨before, after, found⟩ := mem_join separator member
  rw [found, String.length_append, String.length_append]
  omega

/-- A swallowed text is a text block before the first tool call. -/
theorem exists_text_of_swallowsText {replay : ReasoningReplayMode} {content : List β}
    (swallows : swallowsText view replay content = true) :
    ∃ block ∈ beforeTools view content, ∃ text, view block = .text text := by
  rw [swallowsText, Bool.and_eq_true, decide_eq_true_eq] at swallows
  have blank := swallows.2
  rw [preText] at blank
  cases parts : (beforeTools view content).filterMap (contentPart view replay) with
  | nil =>
    rw [parts, List.map_nil, Py.join_nil] at blank
    exact absurd blank (by decide)
  | cons part rest =>
    have partMember : part ∈ (beforeTools view content).filterMap (contentPart view replay) := by
      rw [parts]
      exact List.mem_cons_self
    obtain ⟨block, member, gives⟩ := List.mem_filterMap.mp partMember
    have short : part.text.length ≤ 1 := by
      have bounded := length_le_join "\n\n" (List.mem_map_of_mem (f := Part.text) partMember)
      rwa [blank] at bounded
    cases read : view block with
    | text text => exact ⟨block, member, text, read⟩
    | thinking thinking =>
      rw [contentPart, read] at gives
      dsimp only at gives
      split_ifs at gives
      obtain rfl := Option.some.inj gives
      have long : 1 < (thinkTagContent thinking).length := by
        show 1 < ("<think>\n" ++ thinking ++ "\n</think>").length
        have opening : "<think>\n".length = 8 := by decide
        rw [String.length_append, String.length_append]
        omega
      exact absurd short (by simpa using long)
    | _ =>
      rw [contentPart, read] at gives
      cases gives

/-- A swallowed text is not handed on. -/
theorem not_mem_of_swallowsText {reasoning : Option String} {replay : ReasoningReplayMode}
    {content : List β} (distinct : content.Nodup)
    (swallows : swallowsText view replay content = true) {block : β}
    (member : block ∈ beforeTools view content) {text : String} (read : view block = .text text) :
    block ∉ deliveredByAssistant view reasoning replay content := by
  rw [deliveredByAssistant, if_pos swallows, List.mem_append, not_or]
  refine ⟨fun inReasoning => ?_, fun later => ?_⟩
  · have reasons := (List.mem_filter.mp inReasoning).2
    rw [read] at reasons
    exact absurd reasons (by simp [Block.inReasoning])
  · rw [← beforeTools_append_fromTools view content] at distinct
    exact (List.nodup_append.mp distinct).2.2 block member block (List.mem_of_mem_filter later) rfl

/-! ### Lossless, exactly -/

/-- A block of an accepted message is handed on where it has to arrive, if its kind is handled and
no text is swallowed. -/
theorem mem_deliveredBy {replay : ReasoningReplayMode} {message : Message β} {block : β}
    (member : block ∈ message.blocks) (handled : message.Handled view replay)
    (keeps : ¬ message.Swallows view replay)
    (must : (view block).mustArrive (cleanReasoningContent message.reasoningContent) replay = true) :
    block ∈ deliveredBy view replay message := by
  have kind := handled block member
  rw [deliveredBy]
  cases role : message.role with
  | assistant =>
    rw [role] at kind
    have noSwallow : swallowsText view replay message.blocks = false := by
      by_contra swallows
      exact keeps ⟨role, by simpa using swallows⟩
    dsimp only
    rw [deliveredByAssistant, noSwallow]
    refine List.mem_filter.mpr ⟨member, ?_⟩
    cases read : view block <;> rw [read] at kind must <;>
      simp_all [Block.handledIn, Block.mustArrive, Block.ofAssistant, Block.inContent,
        Block.isToolUse, Block.inReasoning]
    cases replay <;> simp_all
  | user =>
    rw [role] at kind
    refine List.mem_filter.mpr ⟨member, ?_⟩
    cases read : view block <;> rw [read] at kind must <;>
      simp_all [Block.handledIn, Block.mustArrive, Block.ofUser]

/-- A block that is handed on is of a kind its role handles. -/
theorem handledIn_of_mem {replay : ReasoningReplayMode} {message : Message β} {block : β}
    (member : block ∈ deliveredBy view replay message) :
    (view block).handledIn message.role
      (cleanReasoningContent message.reasoningContent) replay = true := by
  rw [deliveredBy] at member
  cases role : message.role with
  | assistant =>
    rw [role] at member
    have kind : (view block).ofAssistant
        (cleanReasoningContent message.reasoningContent) replay = true := by
      dsimp only at member
      rw [deliveredByAssistant] at member
      split_ifs at member
      · rcases List.mem_append.mp member with inReasoning | later
        · rw [Block.ofAssistant, (List.mem_filter.mp inReasoning).2, Bool.or_true]
        · exact (List.mem_filter.mp later).2
      · exact (List.mem_filter.mp member).2
    cases read : view block <;> rw [read] at kind <;>
      simp_all [Block.handledIn, Block.ofAssistant, Block.inContent, Block.isToolUse,
        Block.inReasoning]
  | user =>
    rw [role] at member
    have kind := (List.mem_filter.mp member).2
    cases read : view block <;> rw [read] at kind <;> simp_all [Block.handledIn, Block.ofUser]

/-- A handled block that need not arrive may be left out, and the other way round. -/
theorem handledIn_iff_mayBeLeftOut {role : Role} {reasoning : Option String}
    {replay : ReasoningReplayMode} {block : Block}
    (optional : block.mustArrive reasoning replay = false) :
    block.handledIn role reasoning replay = true ↔ block.mayBeLeftOut = true := by
  cases block <;>
    simp_all [Block.mustArrive, Block.handledIn, Block.mayBeLeftOut]
  by_cases disabled : replay = .disabled
  · exact Or.inr (Or.inl disabled)
  · exact Or.inr (Or.inr (optional disabled))

/-- A block of a message is handed on by the history only where the message hands it on. -/
theorem mem_flatMap_deliveredBy {replay : ReasoningReplayMode} {history : List (Message β)}
    (distinct : (history.flatMap Message.blocks).Nodup) {message : Message β}
    (inHistory : message ∈ history) {block : β} (member : block ∈ message.blocks) :
    block ∈ history.flatMap (deliveredBy view replay) ↔ block ∈ deliveredBy view replay message := by
  refine ⟨fun found => ?_, fun found => List.mem_flatMap.mpr ⟨message, inHistory, found⟩⟩
  obtain ⟨other, inHistory', found⟩ := List.mem_flatMap.mp found
  have otherMember := (deliveredBy_sublist view replay other).subset found
  by_cases same : message = other
  · rw [same]
    exact found
  · have apart : ∀ first ∈ history, ∀ second ∈ history, first ≠ second →
        List.Disjoint first.blocks second.blocks := by
      have symmetric : Std.Symm (Function.onFun List.Disjoint (@Message.blocks β)) :=
        ⟨fun first second apart => apart.symm⟩
      exact (List.nodup_flatMap.mp distinct).2.forall
    exact absurd otherMember (apart message inHistory other inHistory' same member)

/-- **An accepted history of distinct blocks is carried once exactly when every block is handled, no
text is swallowed and no deferred content is repeated.** -/
theorem carriedOnce_iff_of_nodup [DecidableEq β] (replay : ReasoningReplayMode)
    (history : List (Message β)) (distinct : (history.flatMap Message.blocks).Nodup)
    (accepted : ∀ message ∈ history, ¬ message.Refused view) :
    ∃ output, convertMessages view printing replay history = .ok output ∧
      (CarriedOnce view replay history output ↔
        (∀ message ∈ history, message.Handled view replay) ∧
          (∀ message ∈ history, ¬ message.Swallows view replay) ∧
          ¬ RepeatsDeferred view replay history) := by
  obtain ⟨output, extra, converted, carried, within, repeats⟩ :=
    convertMessages_accounts view printing replay history accepted
  have deliveredNodup : (history.flatMap (deliveredBy view replay)).Nodup := by
    refine distinct.sublist ?_
    clear distinct accepted converted carried within repeats
    induction history with
    | nil => exact List.Sublist.refl _
    | cons message rest ih => exact (deliveredBy_sublist view replay message).append ih
  have count (block : β) : (carriedBy output).count block =
      (history.flatMap (deliveredBy view replay)).count block + extra.count block := by
    rw [carried, Multiset.count_add, Multiset.coe_count]
  refine ⟨output, converted, fun lossless => ?_, ?_⟩
  · have nothingExtra : extra = 0 := by
      refine Multiset.eq_zero_of_forall_notMem fun block more => ?_
      obtain ⟨message, inHistory, found⟩ := List.mem_flatMap.mp (within block more)
      have twice : 2 ≤ (carriedBy output).count block := by
        have once := List.one_le_count_iff.mpr (within block more)
        have again := Multiset.one_le_count_iff_mem.mpr more
        rw [count]
        omega
      have claimed := lossless message inHistory block
        ((deliveredBy_sublist view replay message).subset found)
      split_ifs at claimed
      · omega
      · have atMost := claimed.2
        omega
    have arrives {message : Message β} (inHistory : message ∈ history) {block : β}
        (member : block ∈ message.blocks)
        (must : (view block).mustArrive (cleanReasoningContent message.reasoningContent) replay
          = true) : block ∈ deliveredBy view replay message := by
      have claimed := lossless message inHistory block member
      rw [if_pos must, count, nothingExtra, Multiset.count_zero, Nat.add_zero] at claimed
      exact (mem_flatMap_deliveredBy view distinct inHistory member).mp
        (List.one_le_count_iff.mp (by omega))
    refine ⟨fun message inHistory block member => ?_, fun message inHistory swallows => ?_,
      fun again => repeats.mpr again nothingExtra⟩
    · by_cases must : (view block).mustArrive
          (cleanReasoningContent message.reasoningContent) replay = true
      · exact handledIn_of_mem view (arrives inHistory member must)
      · have claimed := lossless message inHistory block member
        rw [if_neg must] at claimed
        exact (handledIn_iff_mayBeLeftOut (by simpa using must)).mpr claimed.1
    · obtain ⟨block, before, text, read⟩ := exists_text_of_swallowsText view swallows.2
      have member : block ∈ message.blocks := List.takeWhile_subset _ before
      have found := arrives inHistory member (by rw [read]; rfl)
      rw [deliveredBy, swallows.1] at found
      exact not_mem_of_swallowsText view ((List.nodup_flatMap.mp distinct).1 message inHistory)
        swallows.2 before read found
  · rintro ⟨handled, keeps, once⟩ message inHistory block member
    have nothingExtra : extra = 0 := by
      by_contra something
      exact once (repeats.mp something)
    have atMost : (carriedBy output).count block ≤ 1 := by
      rw [count, nothingExtra, Multiset.count_zero, Nat.add_zero]
      exact List.nodup_iff_count_le_one.mp deliveredNodup block
    split_ifs with must
    · have found := mem_deliveredBy view member (handled message inHistory)
        (keeps message inHistory) must
      have atLeast := List.one_le_count_iff.mpr
        ((mem_flatMap_deliveredBy view distinct inHistory member).mpr found)
      have counted := count block
      omega
    · exact ⟨(handledIn_iff_mayBeLeftOut (by simpa using must)).mp
        (handled message inHistory block member), atMost⟩

end Lossless

/-! ### Histories with their places -/

section Located

/-- A block with its place in the history: the number of its message and its number in it. -/
abbrev LocatedBlock := (Nat × Nat) × Block

/-- The message at `index`, its blocks with their places. -/
def Message.located (index : Nat) (message : Message Block) : Message LocatedBlock :=
  { role := message.role
    content :=
      match message.content with
      | .plain text => .plain text
      | .blocks list => .blocks (list.mapIdx fun number block => ((index, number), block))
    reasoningContent := message.reasoningContent }

/-- The history, its blocks with their places. -/
def located (history : List (Message Block)) : List (Message LocatedBlock) :=
  history.mapIdx Message.located

theorem blocks_located (index : Nat) (message : Message Block) :
    (message.located index).blocks =
      message.blocks.mapIdx fun number block => ((index, number), block) := by
  obtain ⟨role, content, thought⟩ := message
  cases content with
  | plain text => rfl
  | blocks list => rfl

/-- No block is at two places. -/
theorem nodup_located (history : List (Message Block)) :
    ((located history).flatMap Message.blocks).Nodup := by
  have ofMessage {place : Nat × Nat} {block : Block} {index : Nat} {message : Message Block}
      (member : (place, block) ∈ (message.located index).blocks) : place.1 = index := by
    rw [blocks_located] at member
    obtain ⟨number, bound, same⟩ := List.mem_mapIdx.mp member
    exact congrArg (fun located : LocatedBlock => located.1.1) same.symm
  refine List.nodup_flatMap.mpr ⟨fun message member => ?_, ?_⟩
  · obtain ⟨index, bound, rfl⟩ := List.mem_mapIdx.mp member
    rw [blocks_located, List.nodup_iff_injective_get]
    intro first second same
    have numbers := congrArg (fun located : LocatedBlock => located.1.2) same
    refine Fin.ext ?_
    simpa using numbers
  · rw [List.pairwise_iff_getElem]
    intro first second firstBound secondBound before block inFirst inSecond
    rw [located, List.length_mapIdx] at firstBound secondBound
    obtain ⟨place, block⟩ := block
    simp only [located, List.getElem_mapIdx] at inFirst inSecond
    have same := (ofMessage inFirst).symm.trans (ofMessage inSecond)
    omega

/-- `convert_messages` refuses the history, or converts it losslessly: blocks are told apart by
their places. -/
def LosslessOrRefuses (printing : Printing) (replay : ReasoningReplayMode)
    (history : List (Message Block)) : Prop :=
  (∃ text, convertMessages Prod.snd printing replay (located history) =
      .error (.openAIConversionError text)) ∨
    ∃ output, convertMessages Prod.snd printing replay (located history) = .ok output ∧
      Lossless Prod.snd printing replay (located history) output

/-- The printing of an empty object. -/
def emptyObject : Printing := ⟨fun _ => "{}", fun _ => "{}", fun _ => "{}"⟩

/-- A tool call with text after it, and a user turn that answers it and brings a result for an
unknown id. -/
def answeredTwice : List (Message Block) :=
  [{ role := .assistant
     content := .blocks [.toolUse (some "toolu_1") "ls" (.obj []) .null, .text "Listed."]
     reasoningContent := none },
   { role := .user
     content := .blocks [.toolResult (some "toolu_1") (.str "a"),
       .toolResult (some "toolu_9") (.str "b")]
     reasoningContent := none }]

end Located

end ClaudeProxy
