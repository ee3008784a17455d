/-
**The stop reason of a complete response, and its tool calls.**

* `startedCalls` — the native calls that have a block; `NamesCall` — a delta that brings some name.
* **`Tallied`** — the tool blocks of the stream are those of the started calls and of the calls that
  were found in the text; a call is started exactly when some name of it is known.
* **`stopReason_agrees_iff`** — the stop reason comes from the finish reason alone, so it agrees with
  the content exactly when the finish reason does.
-/

import Mathlib.Data.Finset.Card
import ClaudeProxy.Provider.OpenaiFinish

namespace ClaudeProxy

open Json (getKey)
open RecoveryHoldbackBuffer (Outgoing)

/-! ### Started calls -/

/-- The native calls that have a block. -/
def ChatState.startedCalls (state : ChatState) : Finset Int :=
  (state.sse.startedToolStates.map Prod.fst).toFinset

theorem ChatState.mem_startedCalls {state : ChatState} {index : Int} :
    index ∈ state.startedCalls ↔ (state.callAt index).started = true := by
  simp only [startedCalls, List.mem_toFinset, List.mem_map, SseBuilder.startedToolStates,
    List.mem_filter]
  constructor
  · rintro ⟨⟨_, tool⟩, ⟨inside, started⟩, rfl⟩
    rw [callAt, ContentBlockManager.callAt_of_found ((Dict.mem_entries_iff _).mp inside)]
    exact started
  · intro started
    have found := ContentBlockManager.found_of_started started
    exact ⟨(index, _), ⟨(Dict.mem_entries_iff _).mpr found, started⟩, rfl⟩

theorem ChatState.startedCalls_same {state next : ChatState}
    (same : ∀ index, (next.callAt index).started = (state.callAt index).started) :
    next.startedCalls = state.startedCalls := by
  ext index
  rw [mem_startedCalls, mem_startedCalls, same]

/-! ### Names -/

/-- The fragment of a name that the delta brings. -/
def ToolCallDelta.nameFragment (tc : ToolCallDelta) : String :=
  (tc.function.bind FunctionDelta.name).getD ""

/-- The delta brings some name. -/
def ToolCallDelta.NamesCall (tc : ToolCallDelta) : Prop := Py.strip tc.nameFragment ≠ ""

instance (tc : ToolCallDelta) : Decidable tc.NamesCall := inferInstanceAs (Decidable (_ ≠ _))

theorem startsWith_iff {text head : String} :
    Py.startsWith text head = true ↔ ∃ rest, text = head ++ rest := by
  rw [Py.startsWith, decide_eq_true_eq]
  constructor
  · rintro ⟨rest, same⟩
    refine ⟨String.ofList rest, String.toList_injective ?_⟩
    rw [String.toList_append, String.toList_ofList, same]
  · rintro ⟨rest, rfl⟩
    rw [String.toList_append]
    exact List.prefix_append _ _

/-- A name is blank as long as its fragments are. -/
theorem strip_registeredName {name fragment : String} :
    Py.strip (registeredName name fragment) = "" ↔ Py.strip name = "" ∧ Py.strip fragment = "" := by
  unfold registeredName
  split_ifs with restated extended
  · refine ⟨fun blank => ⟨?_, blank⟩, And.right⟩
    rw [Bool.or_eq_true, decide_eq_true_eq, startsWith_iff] at restated
    rcases restated with rfl | ⟨rest, rfl⟩
    · decide
    · exact (Py.strip_append_eq_empty_iff.mp blank).1
  · exact Py.strip_append_eq_empty_iff
  · refine ⟨fun blank => ⟨blank, ?_⟩, And.left⟩
    rw [Bool.not_eq_true', Bool.not_eq_false, startsWith_iff] at extended
    obtain ⟨rest, rfl⟩ := extended
    exact (Py.strip_append_eq_empty_iff.mp blank).1

namespace OpenaiCall

variable {call : OpenaiCall} {late : Int → Prop} {state next : ChatState}

theorem strip_registered {tc : ToolCallDelta} {function : FunctionDelta} {tool : ToolCallState}
    (given : tc.function = some function) :
    Py.strip (registered tc function tool).name = "" ↔
      Py.strip tool.name = "" ∧ ¬ tc.NamesCall := by
  rw [registered_name, ToolCallDelta.NamesCall, not_not, ToolCallDelta.nameFragment, given]
  cases brought : function.name with
  | none =>
    simp only [Option.map_none, Option.getD_none, Option.bind_some, brought]
    exact ⟨fun blank => ⟨blank, by decide⟩, And.left⟩
  | some name =>
    simp only [Option.map_some, Option.getD_some, Option.bind_some, brought]
    exact strip_registeredName

/-! ### The tool blocks of a stream -/

/-- What was pushed, and which calls are started, behind some moves. -/
structure Tallied (deltas : List ToolCallDelta) (detected : Nat) (out : List SseEvent)
    (state : ChatState) : Prop where
  pushed : Outgoing state.yielded state.holdback out
  counted : (toolStarts out).length = state.startedCalls.card + detected
  named : ∀ index, (state.callAt index).started = true ↔ Py.strip (state.callAt index).name ≠ ""
  known : state.startedCalls.Nonempty ↔ ∃ tc ∈ deltas, tc.NamesCall
  content : ∀ event ∈ out, event.isMessageEvent = false

namespace Tallied

variable {deltas : List ToolCallDelta} {detected : Nat} {out events : List SseEvent}

/-- At the start there is no call. -/
theorem fresh (sse : state.sse = call.newSseBuilder)
    (pushed : Outgoing state.yielded state.holdback []) : Tallied [] 0 [] state := by
  have unknown : ∀ index, state.callAt index = ToolCallState.fresh := by
    intro index
    rw [ChatState.callAt, sse]
    rfl
  have none : state.startedCalls = ∅ := by
    refine Finset.eq_empty_of_forall_notMem fun index member => ?_
    rw [ChatState.mem_startedCalls, unknown] at member
    cases member
  refine ⟨pushed, ?_, fun index => ?_, ?_, fun _ member => absurd member List.not_mem_nil⟩
  · rw [none]
    rfl
  · rw [unknown]
    decide
  · rw [none]
    refine iff_of_false Finset.not_nonempty_empty ?_
    rintro ⟨_, member, _⟩
    exact absurd member List.not_mem_nil

/-- The calls stay what they are, and so many others are found. -/
theorem aside {further : Nat} (tallied : Tallied deltas detected out state)
    (aside : Aside state next further) : ∃ events, Tallied deltas (detected + further)
      (out ++ events) next := by
  obtain ⟨events, pushes, starts, -, content⟩ := aside.told
  have started : ∀ index, (next.callAt index).started = (state.callAt index).started := by
    intro index
    rw [aside.calls index]
  have same := ChatState.startedCalls_same started
  refine ⟨events, pushes _ tallied.pushed, ?_, fun index => ?_, ?_, fun event member => ?_⟩
  · rw [toolStarts_append, List.length_append, tallied.counted, starts, same, Nat.add_assoc]
  · rw [started, tallied.named index, aside.calls index]
  · rw [same]
    exact tallied.known
  · exact (List.mem_append.mp member).elim (tallied.content event) (content event)

/-- Argument text for a call tells of no new one. -/
theorem delivers (tallied : Tallied deltas detected out state) {index : Int} {pieces : List String}
    (delivers : Delivers state next index pieces) :
    ∃ events, Tallied deltas detected (out ++ events) next := by
  have rest : ∀ other, (next.callAt other).started = (state.callAt other).started ∧
      (next.callAt other).name = (state.callAt other).name := by
    intro other
    by_cases here : other = index
    · rw [here]
      exact ⟨delivers.started_same, delivers.name_same⟩
    · rw [ChatState.callAt, delivers.revises.others other here]
      exact ⟨rfl, rfl⟩
  have same := ChatState.startedCalls_same fun other => (rest other).1
  refine ⟨_, delivers.moves.pushes _ tallied.pushed, ?_, fun other => ?_, ?_, fun event member => ?_⟩
  · rw [toolStarts_append, toolStarts_pieces, List.append_nil, tallied.counted, same]
  · rw [(rest other).1, (rest other).2]
    exact tallied.named other
  · rw [same]
    exact tallied.known
  · rcases List.mem_append.mp member with isBefore | isPiece
    · exact tallied.content event isBefore
    · obtain ⟨piece, -, rfl⟩ := List.mem_map.mp isPiece
      rfl

end Tallied

/-- A registration: which calls are started stays, and so do the names of the others. -/
theorem registeredState_rest {tc : ToolCallDelta} {function : FunctionDelta} (other : Int) :
    ((registeredState tc function state).callAt other).started = (state.callAt other).started ∧
      (other ≠ toolCallIndex tc state.sse.blocks →
        (registeredState tc function state).callAt other = state.callAt other) := by
  have revises := revises_registerToolCall (toolCallIndex tc state.sse.blocks) tc function
    state.sse.blocks
  refine ⟨?_, fun away => revises.others other away⟩
  by_cases here : other = toolCallIndex tc state.sse.blocks
  · rw [here, callAt_registeredState]
    exact (registered_rest tc function _).1
  · exact congrArg ToolCallState.started (revises.others other here)

/-- **A delta**: its call is started as soon as some name of it is known. -/
theorem Tallied.delta {deltas : List ToolCallDelta} {detected : Nat} {out : List SseEvent}
    {tc : ToolCallDelta} (tallied : Tallied deltas detected out state)
    (ran : call.processToolCall tc state = .ok () next) :
    ∃ events, Tallied (deltas ++ [tc]) detected (out ++ events) next := by
  obtain ⟨function, given, step⟩ := processToolCall_ok ran
  set index := toolCallIndex tc state.sse.blocks with isIndex
  have here := callAt_registeredState tc function state
  rw [← isIndex] at here
  have rest := fun other => @registeredState_rest state tc function other
  rw [← isIndex] at rest
  have startedHere := (rest index).1
  have blank := @strip_registered tc function (state.callAt index) given
  rw [← here] at blank
  have sameCalls : (registeredState tc function state).startedCalls = state.startedCalls :=
    ChatState.startedCalls_same fun other => (rest other).1
  have pushed : Outgoing (registeredState tc function state).yielded
    (registeredState tc function state).holdback out := tallied.pushed
  cases step with
  | passes pieces started delivers _ =>
    rw [startedHere] at started
    have named := (tallied.named index).mp started
    have registered : Tallied (deltas ++ [tc]) detected out (registeredState tc function state) := by
      refine ⟨pushed, ?_, fun other => ?_, ?_, tallied.content⟩
      · rw [sameCalls]
        exact tallied.counted
      · by_cases same : other = index
        · rw [same, startedHere]
          exact iff_of_true started fun nothing => named (blank.mp nothing).1
        · rw [(rest other).2 same]
          exact tallied.named other
      · rw [sameCalls, tallied.known]
        have some : ∃ tc ∈ deltas, tc.NamesCall :=
          tallied.known.mp ⟨index, ChatState.mem_startedCalls.mpr started⟩
        obtain ⟨earlier, inside, names⟩ := some
        exact iff_of_true ⟨earlier, inside, names⟩
          ⟨earlier, List.mem_append_left _ inside, names⟩
    exact registered.delivers delivers
  | begins pieces unstarted named begins _ =>
    have nameless : Py.strip (state.callAt index).name = "" := by
      rw [startedHere] at unstarted
      by_contra known
      exact Bool.false_ne_true (unstarted.symm.trans ((tallied.named index).mpr known))
    have names : tc.NamesCall := by
      by_contra nothing
      exact named (blank.mpr ⟨nameless, nothing⟩)
    have startedNow : (next.callAt index).started = true := by
      rw [begins.same]
      rfl
    have nameNow : (next.callAt index).name = ((registeredState tc function state).callAt index).name := by
      rw [begins.same]
      rfl
    have others : ∀ other, other ≠ index → next.callAt other = state.callAt other :=
      fun other away => (begins.others other away).trans ((rest other).2 away)
    have calls : next.startedCalls = insert index state.startedCalls := by
      ext other
      rw [Finset.mem_insert, ChatState.mem_startedCalls, ChatState.mem_startedCalls]
      by_cases same : other = index
      · rw [same]
        exact iff_of_true startedNow (Or.inl rfl)
      · rw [others other same]
        exact ⟨Or.inr, fun either => either.resolve_left same⟩
    have fresh : index ∉ state.startedCalls := by
      rw [ChatState.mem_startedCalls, ← startedHere, unstarted]
      exact Bool.false_ne_true
    refine ⟨_, begins.moves.pushes _ pushed, ?_, fun other => ?_, ?_, fun event member => ?_⟩
    · rw [toolStarts_append, List.length_append, tallied.counted, calls,
        Finset.card_insert_of_notMem fresh]
      have one : (toolStarts (toolStart (registeredState tc function state).sse.blocks.nextIndex
          (call.startId (registeredState tc function state).pushes
            ((registeredState tc function state).callAt index))
          ((registeredState tc function state).callAt index) ::
          pieces.map (inputDelta (registeredState tc function state).sse.blocks.nextIndex))).length
          = 1 := by
        rw [toolStarts, List.filter_cons_of_pos (startsToolUse_toolStart _ _ _), List.length_cons]
        exact congrArg (fun rest => List.length rest + 1) (toolStarts_pieces _ pieces)
      rw [one]
      omega
    · by_cases same : other = index
      · rw [same, nameNow]
        exact iff_of_true startedNow named
      · rw [others other same]
        exact tallied.named other
    · rw [calls]
      exact iff_of_true (Finset.insert_nonempty _ _)
        ⟨tc, List.mem_append_right _ (List.mem_singleton.mpr rfl), names⟩
    · rcases List.mem_append.mp member with isBefore | isNew
      · exact tallied.content event isBefore
      · rcases List.mem_cons.mp isNew with rfl | isPiece
        · rfl
        · obtain ⟨piece, -, rfl⟩ := List.mem_map.mp isPiece
          rfl
  | waits unstarted unnamed moves revises =>
    have waiting : ∀ other, (next.callAt other).started =
          ((registeredState tc function state).callAt other).started ∧
        (next.callAt other).name = ((registeredState tc function state).callAt other).name := by
      intro other
      by_cases same : other = index
      · rw [same, ChatState.callAt, revises.here]
        exact ⟨rfl, rfl⟩
      · rw [ChatState.callAt, revises.others other same]
        exact ⟨rfl, rfl⟩
    have calls : next.startedCalls = state.startedCalls :=
      (ChatState.startedCalls_same fun other => (waiting other).1).trans sameCalls
    refine ⟨_, moves.pushes _ pushed, ?_, fun other => ?_, ?_, ?_⟩
    · rw [List.append_nil, calls]
      exact tallied.counted
    · rw [(waiting other).1, (waiting other).2]
      by_cases same : other = index
      · rw [same, unstarted]
        exact iff_of_false Bool.false_ne_true (not_not.mpr unnamed)
      · rw [(rest other).2 same]
        exact tallied.named other
    · rw [calls, tallied.known]
      constructor
      · rintro ⟨earlier, inside, names⟩
        exact ⟨earlier, List.mem_append_left _ inside, names⟩
      · rintro ⟨found, inside, names⟩
        rcases List.mem_append.mp inside with isBefore | isLast
        · exact ⟨found, isBefore, names⟩
        · rw [List.mem_singleton.mp isLast] at names
          exact absurd names (blank.mp unnamed).2
    · rw [List.append_nil]
      exact tallied.content

/-- **Over all moves.** -/
theorem tallied_of_runs {before deltas : List ToolCallDelta} {earlier detected : Nat}
    {out : List SseEvent} (tallied : Tallied before earlier out state)
    (runs : Runs call late state deltas detected next) :
    ∃ events, Tallied (before ++ deltas) (earlier + detected) (out ++ events) next := by
  induction runs with
  | start =>
    refine ⟨[], ?_⟩
    rwa [List.append_nil, List.append_nil]
  | aside _ moved ih =>
    obtain ⟨events, before⟩ := ih
    obtain ⟨further, after⟩ := before.aside moved
    rw [Nat.add_assoc, List.append_assoc] at after
    exact ⟨_, after⟩
  | delta _ ran ih =>
    obtain ⟨events, before⟩ := ih
    obtain ⟨further, after⟩ := before.delta ran
    rw [List.append_assoc, List.append_assoc] at after
    exact ⟨_, after⟩
  | flush _ _ _ delivers ih =>
    obtain ⟨events, before⟩ := ih
    obtain ⟨further, after⟩ := before.delivers delivers
    rw [List.append_assoc] at after
    exact ⟨_, after⟩

/-- The whole stream, behind `message_start`. -/
theorem tallied_of_responds {upstream : Upstream} {final : ChatState}
    (responds : Responds call upstream final) :
    ∃ detected out before outputTokens,
      call.detectedCalls ⟨{}, { ids := upstream.ids }⟩ upstream.chunks = .ok detected ∧
      Tallied (upstream.chunks.flatMap ChatChunk.toolCalls) detected out before ∧
      final.sse = before.sse ∧
      final.yielded = out ++
        messageEnd before.sse (mapStopReason (finishReasonOf upstream.chunks)) outputTokens := by
  obtain ⟨opened, ended, detected, flushed, out, before, outputTokens, parts⟩ :=
    parts_of_completes responds (begun_initialState call)
  obtain ⟨events, read⟩ :=
    tallied_of_runs (Tallied.fresh parts.sse parts.outgoing) parts.read
  obtain ⟨later, flush⟩ := tallied_of_runs read parts.flush
  have same : [] ++ events ++ later = out := flush.pushed.sent.symm.trans parts.pushed.sent
  rw [same, List.nil_append, List.append_nil, Nat.zero_add] at flush
  exact ⟨_, out, before, outputTokens, parts.detections, flush, parts.blocks, parts.yielded⟩

/-! ### The stop reason -/

/-- The message has one `message_delta`, and its stop reason is `tool_use` exactly when the message
has a tool block. -/
def StopReasonAgrees (events : List SseEvent) : Prop :=
  ∃ event, events.filter (fun event => decide (event.event = "message_delta")) = [event] ∧
    (getKey ((event.delta.asObj?).getD []) "stop_reason" = .str "tool_use" ↔ toolStarts events ≠ [])

theorem mapStopReason_eq_toolUse {reason : Option String} :
    mapStopReason reason = "tool_use" ↔ reason = some "tool_calls" := by
  unfold mapStopReason
  cases reason with
  | none => decide
  | some reason =>
    dsimp only
    split_ifs with length toolCalls
    · rw [length]
      decide
    · rw [toolCalls]
      decide
    · exact iff_of_false (by decide) fun same => toolCalls (Option.some.inj same)

/-- **The stop reason agrees with the content** exactly when the finish reason does: it is
`tool_calls` if and only if a delta brings some name of a call, or a call is found in the text. -/
theorem stopReason_agrees_iff {upstream : Upstream} {final : ChatState}
    (responds : Responds call upstream final) :
    StopReasonAgrees call.streamResponse.1 ↔
      (finishReasonOf upstream.chunks = some "tool_calls" ↔
        (∃ tc ∈ upstream.chunks.flatMap ChatChunk.toolCalls, tc.NamesCall) ∨
          call.detectedCalls ⟨{}, { ids := upstream.ids }⟩ upstream.chunks ≠ .ok 0) := by
  obtain ⟨detected, out, before, outputTokens, detections, tallied, -, yielded⟩ :=
    tallied_of_responds responds
  set last := before.sse.messageDelta (mapStopReason (finishReasonOf upstream.chunks)) outputTokens
    with isLast
  have response : call.streamResponse.1 =
      call.newSseBuilder.messageStart :: (out ++ [last, SseBuilder.messageStop]) := by
    rw [streamResponse_of_responds responds, yielded]
    rfl
  have plain : out.filter (fun event => decide (event.event = "message_delta")) = [] := by
    refine List.filter_eq_nil_iff.mpr fun event member => ?_
    have content := tallied.content event member
    simp only [SseEvent.isMessageEvent, Bool.or_eq_false_iff, decide_eq_false_iff_not] at content
    rw [decide_eq_true_eq]
    exact content.1.2
  have deltas : call.streamResponse.1.filter (fun event => decide (event.event = "message_delta")) =
      [last] := by
    rw [response, List.filter_cons_of_neg Bool.false_ne_true, List.filter_append, plain]
    rfl
  have starts : toolStarts call.streamResponse.1 = toolStarts out := by
    rw [response, ← List.singleton_append, toolStarts_append, toolStarts_append]
    show [] ++ (toolStarts out ++ []) = _
    rw [List.append_nil, List.nil_append]
  have reason : getKey ((last.delta.asObj?).getD []) "stop_reason" =
      .str (mapStopReason (finishReasonOf upstream.chunks)) := rfl
  have some : toolStarts out ≠ [] ↔
      (∃ tc ∈ upstream.chunks.flatMap ChatChunk.toolCalls, tc.NamesCall) ∨
        call.detectedCalls ⟨{}, { ids := upstream.ids }⟩ upstream.chunks ≠ .ok 0 := by
    rw [← List.length_pos_iff, tallied.counted, detections, ← tallied.known, ← Finset.card_pos,
      Ne, Except.ok.injEq]
    omega
  rw [← some, ← mapStopReason_eq_toolUse, StopReasonAgrees, deltas, starts]
  constructor
  · rintro ⟨event, single, agrees⟩
    cases single
    rw [reason, Json.str.injEq] at agrees
    exact agrees
  · intro agrees
    refine ⟨last, rfl, ?_⟩
    rw [reason, Json.str.injEq]
    exact agrees

/-! ### A provider that sends a script -/

/-- A call whose provider sends these chunks: no tools, no tokenizer, and nothing is decoded. -/
def scripted (chunks : List ChatChunk) : OpenaiCall where
  runtime := {
    loads _ := .error (.jsonDecodeError "Expecting value")
    dumps _ := ""
    checkSchema _ _ := .valid }
  provider := {
    upstream _ _ := .ok ⟨chunks, none⟩
    prepareCreateBody body := .ok body
    getRetryRequestBody _ _ := .ok none
    toolArgumentAliases _ := .ok ∅ }
  encoder := none
  isAlnum := Char.isAlphanum
  tools := []
  body := []
  model := "model"
  inputTokens := 1
  messageId := "msg_1"
  thinkingEnabled := true
  heuristicId _ := "toolu_1"
  toolUuid _ := "1"
  errorMessage _ := .ok "error"
  measured _ _ := ⟨0, 0, 0⟩

/-- A whole call of `Read`, and the finish reason behind it. -/
def readScript (finishReason : String) : List ChatChunk :=
  [⟨[⟨some { toolCalls := [⟨some 0, some "call_1", some ⟨some "Read", some "\x7b\x7d"⟩, none⟩] }, none⟩],
      none⟩,
    ⟨[⟨some {}, some finishReason⟩], none⟩]


/-- The statements have returned. -/
def returned {α : Type} : EStateM.Result UpstreamError ChatState α → Bool
  | .ok _ _ => true
  | .error _ _ => false

/-- A script that is read to its end is a complete response. -/
theorem scripted_responds {chunks : List ChatChunk}
    (ran : returned ((do (scripted chunks).connect; (scripted chunks).finish : Chat Unit)
      (scripted chunks).initialState) = true) :
    ∃ final, Responds (scripted chunks) ⟨chunks, ∅, 0⟩ final := by
  cases result : (do (scripted chunks).connect; (scripted chunks).finish : Chat Unit)
      (scripted chunks).initialState with
  | error error failed =>
    rw [result] at ran
    cases ran
  | ok value final =>
    obtain ⟨⟨⟩, ended, connected, finished⟩ := bind_eq_ok.mp result
    exact ⟨final, .finishes rfl rfl rfl rfl connected finished⟩

/-- A stream that ends with `stop` behind a call: the client reads `end_turn`. -/
theorem stoppedRead_disagrees :
    (∃ final, Responds (scripted (readScript "stop")) ⟨readScript "stop", ∅, 0⟩ final) ∧
      finishReasonOf (readScript "stop") = some "stop" ∧
      ¬ StopReasonAgrees (scripted (readScript "stop")).streamResponse.1 := by
  refine ⟨scripted_responds (by decide +kernel), rfl, ?_⟩
  rintro ⟨event, single, agrees⟩
  have ends : (scripted (readScript "stop")).streamResponse.1.filter
      (fun event => decide (event.event = "message_delta")) =
      [(scripted (readScript "stop")).newSseBuilder.messageDelta "end_turn" 50] := by
    decide +kernel
  rw [ends] at single
  cases single
  exact absurd (agrees.mpr (by decide +kernel)) (by decide)

/-- One that ends with `tool_calls` agrees. -/
theorem calledRead_agrees :
    StopReasonAgrees (scripted (readScript "tool_calls")).streamResponse.1 := by
  obtain ⟨final, responds⟩ := @scripted_responds (readScript "tool_calls") (by decide +kernel)
  exact (stopReason_agrees_iff responds).mpr
    (iff_of_true rfl (Or.inl ⟨_, List.mem_singleton.mpr rfl, by decide⟩))

end OpenaiCall

end ClaudeProxy
