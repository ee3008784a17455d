/-
**The arguments that a client reads of a call that was cut.**

* `Recorded` — the pieces of argument text in the block of a started call are its `contents`;
  **`recorded_of_runs`** — so it is along all moves.
* `completeAll` — the complete arguments as the upstream has sent them: what was received before the
  cut, and the accepted repair behind it.
* **`recoveryEvents_ok`** — recovery sends each call just these.
* `completeAll_received` — no repair request is ever sent, as its body has `stream` twice: recovery ends
  a message only where all arguments were received.
* **`recoveredArguments_obey_iff`** — so they obey the rules of the success path, for the blocks that the
  client takes for a `Task` or for a tool with argument aliases, exactly when the upstream's arguments do.
-/

import ClaudeProxy.Provider.ArgumentAliases
import ClaudeProxy.Provider.OpenaiFragments

namespace ClaudeProxy

open Json (getKey setKey)
open RecoveryHoldbackBuffer (Outgoing)

namespace OpenaiCall

open ContentBlockManager (Revises)

variable {call : OpenaiCall} {late : Int → Prop} {state next : ChatState}

/-! ### The record -/

/-- The state remembers what a client was sent of the arguments. -/
structure Recorded (out : List SseEvent) (state : ChatState) : Prop where
  placed : Placed out state
  sent : ∀ index, (state.callAt index).started = true →
    inputPieces (state.callAt index).blockIndex out = (state.callAt index).contents
  unsent : ∀ index, (state.callAt index).started = false → (state.callAt index).contents = []

/-- No block is told of, no piece is sent to it. -/
theorem inputPieces_of_view {block : Int} {events : List SseEvent}
    (untold : blockView block events = []) : inputPieces block events = [] := by
  rw [← inputPieces_blockView, untold]
  rfl

namespace Recorded

variable {out events : List SseEvent} {index : Int} {pieces : List String}

theorem fresh (sse : state.sse = call.newSseBuilder) : Recorded [] state := by
  have unknown : ∀ other, state.callAt other = ToolCallState.fresh := by
    intro other
    rw [ChatState.callAt, sse]
    rfl
  refine ⟨⟨fun other started => ?_, fun first _ started => ?_, fun _ _ => rfl⟩,
    fun other started => ?_, fun other _ => ?_⟩
  · rw [unknown] at started
    cases started
  · rw [unknown] at started
    cases started
  · rw [unknown] at started
    cases started
  · rw [unknown]
    rfl

/-- The calls stay in their places, with what they have been sent. -/
theorem still (recorded : Recorded out state) (same : SamePlaces state next)
    (contents : ∀ other, (next.callAt other).contents = (state.callAt other).contents)
    (upward : state.sse.blocks.nextIndex ≤ next.sse.blocks.nextIndex)
    (untold : ∀ block, block < state.sse.blocks.nextIndex ∨ next.sse.blocks.nextIndex ≤ block →
      blockView block events = []) : Recorded (out ++ events) next := by
  refine ⟨recorded.placed.still same upward fun block above => untold block (Or.inr above),
    fun other started => ?_, fun other unstarted => ?_⟩
  · rw [(same other).1] at started
    rw [(same other).2, contents, inputPieces_append, recorded.sent other started,
      inputPieces_of_view (untold _ (Or.inl (recorded.placed.below other started))), List.append_nil]
  · rw [(same other).1] at unstarted
    rw [contents, recorded.unsent other unstarted]

/-- A started call hears of further arguments. -/
theorem hears (recorded : Recorded out state) (started : (state.callAt index).started = true)
    (same : (state.callAt index).Same (next.callAt index))
    (revises : Revises state.sse.blocks next.sse.blocks index (next.callAt index))
    (contents : (next.callAt index).contents = (state.callAt index).contents ++ pieces) :
    Recorded (out ++ pieces.map (inputDelta (state.callAt index).blockIndex)) next := by
  have others : ∀ other, other ≠ index → next.callAt other = state.callAt other :=
    fun other away => revises.others other away
  have places : SamePlaces state next := by
    intro other
    by_cases here : other = index
    · rw [here, same]
      exact ⟨rfl, rfl⟩
    · rw [others other here]
      exact ⟨rfl, rfl⟩
  have below := recorded.placed.below index started
  refine ⟨recorded.placed.still places (le_of_eq revises.nextIndex.symm) fun block above => ?_,
    fun other startedOther => ?_, fun other unstarted => ?_⟩
  · rw [revises.nextIndex] at above
    exact blockView_pieces_ne (ne_of_lt (lt_of_lt_of_le below above)) pieces
  · rw [(places other).1] at startedOther
    rw [(places other).2, inputPieces_append, recorded.sent other startedOther]
    by_cases here : other = index
    · rw [here, contents, inputPieces_pieces]
    · rw [others other here]
      have away : (state.callAt index).blockIndex ≠ (state.callAt other).blockIndex := fun blocks =>
        here (recorded.placed.apart index other started startedOther blocks).symm
      rw [inputPieces_of_view (blockView_pieces_ne away pieces), List.append_nil]
  · rw [(places other).1] at unstarted
    by_cases here : other = index
    · rw [here, started] at unstarted
      cases unstarted
    · rw [others other here]
      exact recorded.unsent other unstarted

theorem delivers (recorded : Recorded out state) (started : (state.callAt index).started = true)
    (delivers : Delivers state next index pieces) :
    Recorded (out ++ pieces.map (inputDelta (state.callAt index).blockIndex)) next :=
  recorded.hears started delivers.same delivers.revises delivers.contents

/-- A call is started. -/
theorem begins {toolId : String} (recorded : Recorded out state)
    (unstarted : (state.callAt index).started = false)
    (begins : Begins state next index toolId pieces) :
    Recorded (out ++ toolStart state.sse.blocks.nextIndex toolId (state.callAt index) ::
      pieces.map (inputDelta state.sse.blocks.nextIndex)) next := by
  refine ⟨recorded.placed.begins begins, fun other started => ?_, fun other stopped => ?_⟩
  · by_cases here : other = index
    · have block : (next.callAt index).blockIndex = state.sse.blocks.nextIndex := by
        rw [begins.same]
        rfl
      rw [here, block, begins.contents, recorded.unsent index unstarted, inputPieces_append,
        inputPieces_of_view (recorded.placed.unseen _ le_rfl),
        inputPieces_told (startsToolUse_toolStart _ _ _)]
    · rw [begins.others other here] at started ⊢
      have below := recorded.placed.below other started
      rw [inputPieces_append, recorded.sent other started, inputPieces_of_view, List.append_nil]
      rw [blockView_start, if_neg (ne_of_gt below)]
  · by_cases here : other = index
    · have started : (next.callAt index).started = true := by
        rw [begins.same]
        rfl
      rw [here, started] at stopped
      cases stopped
    · rw [begins.others other here] at stopped ⊢
      exact recorded.unsent other stopped

/-- Nothing is told. -/
theorem quiet (recorded : Recorded out state) (same : SamePlaces state next)
    (contents : ∀ other, (next.callAt other).contents = (state.callAt other).contents)
    (nextIndex : next.sse.blocks.nextIndex = state.sse.blocks.nextIndex) : Recorded out next := by
  have still := @still _ _ _ [] recorded same contents (le_of_eq nextIndex.symm) fun _ _ => rfl
  rwa [List.append_nil] at still

/-- **A delta.** -/
theorem delta {tc : ToolCallDelta} (recorded : Recorded out state)
    (ran : call.processToolCall tc state = .ok () next) :
    ∃ events, Recorded (out ++ events) next ∧ ChatMoves state next events := by
  obtain ⟨function, -, step⟩ := processToolCall_ok ran
  have revises := revises_registerToolCall (toolCallIndex tc state.sse.blocks) tc function
    state.sse.blocks
  have rest := registered_rest tc function (state.callAt (toolCallIndex tc state.sse.blocks))
  have registered : Recorded out (registeredState tc function state) := by
    refine recorded.quiet (samePlaces_registeredState tc function) (fun other => ?_) revises.nextIndex
    by_cases here : other = toolCallIndex tc state.sse.blocks
    · rw [here, callAt_registeredState]
      exact rest.2.2.2.2
    · exact congrArg ToolCallState.contents (revises.others other here)
  have silent : ChatMoves state (registeredState tc function state) [] := ChatMoves.of_same rfl rfl rfl
  cases step with
  | passes pieces started delivers _ =>
    exact ⟨_, registered.delivers started delivers, silent.trans delivers.moves⟩
  | begins pieces unstarted _ begins _ =>
    exact ⟨_, registered.begins unstarted begins, silent.trans begins.moves⟩
  | waits _ _ moves revised =>
    refine ⟨[], ?_, silent.trans moves⟩
    rw [List.append_nil]
    refine registered.quiet (samePlaces_of_waits revised) (fun other => ?_) revised.nextIndex
    by_cases here : other = toolCallIndex tc state.sse.blocks
    · rw [here, ChatState.callAt, revised.here]
    · exact congrArg ToolCallState.contents (revised.others other here)

end Recorded

/-- **Along all moves** the state remembers what was sent. -/
theorem recorded_of_runs {deltas : List ToolCallDelta} {detected : Nat} {out : List SseEvent}
    (runs : Runs call late state deltas detected next)
    (pushed : Outgoing state.yielded state.holdback out) (recorded : Recorded out state) :
    ∃ events, Outgoing next.yielded next.holdback (out ++ events) ∧ Recorded (out ++ events) next := by
  induction runs with
  | start =>
    refine ⟨[], ?_⟩
    rw [List.append_nil]
    exact ⟨pushed, recorded⟩
  | aside _ aside ih =>
    obtain ⟨events, before, here⟩ := ih
    obtain ⟨told, pushes, -, view, -⟩ := aside.told
    refine ⟨events ++ told, ?_⟩
    rw [← List.append_assoc]
    refine ⟨pushes _ before, here.still (fun other => ?_) aside.contents aside.upward view⟩
    rw [aside.calls other]
    exact ⟨rfl, rfl⟩
  | delta _ ran ih =>
    obtain ⟨events, before, here⟩ := ih
    obtain ⟨further, after, moves⟩ := here.delta ran
    refine ⟨events ++ further, ?_⟩
    rw [← List.append_assoc]
    exact ⟨moves.pushes _ before, after⟩
  | @flush _ _ middle _ index pieces _ _ started delivers ih =>
    obtain ⟨events, before, here⟩ := ih
    refine ⟨events ++ pieces.map (inputDelta (middle.callAt index).blockIndex), ?_⟩
    rw [← List.append_assoc]
    exact ⟨delivers.moves.pushes _ before, here.delivers started delivers⟩

/-! ### The repair -/

section Complete

variable (call : OpenaiCall)

/-- The first of the answers to a repair request that is accepted: its suffix. -/
def acceptedRepair (toolName pre : String) (recoveryBody : Body) :
    (attempts requests : Nat) → Option (String × Nat)
  | 0, _ => none
  | attempts + 1, requests =>
    match call.collectRecoveryText recoveryBody midstreamRecoveryAttempts none requests with
    | (.error _, _) => none
    | (.ok (text, _), requests) =>
      match acceptToolJsonRepair call.runtime call.schemas pre text toolName with
      | .error _ => none
      | .ok (some (suffix, _)) => some (suffix, requests)
      | .ok none => acceptedRepair toolName pre recoveryBody attempts requests

/-- The complete arguments of a call, as the upstream has sent them: what was received before the
cut, and the accepted repair behind it. -/
def completeArgs (body : Body) (tool : ToolCallState) (aliasBuffer : Option String)
    (requests : Nat) : Option (String × Nat) :=
  let pre := repairPrefix tool aliasBuffer
  match parseCompleteToolInput call.runtime call.schemas pre tool.name with
  | .error _ => none
  | .ok (some _) => some (pre, requests)
  | .ok none =>
    (call.acceptedRepair tool.name pre (makeToolRepairBody call.runtime body tool.name pre
      ((call.schemas.get? tool.name).map ToolSchema.inputSchema)) midstreamRecoveryAttempts
      requests).map fun repair => (pre ++ repair.1, repair.2)

/-- Those of the calls that are left. -/
def completeAll (body : Body) (aliasBuffers : Dict Int String) :
    List (Int × ToolCallState) → (requests : Nat) → List (Int × String)
  | [], _ => []
  | (index, tool) :: rest, requests =>
    match call.completeArgs body tool (aliasBuffers.get? index) requests with
    | none => []
    | some (text, requests) => (index, text) :: completeAll body aliasBuffers rest requests

end Complete

theorem askForText_ok {body : Body} {texts : String × String}
    (ran : call.askForText body state = .ok texts next) :
    call.collectRecoveryText body midstreamRecoveryAttempts none state.requests =
        (.ok texts, next.requests) ∧ next = { state with requests := next.requests } := by
  unfold askForText requesting at ran
  rcases asked : call.collectRecoveryText body midstreamRecoveryAttempts none state.requests with
    ⟨_ | given, requests⟩
  · simp only [asked] at ran
    cases ran
  · simp only [asked] at ran
    cases ran
    exact ⟨rfl, rfl⟩

theorem askForRepair_ok {toolName pre suffix : String} {recoveryBody : Body} {attempts : Nat}
    (ran : call.askForRepair toolName pre recoveryBody attempts state = .ok (some suffix) next) :
    call.acceptedRepair toolName pre recoveryBody attempts state.requests =
        some (suffix, next.requests) ∧ next = { state with requests := next.requests } := by
  induction attempts generalizing state with
  | zero => cases ran
  | succ attempts ih =>
    unfold askForRepair at ran
    obtain ⟨⟨text, thinking⟩, asked, answered, checked⟩ := bind_eq_ok.mp ran
    obtain ⟨collected, isAsked⟩ := askForText_ok answered
    dsimp only at checked
    obtain ⟨accepted, middle, accepts, rest⟩ := bind_eq_ok.mp checked
    obtain ⟨repair, rfl⟩ := raising_eq_ok.mp accepts
    rw [acceptedRepair, collected]
    dsimp only
    rw [repair]
    rcases accepted with _ | ⟨given, parsed⟩
    · obtain ⟨later, isNext⟩ := ih rest
      refine ⟨later, ?_⟩
      rw [isNext, isAsked]
    · cases rest
      exact ⟨rfl, isAsked⟩

/-- What is sent already, and what is missing, are the complete arguments. -/
theorem missingArgs_ok {tool : ToolCallState} {aliasBuffer : Option String} {missing : String}
    (ran : call.missingArgs tool aliasBuffer state = .ok (some missing) next) :
    call.completeArgs state.body tool aliasBuffer state.requests =
        some (Py.join "" tool.contents ++ missing, next.requests) ∧
      next = { state with requests := next.requests } := by
  have begins : Py.join "" tool.contents ≠ "" →
      repairPrefix tool aliasBuffer = Py.join "" tool.contents := fun some => if_pos some
  unfold missingArgs at ran
  obtain ⟨parsed, middle, parses, rest⟩ := bind_eq_ok.mp ran
  obtain ⟨isParsed, rfl⟩ := raising_eq_ok.mp parses
  unfold completeArgs
  dsimp only
  rw [isParsed]
  cases parsed with
  | some fields =>
    cases rest
    refine ⟨?_, rfl⟩
    by_cases empty : Py.join "" tool.contents = ""
    · rw [if_pos empty, empty, String.empty_append]
    · rw [if_neg empty, String.append_empty, begins empty]
  | none =>
    dsimp only at rest
    rw [get_bind_eq_ok] at rest
    obtain ⟨accepted, asked, repaired, last⟩ := bind_eq_ok.mp rest
    cases accepted with
    | none => cases last
    | some suffix =>
      obtain ⟨accepts, isNext⟩ := askForRepair_ok repaired
      cases last
      refine ⟨?_, isNext⟩
      rw [accepts, Option.map_some]
      by_cases empty : Py.join "" tool.contents = ""
      · rw [if_pos empty, empty, String.empty_append]
      · rw [if_neg empty, begins empty]

/-- What recovery leaves alone. -/
structure Adjusts (state next : ChatState) : Prop where
  reading : next.reading = state.reading
  yielded : next.yielded = state.yielded
  holdback : next.holdback = state.holdback
  body : next.body = state.body
  aliasBuffers : next.aliasBuffers = state.aliasBuffers
  calls : ∀ index, (state.callAt index).Same (next.callAt index)

theorem Adjusts.trans {middle : ChatState} (first : Adjusts state middle)
    (second : Adjusts middle next) : Adjusts state next :=
  ⟨second.reading.trans first.reading, second.yielded.trans first.yielded,
    second.holdback.trans first.holdback, second.body.trans first.body,
    second.aliasBuffers.trans first.aliasBuffers,
    fun index => (first.calls index).trans (second.calls index)⟩

/-- One call hears of what is missing. -/
theorem repairDelta_ok {out events : List SseEvent} {index : Int} {missing : String}
    (recorded : Recorded out state) (started : (state.callAt index).started = true)
    (ran : repairDelta index missing state = .ok events next) :
    Recorded (out ++ events) next ∧ Adjusts state next ∧ next.requests = state.requests ∧
      Py.join "" (next.callAt index).contents =
        Py.join "" (state.callAt index).contents ++ missing ∧
      (∀ other, other ≠ index → next.callAt other = state.callAt other) ∧ toolStarts events = [] := by
  unfold repairDelta at ran
  split_ifs at ran with empty
  · cases ran
    rw [List.append_nil, empty, String.append_empty]
    exact ⟨recorded, ⟨rfl, rfl, rfl, rfl, rfl, fun _ => rfl⟩, rfl, rfl, fun _ _ => rfl, rfl⟩
  · have found := ContentBlockManager.found_of_started started
    rw [toolDelta_eq found] at ran
    cases ran
    set next : ChatState := { state with
      sse := (SseBuilder.emitToolDelta index (state.callAt index) missing state.sse).2 } with isNext
    have revises : Revises state.sse.blocks next.sse.blocks index
        { state.callAt index with contents := (state.callAt index).contents ++ [missing] } :=
      ContentBlockManager.revises_setToolState _
    have here : next.callAt index =
        { state.callAt index with contents := (state.callAt index).contents ++ [missing] } :=
      revises.here
    have others : ∀ other, other ≠ index → next.callAt other = state.callAt other :=
      fun other away => revises.others other away
    have calls : ∀ other, (state.callAt other).Same (next.callAt other) := by
      intro other
      by_cases same : other = index
      · rw [same, here]
        rfl
      · rw [others other same]
        rfl
    have contents : (next.callAt index).contents = (state.callAt index).contents ++ [missing] := by
      rw [here]
    have heard := recorded.hears started (calls index) (by rw [here]; exact revises) contents
    have joined : Py.join "" (next.callAt index).contents =
        Py.join "" (state.callAt index).contents ++ missing := by
      rw [contents, Py.join_concat]
    exact ⟨heard, ⟨rfl, rfl, rfl, rfl, rfl, calls⟩, rfl, joined, others, rfl⟩

/-- **The repair sends each call its complete arguments.** -/
theorem repairOpenaiToolArgs_ok {tools : List (Int × ToolCallState)} {out events : List SseEvent}
    (recorded : Recorded out state) (distinct : (tools.map Prod.fst).Nodup)
    (started : ∀ entry ∈ tools, state.callAt entry.1 = entry.2 ∧ entry.2.started = true)
    (ran : call.repairOpenaiToolArgs tools state = .ok (some events) next) :
    Recorded (out ++ events) next ∧ Adjusts state next ∧ toolStarts events = [] ∧
      (∀ other, other ∉ tools.map Prod.fst → next.callAt other = state.callAt other) ∧
      call.completeAll state.body state.aliasBuffers tools state.requests =
        tools.map fun entry => (entry.1, Py.join "" (next.callAt entry.1).contents) := by
  induction tools generalizing state out events with
  | nil =>
    unfold repairOpenaiToolArgs at ran
    rw [get_bind_eq_ok] at ran
    obtain ⟨complete, middle, checks, rest⟩ := bind_eq_ok.mp ran
    obtain ⟨-, rfl⟩ := raising_eq_ok.mp checks
    cases complete with
    | false => cases rest
    | true =>
      cases rest
      rw [List.append_nil]
      exact ⟨recorded, ⟨rfl, rfl, rfl, rfl, rfl, fun _ => rfl⟩, rfl, fun _ _ => rfl, rfl⟩
  | cons entry rest ih =>
    obtain ⟨index, tool⟩ := entry
    rw [List.map_cons, List.nodup_cons] at distinct
    obtain ⟨isTool, isStarted⟩ := started (index, tool) List.mem_cons_self
    dsimp only at isTool isStarted
    unfold repairOpenaiToolArgs at ran
    rw [get_bind_eq_ok] at ran
    obtain ⟨missing, asked, misses, sends⟩ := bind_eq_ok.mp ran
    cases missing with
    | none => cases sends
    | some missing =>
      obtain ⟨first, told, tells, others⟩ := bind_eq_ok.mp sends
      obtain ⟨later, last, repairs, joined⟩ := bind_eq_ok.mp others
      cases later with
      | none => cases joined
      | some later =>
        cases joined
        obtain ⟨complete, isAsked⟩ := missingArgs_ok misses
        have askedCalls : ∀ other, asked.callAt other = state.callAt other := by
          intro other
          rw [isAsked]
          rfl
        have askedRecorded : Recorded out asked := by
          rw [isAsked]
          exact ⟨⟨recorded.placed.below, recorded.placed.apart, recorded.placed.unseen⟩,
            recorded.sent, recorded.unsent⟩
        have asks : Adjusts state asked := by
          rw [isAsked]
          exact ⟨rfl, rfl, rfl, rfl, rfl, fun _ => rfl⟩
        obtain ⟨heard, adjusts, requests, text, away, silent⟩ := repairDelta_ok askedRecorded
          (by rw [askedCalls, isTool]; exact isStarted) tells
        have ready : ∀ entry ∈ rest, told.callAt entry.1 = entry.2 ∧ entry.2.started = true := by
          intro entry inside
          have different : entry.1 ≠ index := fun same =>
            distinct.1 (same ▸ List.mem_map.mpr ⟨entry, inside, rfl⟩)
          obtain ⟨isEntry, began⟩ := started entry (List.mem_cons_of_mem _ inside)
          exact ⟨by rw [away _ different, askedCalls, isEntry], began⟩
        obtain ⟨all, adjustsAll, silentAll, untouched, rests⟩ := ih heard distinct.2 ready repairs
        rw [List.append_assoc] at all
        refine ⟨all, (asks.trans adjusts).trans adjustsAll, ?_, fun other outside => ?_, ?_⟩
        · rw [toolStarts_append, silent, silentAll]
          rfl
        · rw [List.map_cons, List.mem_cons, not_or] at outside
          rw [untouched other outside.2, away other outside.1, askedCalls]
        · rw [completeAll, complete]
          dsimp only
          have unchanged : told.body = state.body ∧ told.aliasBuffers = state.aliasBuffers :=
            ⟨(asks.trans adjusts).body, (asks.trans adjusts).aliasBuffers⟩
          rw [unchanged.1, unchanged.2, requests] at rests
          rw [rests, List.map_cons, untouched index distinct.1, text, askedCalls, isTool]

/-! ### Recovery of tool calls -/

/-- Complete calls are sent nothing more. -/
theorem completeAll_of_complete {body : Body} {aliasBuffers : Dict Int String}
    (nothing : ∀ value, call.runtime.loads "" ≠ .ok value) {tools : List (Int × ToolCallState)}
    (complete : call.allComplete tools = .ok true) (requests : Nat) :
    call.completeAll body aliasBuffers tools requests =
      tools.map fun entry => (entry.1, Py.join "" entry.2.contents) := by
  induction tools with
  | nil => rfl
  | cons entry rest ih =>
    obtain ⟨index, tool⟩ := entry
    rw [allComplete] at complete
    cases parsed : parseCompleteToolInput call.runtime call.schemas (Py.join "" tool.contents)
        tool.name with
    | error error =>
      simp only [parsed] at complete
      cases complete
    | ok result =>
      cases result with
      | none =>
        simp only [parsed] at complete
        cases complete
      | some fields =>
        simp only [parsed] at complete
        have some : Py.join "" tool.contents ≠ "" := by
          intro empty
          rw [empty] at parsed
          unfold parseCompleteToolInput Runtime.loadsOrNone at parsed
          cases loaded : call.runtime.loads "" with
          | ok value => exact nothing value loaded
          | error error =>
            rw [loaded] at parsed
            cases error <;> cases parsed
        have pre : repairPrefix tool (aliasBuffers.get? index) = Py.join "" tool.contents :=
          if_pos some
        rw [completeAll, completeArgs, pre]
        simp only [parsed]
        rw [ih complete, List.map_cons]

theorem blockView_stops (block : Int) (stopped : List Int) :
    blockView block (stopped.map contentBlockStop) = [] := by
  refine List.filter_eq_nil_iff.mpr fun event member => ?_
  obtain ⟨other, -, rfl⟩ := List.mem_map.mp member
  simp [SseEvent.tells]

theorem endMessage_ok {stopReason : String} {ending : List SseEvent}
    (ran : call.endMessage stopReason state = .ok ending next) :
    Adjusts state next ∧ (∀ index, next.callAt index = state.callAt index) ∧
      state.sse.blocks.nextIndex ≤ next.sse.blocks.nextIndex ∧
      (∀ block, blockView block ending = []) ∧ toolStarts ending = [] := by
  unfold endMessage at ran
  obtain ⟨closed, middle, closes, rest⟩ := bind_eq_ok.mp ran
  cases closes
  rw [get_bind_eq_ok] at rest
  obtain ⟨tokens, last, counts, joined⟩ := bind_eq_ok.mp rest
  obtain ⟨-, rfl⟩ := raising_eq_ok.mp counts
  cases joined
  have calls : ∀ index, ChatState.callAt { state with sse := (SseBuilder.closeAllBlocks state.sse).2 }
      index = state.callAt index := by
    intro index
    rw [ChatState.callAt, ContentBlockManager.callAt, closeAllBlocks_besides.calls]
    rfl
  refine ⟨⟨rfl, rfl, rfl, rfl, rfl, fun index => ?_⟩, calls, closeAllBlocks_besides.upward _,
    fun block => ?_, ?_⟩
  · rw [calls]
    rfl
  · rw [blockView_append, SseBuilder.closeAllBlocks_events, blockView_stops]
    rfl
  · rw [toolStarts_append, List.length_eq_zero_iff.mp (closeAllBlocks_besides.starts state.sse)]
    rfl

/-- What recovery has sent, behind a cut at which some call was started. -/
theorem recoveryEvents_ok {error : UpstreamError} {out events : List SseEvent}
    (nothing : ∀ value, call.runtime.loads "" ≠ .ok value) (recorded : Recorded out state)
    (tools : state.sse.blocks.hasEmittedToolBlock = true)
    (ran : call.recoveryEvents error state = .ok (some events) next) :
    isRetryableStreamError error = true ∧ Adjusts state next ∧ Recorded (out ++ events) next ∧
      toolStarts events = [] ∧
      call.completeAll state.body state.aliasBuffers state.sse.startedToolStates state.requests =
        state.sse.startedToolStates.map fun entry =>
          (entry.1, Py.join "" (next.callAt entry.1).contents) := by
  unfold recoveryEvents at ran
  obtain ⟨result, prepared, prepares, ends⟩ := bind_eq_ok.mp ran
  cases result with
  | none => cases ends
  | some pair =>
    obtain ⟨sent, stopReason⟩ := pair
    obtain ⟨ending, last, closes, joined⟩ := bind_eq_ok.mp ends
    cases joined
    obtain ⟨closing, calls, upward, silent, noStart⟩ := endMessage_ok closes
    have started : ∀ entry ∈ state.sse.startedToolStates,
        state.callAt entry.1 = entry.2 ∧ entry.2.started = true := by
      intro entry member
      obtain ⟨inside, isStarted⟩ := List.mem_filter.mp member
      exact ⟨ContentBlockManager.callAt_of_found ((Dict.mem_entries_iff _).mp inside), isStarted⟩
    have distinct : (state.sse.startedToolStates.map Prod.fst).Nodup :=
      state.sse.blocks.toolStates.nodupKeys.sublist (List.filter_sublist.map _)
    have repaired : isRetryableStreamError error = true ∧ Adjusts state prepared ∧
        Recorded (out ++ sent) prepared ∧ toolStarts sent = [] ∧
        call.completeAll state.body state.aliasBuffers state.sse.startedToolStates state.requests =
          state.sse.startedToolStates.map fun entry =>
            (entry.1, Py.join "" (prepared.callAt entry.1).contents) := by
      unfold preparedRecovery at prepares
      rw [get_bind_eq_ok] at prepares
      by_cases retryable : isRetryableStreamError error = false
      · rw [if_pos retryable] at prepares
        cases prepares
      · rw [if_neg retryable, if_pos tools] at prepares
        refine ⟨(Bool.not_eq_false _).mp retryable, ?_⟩
        obtain ⟨complete, middle, checks, rest⟩ := bind_eq_ok.mp prepares
        obtain ⟨checked, same⟩ := raising_eq_ok.mp checks
        rw [same] at rest
        cases complete with
        | true =>
          cases rest
          have all : call.allComplete state.sse.startedToolStates = .ok true := by
            unfold allStartedToolsComplete at checked
            split_ifs at checked
            · cases checked
            · exact checked
          refine ⟨⟨rfl, rfl, rfl, rfl, rfl, fun _ => rfl⟩, by rwa [List.append_nil], rfl, ?_⟩
          rw [completeAll_of_complete nothing all]
          refine List.map_congr_left fun entry member => ?_
          rw [(started entry member).1]
        | false =>
          obtain ⟨repairs, after, repaired, given⟩ := bind_eq_ok.mp rest
          cases repairs with
          | none => cases given
          | some repairs =>
            cases given
            obtain ⟨heard, adjusts, silent, -, texts⟩ :=
              repairOpenaiToolArgs_ok recorded distinct started repaired
            exact ⟨adjusts, heard, silent, texts⟩
    obtain ⟨retryable, adjusts, heard, quiet, texts⟩ := repaired
    refine ⟨retryable, adjusts.trans closing, ?_, ?_, ?_⟩
    · rw [← List.append_assoc]
      refine heard.still (fun index => ?_) (fun index => ?_) upward fun block _ => silent block
      · rw [calls]
        exact ⟨rfl, rfl⟩
      · rw [calls]
    · rw [toolStarts_append, quiet, noStart]
      rfl
    · rw [texts]
      refine List.map_congr_left fun entry _ => ?_
      rw [calls]

/-! ### Recovery requests -/

/-- The hooks of the repository's transports: the body that is sent has `stream` if it was given so, and
nothing is asked again after a `TypeError`. -/
structure KeepsStream (provider : ChatProvider) : Prop where
  prepares : ∀ body, ∃ prepared, provider.prepareCreateBody body = .ok prepared ∧
    ((Assoc.get? "stream" body).isSome = true → (Assoc.get? "stream" prepared).isSome = true)
  refuses : ∀ message body, provider.getRetryRequestBody (.python (.typeError message)) body = .ok none

/-- A recovery body has `stream`. -/
theorem stream_toolRepairBody (body : Body) (toolName pre : String) (inputSchema : Option Body) :
    (Assoc.get? "stream" (makeToolRepairBody call.runtime body toolName pre inputSchema)).isSome =
      true := by
  unfold makeToolRepairBody recoveryBody setKey
  rw [Assoc.get?_set_ne (by decide), Assoc.get?_set_self]
  rfl

/-- **It is never sent**: the keyword is given twice. -/
theorem createStream_refused (keeps : KeepsStream call.provider) {body : Body}
    (streams : (Assoc.get? "stream" body).isSome = true) (requests : Nat) :
    ∃ message, call.createStream body requests =
      (.error (.python (.typeError message)), requests) := by
  obtain ⟨prepared, prepares, kept⟩ := keeps.prepares body
  have twice : call.send body requests = (.error (.python (.typeError
      "got multiple values for keyword argument 'stream'")), requests) := by
    unfold send
    rw [prepares]
    exact if_pos (kept streams)
  refine ⟨"got multiple values for keyword argument 'stream'", ?_⟩
  unfold createStream
  rw [twice]
  dsimp only
  rw [keeps.refuses]

theorem collectRecoveryText_refused (keeps : KeepsStream call.provider) {body : Body}
    (streams : (Assoc.get? "stream" body).isSome = true) (attempts requests : Nat) :
    ∃ error, call.collectRecoveryText body (attempts + 1) none requests = (.error error, requests) := by
  obtain ⟨message, refused⟩ := createStream_refused keeps streams requests
  have once : call.collectOnce body requests = (.error (.python (.typeError message)), requests) := by
    unfold collectOnce
    rw [refused]
  refine ⟨.python (.typeError message), ?_⟩
  rw [collectRecoveryText, once]
  rfl

/-- Complete arguments were received. -/
theorem completeArgs_received (keeps : KeepsStream call.provider) {body : Body}
    {tool : ToolCallState} {aliasBuffer : Option String} {requests later : Nat} {text : String}
    (complete : call.completeArgs body tool aliasBuffer requests = some (text, later)) :
    text = repairPrefix tool aliasBuffer := by
  unfold completeArgs at complete
  dsimp only at complete
  split at complete
  · cases complete
  · cases complete
    rfl
  · obtain ⟨repair, accepted, -⟩ := Option.map_eq_some_iff.mp complete
    obtain ⟨error, refused⟩ := collectRecoveryText_refused keeps (stream_toolRepairBody body tool.name
      (repairPrefix tool aliasBuffer) ((call.schemas.get? tool.name).map ToolSchema.inputSchema))
      4 requests
    unfold midstreamRecoveryAttempts at accepted
    rw [acceptedRepair] at accepted
    unfold midstreamRecoveryAttempts at accepted
    rw [refused] at accepted
    cases accepted

/-- **No request completes a call**: what is complete was received before the cut. -/
theorem completeAll_received (keeps : KeepsStream call.provider) {body : Body}
    {aliasBuffers : Dict Int String} {tools : List (Int × ToolCallState)} {requests : Nat}
    {index : Int} {text : String}
    (inside : (index, text) ∈ call.completeAll body aliasBuffers tools requests) :
    ∃ tool, (index, tool) ∈ tools ∧ text = repairPrefix tool (aliasBuffers.get? index) := by
  induction tools generalizing requests with
  | nil => exact absurd inside List.not_mem_nil
  | cons entry rest ih =>
    obtain ⟨other, tool⟩ := entry
    rw [completeAll] at inside
    split at inside
    · exact absurd inside List.not_mem_nil
    · rename_i complete
      rcases List.mem_cons.mp inside with same | later
      · cases same
        exact ⟨tool, List.mem_cons_self, completeArgs_received keeps complete⟩
      · obtain ⟨known, member, received⟩ := ih later
        exact ⟨known, List.mem_cons_of_mem _ member, received⟩

/-! ### A cut that is recovered -/

/-- An attempt that reads its chunks and then breaks off. -/
theorem connect_cut {stream : ChatStream} {body : Body} {requests : Nat}
    {aliases : Dict String (Dict String String)} {error : UpstreamError}
    (created : call.createStream state.body state.requests = (.ok (stream, body), requests))
    (known : call.provider.toolArgumentAliases body = .ok aliases)
    (read : stream.chunks.forM call.handleChunk { state with
      streamOpened := true, body, requests, toolArgumentAliases := aliases } = .ok () next)
    (breaks : stream.ending = some error) : call.connect state = .error error next := by
  have opened : call.readStream stream { state with
      streamOpened := true, body, requests, toolArgumentAliases := aliases } = .error error next := by
    unfold readStream
    rw [breaks]
    show EStateM.bind (stream.chunks.forM call.handleChunk) _ _ = _
    rw [EStateM.bind, read]
    rfl
  have asked : requesting (call.createStream state.body) { state with streamOpened := false } =
      .ok (stream, body) { state with streamOpened := false, requests } := by
    unfold requesting
    dsimp only
    rw [created]
  unfold connect
  show EStateM.bind (requesting (call.createStream state.body)) _ { state with streamOpened := false } = _
  rw [EStateM.bind, asked]
  dsimp only
  rw [known]
  exact opened

/-- **The stream is cut and recovered**: an attempt reads the chunks and is then interrupted, with a
call started, and recovery ends the message; before it, attempts were started over. -/
inductive Salvages (call : OpenaiCall) (upstream : Upstream) (failed recovered : ChatState)
    (events : List SseEvent) : (retries : Nat) → ChatState → Prop
  | recovers {retries requests : Nat} {state : ChatState} {stream : ChatStream} {body : Body}
      {error : UpstreamError} {salvageable : Bool}
      (created : call.createStream state.body state.requests = (.ok (stream, body), requests))
      (chunks : stream.chunks = upstream.chunks)
      (aliases : call.provider.toolArgumentAliases body = .ok upstream.aliases)
      (read : upstream.chunks.forM call.handleChunk { state with
        streamOpened := true, body, requests, toolArgumentAliases := upstream.aliases } =
          .ok () failed)
      (interrupted : call.connect state = .error error failed)
      (asked : call.completeToolSalvageable failed.sse = .ok salvageable)
      (last : startsOver failed error salvageable retries = false)
      (tools : failed.sse.blocks.hasEmittedToolBlock = true)
      (salvaged : call.recoveryEvents error failed = .ok (some events) recovered) :
      Salvages call upstream failed recovered events retries state
  | startsOver {retries : Nat} {state cut : ChatState} {error : UpstreamError} {salvageable : Bool}
      (interrupted : call.connect state = .error error cut)
      (asked : call.completeToolSalvageable cut.sse = .ok salvageable)
      (again : startsOver cut error salvageable (retries + 1) = true)
      (later : Salvages call upstream failed recovered events retries (call.startOver cut)) :
      Salvages call upstream failed recovered events (retries + 1) state

/-- What was written before the cut. -/
def writtenAt (state : ChatState) : List SseEvent :=
  state.yielded ++ state.holdback.flush.1

/-- The name under which the client is shown the tool call of a block. -/
def shownName (block : Int) (events : List SseEvent) : String :=
  ((events.find? fun event => event.startsToolUse && decide (event.mark? = some (.start block))).bind
    fun event => (getKey event.block "name").asStr?).getD ""

/-- Behind the start of a call nothing changes its name. -/
theorem shownName_append (block : Int) (events : List SseEvent) {later : List SseEvent}
    (silent : toolStarts later = []) : shownName block (events ++ later) = shownName block events := by
  have nothing : later.find? (fun event =>
      event.startsToolUse && decide (event.mark? = some (.start block))) = none := by
    refine List.find?_eq_none.mpr fun event member => ?_
    have quiet := List.filter_eq_nil_iff.mp silent event member
    rw [Bool.not_eq_true] at quiet
    rw [quiet]
    exact Bool.false_ne_true
  unfold shownName
  rw [List.find?_append, nothing, Option.or_none]

/-- What the client has received, and what recovery has made of the state at the cut. -/
structure Salvaged (call : OpenaiCall) (upstream : Upstream) (failed recovered : ChatState)
    (sent : List SseEvent) : Prop where
  shown : ∀ block, shownName block sent = shownName block (writtenAt failed)
  aliases : failed.toolArgumentAliases = upstream.aliases
  adjusts : Adjusts failed recovered
  recorded : Recorded sent recovered
  complete : call.completeAll failed.body failed.aliasBuffers failed.sse.startedToolStates
      failed.requests = failed.sse.startedToolStates.map fun entry =>
        (entry.1, Py.join "" (recovered.callAt entry.1).contents)

theorem salvaged_of_salvages {upstream : Upstream} {failed recovered : ChatState}
    {events : List SseEvent} {retries ids : Nat}
    (nothing : ∀ value, call.runtime.loads "" ≠ .ok value)
    (salvages : Salvages call upstream failed recovered events retries state)
    (begun : Begun call ids state) :
    ∃ final, call.streamFrom retries state = .ok () final ∧
      Salvaged call upstream failed recovered final.yielded := by
  induction salvages generalizing ids with
  | @recovers retries requests state stream body error salvageable created chunks aliases read
      interrupted asked last tools salvaged =>
    obtain ⟨detected, parsers, -, runs, -, -⟩ := @runs_of_chunks call (fun _ => False) _ _ _ read
    obtain ⟨out, pushed, recorded⟩ := recorded_of_runs runs begun.outgoing (Recorded.fresh begun.sse)
    rw [List.nil_append] at pushed recorded
    obtain ⟨retryable, adjusts, heard, silent, complete⟩ :=
      recoveryEvents_ok nothing recorded tools salvaged
    have sent : recovered.yielded ++ recovered.holdback.flush.1 ++ events = out ++ events := by
      rw [adjusts.yielded, adjusts.holdback, pushed.flushed]
    refine ⟨{ recovered with
      yielded := recovered.yielded ++ recovered.holdback.flush.1 ++ events
      holdback := recovered.holdback.flush.2 }, ?_, ?_⟩
    · have committed : hasCommittedSseOutput failed.sse = true := by
        rw [hasCommittedSseOutput, tools, Bool.or_true]
      have exits : call.recoverOrFail error failed = .ok () { recovered with
          yielded := recovered.yielded ++ recovered.holdback.flush.1 ++ events
          holdback := recovered.holdback.flush.2 } := by
        rw [recoverOrFail, committed, retryable, salvaged]
        rfl
      rw [streamFrom, interrupted]
      dsimp only
      rw [asked]
      dsimp only
      rw [last]
      exact exits
    · refine ⟨fun block => ?_, aliases_of_runs runs, adjusts, ?_, complete⟩
      · show shownName block (recovered.yielded ++ recovered.holdback.flush.1 ++ events) = _
        rw [adjusts.yielded, adjusts.holdback]
        exact shownName_append block _ silent
      show Recorded (recovered.yielded ++ recovered.holdback.flush.1 ++ events) recovered
      rw [sent]
      exact heard
  | startsOver interrupted asked again _ ih =>
    have kept := keeps_connect.of_error (Kept.fresh begun.sse begun.outgoing begun.aliasBuffers)
      interrupted
    obtain ⟨final, ran, salvaged⟩ := ih (begun_startOver kept again)
    refine ⟨final, ?_, salvaged⟩
    rw [streamFrom, interrupted]
    dsimp only
    rw [asked]
    dsimp only
    rw [again]
    exact ran

/-! ### The rules of the success path -/

/-- The arguments are as the success path sends them: those of a `Task` call run in the foreground,
those of a tool with argument aliases have their original names. -/
structure Obeys (call : OpenaiCall) (aliases : Dict String String) (toolName text : String) :
    Prop where
  task : toolName = "Task" → ∃ fields, call.runtime.loads text = .ok (.obj fields) ∧
    getKey fields "run_in_background" = .bool false
  aliased : toolName ≠ "Task" → aliases.entries ≠ [] →
    ∃ fields, call.runtime.loads text = .ok (.obj fields) ∧
      restoreAliasedToolArgumentValue aliases (.obj fields) = .obj fields

/-- The success path has sent them in one piece: what it makes of some object for a tool of that name. -/
def SentByRule (call : OpenaiCall) (aliases : Dict String String) (tool : ToolCallState)
    (toolName text : String) : Prop :=
  tool.contents = [text] ∧ ∃ fields,
    if toolName = "Task" then ∃ value, normalizeTaskRunInBackground (.obj fields) = .ok value ∧
      text = call.runtime.dumps value
    else text = call.runtime.dumps (restoreAliasedToolArgumentValue aliases (.obj fields))

/-- Normalised arguments run in the foreground. -/
theorem normalizeTaskRunInBackground_ok {fields : List (String × Json)} {value : Json}
    (normalized : normalizeTaskRunInBackground (.obj fields) = .ok value) :
    ∃ args, value = .obj args ∧ getKey args "run_in_background" = .bool false := by
  rw [normalizeTaskRunInBackground] at normalized
  split_ifs at normalized with given
  · cases normalized
    exact ⟨fields, rfl, given⟩
  · cases normalized
    exact ⟨_, rfl, Json.getKey_setKey_self _ _ _⟩

/-- What the success path has sent obeys, as it is read back. -/
theorem obeys_of_sentByRule {aliases : Dict String String} {tool : ToolCallState}
    {toolName text : String} {fields : List (String × Json)}
    (readsBack : ∀ value decoded, call.runtime.loads (call.runtime.dumps value) = .ok decoded →
      decoded = value)
    (originals : KeepsOriginals aliases) (decodes : call.runtime.loads text = .ok (.obj fields))
    (sent : SentByRule call aliases tool toolName text) : Obeys call aliases toolName text := by
  obtain ⟨-, given, rule⟩ := sent
  refine ⟨fun task => ?_, fun other _ => ?_⟩
  · rw [if_pos task] at rule
    obtain ⟨value, normalized, rfl⟩ := rule
    obtain ⟨args, rfl, foreground⟩ := normalizeTaskRunInBackground_ok normalized
    have same := readsBack _ _ decodes
    exact ⟨args, by rw [decodes, same], foreground⟩
  · rw [if_neg other] at rule
    rw [rule] at decodes ⊢
    have same := readsBack _ _ decodes
    exact ⟨fields, decodes, by rw [same]; exact restore_restore originals (.obj given)⟩

/-- Complete arguments are an object. -/
theorem loads_of_complete {text toolName : String} {fields : List (String × Json)}
    (complete : parseCompleteToolInput call.runtime call.schemas text toolName = .ok (some fields)) :
    call.runtime.loads text = .ok (.obj fields) := by
  unfold parseCompleteToolInput Runtime.loadsOrNone at complete
  cases decoded : call.runtime.loads text with
  | error error =>
    rw [decoded] at complete
    cases error <;> cases complete
  | ok value =>
    rw [decoded] at complete
    cases value with
    | obj parsed =>
      dsimp only at complete
      split at complete
      · cases complete
      · cases complete
        rfl
      · cases complete
    | null | bool _ | int _ | float _ | str _ | arr _ => cases complete

theorem acceptedRepair_completes {toolName pre suffix : String} {recoveryBody : Body}
    {attempts requests later : Nat}
    (accepted : call.acceptedRepair toolName pre recoveryBody attempts requests =
      some (suffix, later)) :
    ∃ fields, parseCompleteToolInput call.runtime call.schemas (pre ++ suffix) toolName =
      .ok (some fields) := by
  induction attempts generalizing requests with
  | zero => cases accepted
  | succ attempts ih =>
    rw [acceptedRepair] at accepted
    split at accepted
    · cases accepted
    · split at accepted
      · cases accepted
      · rename_i repair
        cases accepted
        exact ⟨_, acceptToolJsonRepair_completes _ _ repair⟩
      · exact ih accepted

theorem loads_of_completeArgs {body : Body} {tool : ToolCallState} {aliasBuffer : Option String}
    {requests later : Nat} {text : String}
    (complete : call.completeArgs body tool aliasBuffer requests = some (text, later)) :
    ∃ fields, call.runtime.loads text = .ok (.obj fields) := by
  unfold completeArgs at complete
  dsimp only at complete
  split at complete
  · cases complete
  · rename_i parsed
    cases complete
    exact ⟨_, loads_of_complete parsed⟩
  · obtain ⟨⟨suffix, requests⟩, accepted, same⟩ := Option.map_eq_some_iff.mp complete
    cases same
    obtain ⟨fields, completes⟩ := acceptedRepair_completes accepted
    exact ⟨fields, loads_of_complete completes⟩

theorem loads_of_completeAll {body : Body} {aliasBuffers : Dict Int String}
    {tools : List (Int × ToolCallState)} {requests : Nat} {completion : Int × String}
    (inside : completion ∈ call.completeAll body aliasBuffers tools requests) :
    ∃ fields, call.runtime.loads completion.2 = .ok (.obj fields) := by
  induction tools generalizing requests with
  | nil => exact absurd inside List.not_mem_nil
  | cons entry rest ih =>
    obtain ⟨index, tool⟩ := entry
    rw [completeAll] at inside
    split at inside
    · exact absurd inside List.not_mem_nil
    · rename_i complete
      rcases List.mem_cons.mp inside with rfl | isLater
      · exact loads_of_completeArgs complete
      · exact ih isLater

/-! ### The recovered arguments -/

/-- What the client reads of each started call's arguments obeys the rules of the success path, for the name
that the client is shown. -/
def ArgumentsObey (call : OpenaiCall) (aliases : Dict String (Dict String String))
    (final : ChatState) (events : List SseEvent) : Prop :=
  ∀ index, (final.callAt index).started = true →
    let name := shownName (final.callAt index).blockIndex events
    Obeys call ((aliases.get? name).getD ∅) name (inputJson events (final.callAt index).blockIndex)

/-- `json` on some texts and their values. -/
def tableRuntime (table : List (String × Json)) : Runtime where
  loads given := ((Assoc.get? given table).map Except.ok).getD (.error (.jsonDecodeError "Expecting value"))
  dumps given := ((table.find? fun entry => entry.2 = given).map Prod.fst).getD ""
  checkSchema _ _ := .valid

/-- A tool call of that name. -/
def callChunk (name arguments : String) : ChatChunk :=
  ⟨[⟨some { toolCalls := [⟨some 0, some "call_1", some ⟨some name, some arguments⟩, none⟩] }, none⟩],
    none⟩

/-- It is cut behind its arguments, with its block sent. -/
def cutCall (name arguments : String) (table : List (String × Json)) : OpenaiCall :=
  { scripted [] with
    runtime := tableRuntime table
    provider := { (scripted []).provider with
      upstream := fun _ _ => .ok ⟨[callChunk name arguments], some .httpxReadError⟩ }
    measured := fun _ _ => ⟨recoveryBufferMaxBytes, 0, 0⟩ }

/-- The state that statements leave. -/
def left {α : Type} : EStateM.Result UpstreamError ChatState α → ChatState
  | .ok _ state => state
  | .error _ state => state

/-- The events of a recovery. -/
def given : EStateM.Result UpstreamError ChatState (Option (List SseEvent)) →
    Option (List SseEvent)
  | .ok events _ => events
  | .error _ _ => none

section Cut

variable (name arguments : String) (table : List (String × Json))

/-- The chunk loop of the first attempt. -/
def cutLoop : EStateM.Result UpstreamError ChatState Unit :=
  [callChunk name arguments].forM (cutCall name arguments table).handleChunk
    { (cutCall name arguments table).initialState with streamOpened := true, requests := 1 }

/-- What recovery makes of the state behind it. -/
def cutRecovery : EStateM.Result UpstreamError ChatState (Option (List SseEvent)) :=
  (cutCall name arguments table).recoveryEvents .httpxReadError (left (cutLoop name arguments table))

end Cut

/-- It is recovered when both run through. -/
theorem cutCall_salvages {name arguments : String} {table : List (String × Json)}
    (read : returned (cutLoop name arguments table) = true)
    (asked : returned (raising ((cutCall name arguments table).completeToolSalvageable
      (left (cutLoop name arguments table)).sse) (left (cutLoop name arguments table))) = true)
    (sent : (left (cutLoop name arguments table)).holdback.committed = true)
    (tools : (left (cutLoop name arguments table)).sse.blocks.hasEmittedToolBlock = true)
    (recovers : (given (cutRecovery name arguments table)).isSome = true) :
    ∃ events, Salvages (cutCall name arguments table) ⟨[callChunk name arguments], ∅, 0⟩
      (left (cutLoop name arguments table)) (left (cutRecovery name arguments table)) events
      earlyTransparentMaxRetries (cutCall name arguments table).initialState := by
  cases looped : cutLoop name arguments table with
  | error error failed =>
    rw [looped] at read
    cases read
  | ok value failed =>
    cases salvageable : (cutCall name arguments table).completeToolSalvageable failed.sse with
    | error error =>
      rw [looped, left, salvageable] at asked
      cases asked
    | ok salvageable' =>
      cases recovered : cutRecovery name arguments table with
      | error error last =>
        rw [recovered] at recovers
        cases recovers
      | ok events last =>
        cases events with
        | none =>
          rw [recovered] at recovers
          cases recovers
        | some events =>
          rw [looped] at sent tools
          have interrupted : (cutCall name arguments table).connect
              (cutCall name arguments table).initialState = .error .httpxReadError failed :=
            connect_cut rfl rfl looped rfl
          refine ⟨events, .recovers rfl rfl rfl looped interrupted salvageable ?_ tools ?_⟩
          · show startsOver failed .httpxReadError salvageable' _ = false
            rw [startsOver, show failed.holdback.committed = true from sent]
            rfl
          · rw [cutRecovery, looped] at recovered
            exact recovered

/-- A prompt, and the prompt with the place where to run. -/
def promptTable : List (String × Json) :=
  [("\x7b\"prompt\": \"x\"\x7d", .obj [("prompt", .str "x")]),
    ("\x7b\"prompt\": \"x\", \"run_in_background\": false\x7d",
      .obj [("prompt", .str "x"), ("run_in_background", .bool false)])]

/-- `json` on distinct texts reads back what it writes. -/
theorem tableRuntime_readsBack {table : List (String × Json)} (distinct : (table.map Prod.fst).Nodup)
    (some : "" ∉ table.map Prod.fst) (value decoded : Json)
    (read : (tableRuntime table).loads ((tableRuntime table).dumps value) = .ok decoded) :
    decoded = value := by
  unfold tableRuntime at read
  dsimp only at read
  cases known : table.find? fun entry => entry.2 = value with
  | none =>
    rw [known, Option.map_none, Option.getD_none] at read
    cases found : Assoc.get? "" table with
    | none =>
      rw [found] at read
      cases read
    | some given =>
      exact absurd (List.mem_map.mpr ⟨_, Assoc.mem_of_get?_eq_some found, rfl⟩) some
  | some entry =>
    have same : entry.2 = value := by simpa using List.find?_some known
    rw [known, Option.map_some, Option.getD_some,
      Assoc.get?_eq_some_of_mem distinct (List.mem_of_find?_eq_some known)] at read
    cases read
    exact same

end OpenaiCall

end ClaudeProxy
