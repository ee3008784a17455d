/-
**Recovery of an interrupted native stream** (`providers/anthropic_messages.py`).

`upstream number body` is what the provider does with the request of that number: it refuses, or it
opens a stream of events that ends or breaks off. The recovery requests are numbered on from the
request they recover.

* `nativeRecoveryEvents` — `_native_recovery_events`: the events to append, `none` when nothing can
  be recovered, or the exception it raises, with the tracker as it is left;
* `repair_deltas` — the repairs send one delta to each incomplete tool block, open or stopped;
* `recovery_nested_iff` — so the appended events are well nested exactly when every incomplete tool
  block is still open;
* `native_recovery_keeps_nesting_iff` — over every recovery answer.

Events are as the proxy's own reader reads the frames. The tracker knows nothing of a block whose start
it cannot decode (a raw U+0085, U+2028 or U+2029 in a string); such an event has no payload here.
-/

import ClaudeProxy.Sse.BlockPolicy
import ClaudeProxy.Sse.EmittedTracker

namespace ClaudeProxy

open Json (getKey setKey)
open EmittedNativeSseTracker (Tracked Indexed)

/-- What the provider does with a request. -/
inductive Connection where
  | refused (error : UpstreamError)
  | opened (events : List SseEvent) (ending : Option UpstreamError)

/-- The provider, by request number and body. -/
abbrev Upstream := Nat → Body → Connection

section Collect

variable (upstream : Upstream) (thinkingEnabled : Bool)

/-- One recovery request, read to its end through a fresh policy state. -/
def collectChunks (number : Nat) (body : Body) : Except UpstreamError (List SseEvent) :=
  match upstream number body with
  | .refused error => .error error
  | .opened events ending =>
    match transformNativeSseStream thinkingEnabled {} events, ending with
    | .error error, _ => .error (.python error)
    | .ok _, some error => .error error
    | .ok (chunks, _), none => .ok chunks

/-- The parts of one delta member over a stream. -/
def deltaParts (member : String) (events : List SseEvent) : List String :=
  events.filterMap fun event =>
    event.delta.asObj?.bind fun delta => (getKey delta member).asStr?

/-- `_collect_native_recovery_text`, with `attempts` left and the last error: the text and thinking
collected or the exception, and the number of the next request. -/
def collectNativeRecoveryText (body : Body) :
    Nat → Option UpstreamError → Nat → Except UpstreamError (String × String) × Nat
  | 0, some lastError, number => (.error lastError, number)
  | 0, none, number => (.ok ("", ""), number)
  | attempts + 1, _, number =>
    match collectChunks upstream thinkingEnabled number body with
    | .ok chunks =>
      (.ok (Py.join "" (deltaParts "text" chunks), Py.join "" (deltaParts "thinking" chunks)),
        number + 1)
    | .error error =>
      if isRetryableStreamError error then
        collectNativeRecoveryText body attempts (some error) (number + 1)
      else (.error error, number + 1)

end Collect

section Recovery

variable (runtime : Runtime) (schemas : Dict String ToolSchema) (upstream : Upstream)
  (thinkingEnabled : Bool)

/-- A tool block that needs no repair: it has its id and its name, and its input parses. -/
def completeToolBlock (block : EmittedBlockState) : Except PyError Bool :=
  if block.toolId = "" ∨ block.name = "" then .ok false
  else
    match parseCompleteToolInput runtime schemas block.content block.name with
    | .error error => .error error
    | .ok parsed => .ok parsed.isSome

/-- The loop of `can_salvage_tool_use`. -/
def allComplete : List EmittedBlockState → Except PyError Bool
  | [] => .ok true
  | block :: rest =>
    match completeToolBlock runtime schemas block with
    | .error error => .error error
    | .ok true => allComplete rest
    | .ok false => .ok false

/-- `can_salvage_tool_use`. -/
def canSalvageToolUse (tracker : EmittedNativeSseTracker) : Except PyError Bool :=
  if tracker.toolBlocks.isEmpty then .ok false
  else allComplete runtime schemas tracker.toolBlocks

/-- The repair requests for one block, with `attempts` left: the accepted suffix. -/
def askForRepair (block : EmittedBlockState) (recoveryBody : Body) :
    Nat → Nat → Except UpstreamError (Option String) × Nat
  | 0, number => (.ok none, number)
  | attempts + 1, number =>
    match collectNativeRecoveryText upstream thinkingEnabled recoveryBody
      midstreamRecoveryAttempts none number with
    | (.error error, number) => (.error error, number)
    | (.ok (text, _), number) =>
      match acceptToolJsonRepair runtime schemas block.content text block.name with
      | .error error => (.error (.python error), number)
      | .ok (some (suffix, _)) => (.ok (some suffix), number)
      | .ok none => askForRepair block recoveryBody attempts number

/-- What recovery returns or raises, and the tracker it leaves. -/
abbrev Recovered := Except UpstreamError (Option (List SseEvent)) × EmittedNativeSseTracker

/-- The loop over the tool blocks, from block `index` on. -/
def repairToolBlocks (body : Body) :
    Nat → List EmittedBlockState → EmittedNativeSseTracker → Nat → Recovered
  | _, [], tracker, _ => (.ok (some []), tracker)
  | index, block :: rest, tracker, number =>
    match completeToolBlock runtime schemas block with
    | .error error => (.error (.python error), tracker)
    | .ok true => repairToolBlocks body (index + 1) rest tracker number
    | .ok false =>
      let recoveryBody := makeToolRepairBody runtime body block.name block.content
        ((schemas.get? block.name).map ToolSchema.inputSchema)
      match askForRepair runtime schemas upstream thinkingEnabled block recoveryBody
        midstreamRecoveryAttempts number with
      | (.error error, _) => (.error error, tracker)
      | (.ok none, _) => (.ok none, tracker)
      | (.ok (some suffix), number) =>
        let (events, tracker) := tracker.appendToolRepairSuffix index suffix
        match repairToolBlocks body (index + 1) rest tracker number with
        | (.ok (some later), tracker) => (.ok (some (events ++ later)), tracker)
        | failed => failed

/-- The tool branch of `_native_recovery_events`. -/
def repairedToolEvents (body : Body) (tracker : EmittedNativeSseTracker) (number : Nat) :
    Recovered :=
  match repairToolBlocks runtime schemas upstream thinkingEnabled body 0 tracker.toolBlocks
    tracker number with
  | (.ok (some repairs), tracker) =>
    match canSalvageToolUse runtime schemas tracker with
    | .error error => (.error (.python error), tracker)
    | .ok false => (.ok none, tracker)
    | .ok true =>
      let (tail, tracker) := tracker.iterSuccessTail "tool_use"
      (.ok (some (repairs ++ tail)), tracker)
  | failed => failed

/-- The text branch: both suffixes, when there is one. -/
def continuedEvents (tracker : EmittedNativeSseTracker) (text thinking : String) : Recovered :=
  let thinkingSuffix := (continuationSuffix tracker.emittedThinking thinking).getD ""
  let textSuffix := (continuationSuffix tracker.emittedText text).getD ""
  let (thinkingEvents, tracker) := tracker.appendThinkingSuffix thinkingSuffix
  let (textEvents, tracker) := tracker.appendTextSuffix textSuffix
  if thinkingEvents ++ textEvents = [] then (.ok none, tracker)
  else
    let (tail, tracker) := tracker.iterSuccessTail "end_turn"
    (.ok (some (thinkingEvents ++ textEvents ++ tail)), tracker)

/-- `_native_recovery_events`; `number` is the number of the first recovery request. -/
def nativeRecoveryEvents (tools : List RequestTool) (body : Body)
    (tracker : EmittedNativeSseTracker) (error : UpstreamError) (number : Nat) : Recovered :=
  if !isRetryableStreamError error then (.ok none, tracker)
  else if tracker.hasToolBlock then
    repairedToolEvents runtime (toolSchemasByName tools) upstream thinkingEnabled body tracker
      number
  else if tracker.emittedText = "" ∧ tracker.emittedThinking = "" then (.ok none, tracker)
  else
    match collectNativeRecoveryText upstream thinkingEnabled
      (makeTextRecoveryBody body tracker.emittedText) midstreamRecoveryAttempts none number with
    | (.error error, _) => (.error error, tracker)
    | (.ok (text, thinking), _) => continuedEvents tracker text thinking

/-! ### Complete and repairable blocks -/

/-- A block whose input can be had: it is complete, or some recovery text is accepted for it. -/
def Obtainable (block : EmittedBlockState) : Prop :=
  completeToolBlock runtime schemas block = .ok true ∨
    completeToolBlock runtime schemas block = .ok false ∧ ∃ text suffix parsed,
      acceptToolJsonRepair runtime schemas block.content text block.name =
        .ok (some (suffix, parsed))

/-- An obtainable block of a named tool, with its call's id. -/
def Salvageable (block : EmittedBlockState) : Prop :=
  block.toolId ≠ "" ∧ block.name ≠ "" ∧ Obtainable runtime schemas block

variable {runtime schemas upstream thinkingEnabled}

theorem completeToolBlock_of_parsed {block : EmittedBlockState} {parsed : List (String × Json)}
    (hasId : block.toolId ≠ "") (hasName : block.name ≠ "")
    (parses : parseCompleteToolInput runtime schemas block.content block.name =
      .ok (some parsed)) : completeToolBlock runtime schemas block = .ok true := by
  rw [completeToolBlock, if_neg (not_or.mpr ⟨hasId, hasName⟩), parses]
  rfl

theorem named_of_complete {block : EmittedBlockState}
    (complete : completeToolBlock runtime schemas block = .ok true) :
    block.toolId ≠ "" ∧ block.name ≠ "" := by
  unfold completeToolBlock at complete
  split_ifs at complete with unnamed
  · cases complete
  · exact not_or.mp unnamed

theorem allComplete_iff {blocks : List EmittedBlockState} :
    allComplete runtime schemas blocks = .ok true ↔
      ∀ block ∈ blocks, completeToolBlock runtime schemas block = .ok true := by
  induction blocks with
  | nil => simp [allComplete]
  | cons block rest ih =>
    rw [List.forall_mem_cons, allComplete]
    rcases found : completeToolBlock runtime schemas block with error | _ | _
    · simp
    · simp
    · simp [ih]

theorem append_content (block : EmittedBlockState) (suffix : String) :
    (block.append suffix).content = block.content ++ suffix :=
  Py.join_concat block.parts suffix

/-- The suffix accepted for an incomplete named block is not empty. -/
theorem accepted_ne_empty {block : EmittedBlockState} {text suffix : String}
    {parsed : List (String × Json)} (hasId : block.toolId ≠ "") (hasName : block.name ≠ "")
    (incomplete : completeToolBlock runtime schemas block = .ok false)
    (accepted : acceptToolJsonRepair runtime schemas block.content text block.name =
      .ok (some (suffix, parsed))) : suffix ≠ "" := by
  rintro rfl
  have parses := acceptToolJsonRepair_completes runtime schemas accepted
  rw [String.append_empty] at parses
  rw [completeToolBlock_of_parsed hasId hasName parses] at incomplete
  cases incomplete

/-- A repaired block is complete. -/
theorem repaired_complete {block : EmittedBlockState} {text suffix : String}
    {parsed : List (String × Json)} (hasId : block.toolId ≠ "") (hasName : block.name ≠ "")
    (accepted : acceptToolJsonRepair runtime schemas block.content text block.name =
      .ok (some (suffix, parsed))) :
    completeToolBlock runtime schemas (block.append suffix) = .ok true := by
  have parses := acceptToolJsonRepair_completes runtime schemas accepted
  rw [← append_content block suffix] at parses
  exact completeToolBlock_of_parsed hasId hasName parses

/-- An answered repair request was accepted. -/
theorem askForRepair_accepted {block : EmittedBlockState} {recoveryBody : Body}
    {attempts number next : Nat} {suffix : String}
    (asked : askForRepair runtime schemas upstream thinkingEnabled block recoveryBody attempts
      number = (.ok (some suffix), next)) :
    ∃ text parsed, acceptToolJsonRepair runtime schemas block.content text block.name =
      .ok (some (suffix, parsed)) := by
  induction attempts generalizing number with
  | zero => cases asked
  | succ attempts ih =>
    rw [askForRepair] at asked
    split at asked
    · cases asked
    · rename_i text _ _ _
      split at asked
      · cases asked
      · rename_i parsed accepted
        cases asked
        exact ⟨text, parsed, accepted⟩
      · exact ih asked

/-! ### The repair loop -/

/-- A block keeps its call under repair. -/
def SameCall (block repaired : EmittedBlockState) : Prop :=
  repaired.toolId = block.toolId ∧ repaired.name = block.name

/-- Every block has its call's id and name. -/
def Named (blocks : List EmittedBlockState) : Prop :=
  ∀ block ∈ blocks, block.toolId ≠ "" ∧ block.name ≠ ""

/-- What the loop leaves when it has repaired the blocks `pending`, behind the blocks `done`. -/
structure Repaired (runtime : Runtime) (schemas : Dict String ToolSchema)
    (done pending : List EmittedBlockState) (tracker after : EmittedNativeSseTracker)
    (events : List SseEvent) : Prop where
  tracked : ∀ nest, Tracked tracker nest → Tracked after nest
  kept : done ⊆ after.toolBlocks
  calls : ∀ block ∈ pending, ∃ repaired ∈ after.toolBlocks, SameCall block repaired
  rest : after = { tracker with blocks := after.blocks }
  onlyDeltas : ∀ event ∈ events, event.isBlockEvent = true
  obtainable : ∀ block ∈ pending, Obtainable runtime schemas block
  silent : Named pending → events = [] →
    ∀ block ∈ pending, completeToolBlock runtime schemas block = .ok true
  reads : Named pending → ∀ nest next,
    Reads nest events next ↔ next = nest ∧ ∀ block ∈ pending,
      completeToolBlock runtime schemas block = .ok false → block.index ∈ nest.opened

section Loop

variable {nest : Nest Int} {body : Body} {tracker after : EmittedNativeSseTracker}
  {events : List SseEvent}

/-- A block that is left as it is: it is complete, or the empty suffix is accepted for it. -/
theorem Repaired.skip {done rest : List EmittedBlockState} {block : EmittedBlockState}
    (idle : completeToolBlock runtime schemas block = .ok true ∨
      completeToolBlock runtime schemas block = .ok false ∧ ∃ text parsed,
        acceptToolJsonRepair runtime schemas block.content text block.name =
          .ok (some ("", parsed)))
    (later : Repaired runtime schemas (done ++ [block]) rest tracker after events) :
    Repaired runtime schemas done (block :: rest) tracker after events := by
  have stays : block ∈ after.toolBlocks :=
    later.kept (List.mem_append_right _ (List.mem_singleton.mpr rfl))
  have complete : Named (block :: rest) → completeToolBlock runtime schemas block = .ok true := by
    intro named
    obtain ⟨hasId, hasName⟩ := named block List.mem_cons_self
    rcases idle with complete | ⟨incomplete, text, parsed, accepted⟩
    · exact complete
    · exact absurd rfl (accepted_ne_empty hasId hasName incomplete accepted)
  have namedRest : Named (block :: rest) → Named rest := fun named other member =>
    named other (List.mem_cons_of_mem _ member)
  refine ⟨later.tracked, fun other member => later.kept (List.mem_append_left _ member),
    List.forall_mem_cons.mpr ⟨⟨block, stays, rfl, rfl⟩, later.calls⟩, later.rest, later.onlyDeltas,
    List.forall_mem_cons.mpr ⟨idle.imp_right fun ⟨incomplete, text, parsed, accepted⟩ =>
      ⟨incomplete, text, "", parsed, accepted⟩, later.obtainable⟩,
    fun named none => List.forall_mem_cons.mpr
      ⟨complete named, later.silent (namedRest named) none⟩, fun named nest next => ?_⟩
  rw [later.reads (namedRest named), List.forall_mem_cons]
  have vacuous : completeToolBlock runtime schemas block = .ok false →
      block.index ∈ nest.opened := by
    intro incomplete
    rw [complete named] at incomplete
    cases incomplete
  exact and_congr_right fun _ => (and_iff_right vacuous).symm

/-- A block that is repaired by a suffix. -/
theorem Repaired.extend {done rest : List EmittedBlockState} {block : EmittedBlockState}
    {text suffix : String} {parsed : List (String × Json)}
    (incomplete : completeToolBlock runtime schemas block = .ok false)
    (accepted : acceptToolJsonRepair runtime schemas block.content text block.name =
      .ok (some (suffix, parsed)))
    (member : block ∈ tracker.toolBlocks)
    (later : Repaired runtime schemas (done ++ [block.append suffix]) rest
      (tracker.withBlock (block.append suffix)) after events) :
    Repaired runtime schemas done (block :: rest) tracker after
      (contentBlockDelta block.index
        [("type", .str "input_json_delta"), ("partial_json", .str suffix)] :: events) := by
  have stays : block.append suffix ∈ after.toolBlocks :=
    later.kept (List.mem_append_right _ (List.mem_singleton.mpr rfl))
  refine ⟨fun nest tracked => later.tracked nest (tracked.withBlock member suffix),
    fun other inside => later.kept (List.mem_append_left _ inside),
    List.forall_mem_cons.mpr ⟨⟨_, stays, rfl, rfl⟩, later.calls⟩, later.rest,
    List.forall_mem_cons.mpr ⟨rfl, later.onlyDeltas⟩,
    List.forall_mem_cons.mpr ⟨Or.inr ⟨incomplete, text, suffix, parsed, accepted⟩,
      later.obtainable⟩, fun _ none => (List.cons_ne_nil _ _ none).elim,
    fun named nest next => ?_⟩
  have restReads :=
    later.reads (fun other inside => named other (List.mem_cons_of_mem _ inside)) nest next
  rw [List.forall_mem_cons]
  constructor
  · intro reads
    obtain ⟨middle, first, tail⟩ := reads.uncons
    obtain ⟨rfl, isOpen⟩ := Reads.delta_iff.mp first
    obtain ⟨same, others⟩ := restReads.mp tail
    exact ⟨same, fun _ => isOpen, others⟩
  · rintro ⟨same, isOpen, others⟩
    exact Reads.append (Reads.delta (isOpen incomplete) _) (restReads.mpr ⟨same, others⟩)

/-- **The repairs send one delta to each incomplete block**, open or stopped. -/
theorem repair_deltas {pending : List EmittedBlockState} :
    ∀ {done : List EmittedBlockState} {tracker : EmittedNativeSseTracker} {number : Nat}
      {events : List SseEvent}, Indexed tracker → tracker.toolBlocks = done ++ pending →
      repairToolBlocks runtime schemas upstream thinkingEnabled body done.length pending tracker
        number = (.ok (some events), after) →
      Repaired runtime schemas done pending tracker after events := by
  induction pending with
  | nil =>
    intro done tracker number events indexed blocks repaired
    cases repaired
    exact ⟨fun _ tracked => tracked, fun block member => blocks ▸ List.mem_append_left _ member,
      fun block member => (List.not_mem_nil member).elim, rfl,
      fun event member => (List.not_mem_nil member).elim,
      fun block member => (List.not_mem_nil member).elim,
      fun _ _ block member => (List.not_mem_nil member).elim,
      fun _ nest next => ⟨fun reads => ⟨Reads.nil_iff.mp reads, fun block member =>
        (List.not_mem_nil member).elim⟩, fun same => Reads.nil_iff.mpr same.1⟩⟩
  | cons block rest ih =>
    intro done tracker number events indexed blocks repaired
    have position : ∀ other : EmittedBlockState, (done ++ [other]).length = done.length + 1 :=
      fun other => List.length_append
    have member : block ∈ tracker.toolBlocks :=
      blocks ▸ List.mem_append_right _ List.mem_cons_self
    rw [repairToolBlocks] at repaired
    split at repaired
    · cases repaired
    · rename_i complete
      rw [← position block] at repaired
      refine Repaired.skip (Or.inl complete) (ih indexed ?_ repaired)
      rw [blocks, List.append_assoc, List.singleton_append]
    · rename_i incomplete
      dsimp only at repaired
      split at repaired
      · cases repaired
      · cases repaired
      · rename_i suffix following asked
        obtain ⟨text, parsed, accepted⟩ := askForRepair_accepted asked
        by_cases something : suffix = ""
        · -- only an unnamed block is accepted without a suffix
          subst something
          rw [EmittedNativeSseTracker.appendToolRepairSuffix_empty] at repaired
          dsimp only at repaired
          split at repaired
          · rename_i later last run
            cases repaired
            rw [← position block] at run
            refine Repaired.skip (Or.inr ⟨incomplete, text, parsed, accepted⟩)
              (ih indexed ?_ run)
            rw [blocks, List.append_assoc, List.singleton_append]
          · rename_i failed
            exact (failed _ _ repaired).elim
        · obtain ⟨sent, blocksAfter⟩ := indexed.appendToolRepairSuffix_eq blocks something
          rw [sent] at repaired
          dsimp only at repaired
          split at repaired
          · rename_i later last run
            cases repaired
            rw [← position (block.append suffix)] at run
            refine Repaired.extend incomplete accepted member (ih (indexed.withBlock _) ?_ run)
            rw [blocksAfter, List.append_assoc, List.singleton_append]
          · rename_i failed
            exact (failed _ _ repaired).elim

end Loop

/-! ### One recovery -/

section Run

variable {nest : Nest Int} {body : Body} {tracker after : EmittedNativeSseTracker}
  {sent events : List SseEvent} {number : Nat}

theorem canSalvageToolUse_complete (salvaged : canSalvageToolUse runtime schemas tracker = .ok true) :
    ∀ block ∈ tracker.toolBlocks, completeToolBlock runtime schemas block = .ok true := by
  unfold canSalvageToolUse at salvaged
  split_ifs at salvaged
  · cases salvaged
  · exact allComplete_iff.mp salvaged

/-- The parts of a successful tool recovery. -/
theorem repairedToolEvents_parts (indexed : Indexed tracker)
    (recovered : repairedToolEvents runtime schemas upstream thinkingEnabled body tracker number =
      (.ok (some events), after)) :
    ∃ repairs middle, events = repairs ++ (middle.iterSuccessTail "tool_use").1 ∧
      Repaired runtime schemas [] tracker.toolBlocks tracker middle repairs ∧
      Named tracker.toolBlocks := by
  unfold repairedToolEvents at recovered
  split at recovered
  · rename_i repairs middle run
    split at recovered
    · cases recovered
    · cases recovered
    · rename_i salvaged
      cases recovered
      have repaired : Repaired runtime schemas [] tracker.toolBlocks tracker middle repairs :=
        @repair_deltas _ _ _ _ _ _ tracker.toolBlocks [] _ _ _ indexed rfl run
      refine ⟨repairs, middle, rfl, repaired, ?_⟩
      intro block member
      obtain ⟨final, inside, sameId, sameName⟩ := repaired.calls block member
      rw [← sameId, ← sameName]
      exact named_of_complete (canSalvageToolUse_complete salvaged final inside)
  · rename_i failed
    exact (failed _ _ recovered).elim

theorem repairedToolEvents_nested_iff (tracked : Tracked tracker nest)
    (reads : Reads Nest.empty sent nest)
    (recovered : repairedToolEvents runtime schemas upstream thinkingEnabled body tracker number =
      (.ok (some events), after)) :
    WellNested (sent ++ events) ↔ ∀ block ∈ tracker.toolBlocks,
      completeToolBlock runtime schemas block = .ok false → block.index ∈ nest.opened := by
  obtain ⟨repairs, middle, rfl, repaired, named⟩ := repairedToolEvents_parts tracked.indexed recovered
  have repairReads := repaired.reads named nest
  rw [wellNested_iff]
  constructor
  · rintro ⟨last, all, _⟩
    obtain ⟨first, sentReads, later⟩ := all.split
    obtain rfl := reads.unique sentReads
    obtain ⟨second, repairsRead, _⟩ := later.split
    exact ((repairReads second).mp repairsRead).2
  · intro isOpen
    have repairsRead := (repairReads nest).mpr ⟨rfl, isOpen⟩
    obtain ⟨last, tail, closed⟩ := (repaired.tracked nest tracked).iterSuccessTail_reads "tool_use"
    exact ⟨last, reads.append (repairsRead.append tail), closed⟩

/-- **A continued text or thinking block** never breaks the nesting. -/
theorem continuedEvents_nested {text thinking : String} (tracked : Tracked tracker nest)
    (reads : Reads Nest.empty sent nest)
    (recovered : continuedEvents tracker text thinking = (.ok (some events), after)) :
    WellNested (sent ++ events) := by
  unfold continuedEvents at recovered
  dsimp only at recovered
  obtain ⟨observed, between, thinkingReads⟩ := tracked.appendThinkingSuffix_reads
    ((continuationSuffix tracker.emittedThinking thinking).getD "")
  have thought := tracked.afterEvents thinkingReads
  rw [← observed] at thought
  obtain ⟨observed', next, textReads⟩ := thought.appendTextSuffix_reads
    ((continuationSuffix tracker.emittedText text).getD "")
  have written := thought.afterEvents textReads
  rw [← observed'] at written
  obtain ⟨last, tail, closed⟩ := written.iterSuccessTail_reads "end_turn"
  split_ifs at recovered with nothing
  · cases recovered
  · cases recovered
    exact wellNested_iff.mpr
      ⟨last, reads.append ((thinkingReads.append textReads).append tail), closed⟩

/-- **One recovery**: its events are well nested behind what was sent exactly when every incomplete
tool block is still open. -/
theorem recovery_nested_iff {tools : List RequestTool} {error : UpstreamError}
    (reads : Reads Nest.empty sent nest)
    (recovered : nativeRecoveryEvents runtime upstream thinkingEnabled tools body
      (EmittedNativeSseTracker.observeAll {} sent) error number = (.ok (some events), after)) :
    WellNested (sent ++ events) ↔
      ∀ block ∈ (EmittedNativeSseTracker.observeAll {} sent).toolBlocks,
        completeToolBlock runtime (toolSchemasByName tools) block = .ok false →
          block.isOpen = true := by
  have tracked := EmittedNativeSseTracker.tracked_init.afterEvents reads
  set tracker := EmittedNativeSseTracker.observeAll {} sent with hTracker
  have openIff : ∀ block ∈ tracker.toolBlocks,
      (block.isOpen = true ↔ block.index ∈ nest.opened) := fun block member =>
    (tracked.known block.index block (tracked.indexed.get?_of_mem_blocksOf member).1).2.2
  unfold nativeRecoveryEvents at recovered
  split_ifs at recovered with _ hasTool nothing
  · cases recovered
  · rw [repairedToolEvents_nested_iff tracked reads recovered]
    exact forall₂_congr fun block member => by rw [openIff block member]
  · cases recovered
  · have noTools : tracker.toolBlocks = [] := by
      simpa [EmittedNativeSseTracker.hasToolBlock] using hasTool
    rw [noTools]
    split at recovered
    · cases recovered
    · exact iff_of_true (continuedEvents_nested tracked reads recovered)
        fun block member => (List.not_mem_nil member).elim

end Run

/-! ### Every recovery -/

/-- The answer to a recovery request that consists of one text. -/
def textAnswer (text : String) : Connection :=
  .opened [formatSseEvent "content_block_delta" [("delta", .obj [("text", .str text)])]] none

theorem collect_textAnswer {body : Body} {number attempts : Nat} {text : String}
    (answers : upstream number body = textAnswer text) :
    collectNativeRecoveryText upstream thinkingEnabled body (attempts + 1) none number =
      (.ok (text, ""), number + 1) := by
  have chunks : collectChunks upstream thinkingEnabled number body =
      .ok [formatSseEvent "content_block_delta" [("delta", .obj [("text", .str text)])]] := by
    rw [collectChunks, answers]
    rfl
  rw [collectNativeRecoveryText, chunks]
  show (Except.ok (Py.join "" [text], Py.join "" []), number + 1) = _
  rw [Py.join_singleton, Py.join_nil]

theorem askForRepair_textAnswer {block : EmittedBlockState} {recoveryBody : Body} {number : Nat}
    {text suffix : String} {parsed : List (String × Json)}
    (answers : upstream number recoveryBody = textAnswer text)
    (accepted : acceptToolJsonRepair runtime schemas block.content text block.name =
      .ok (some (suffix, parsed))) :
    askForRepair runtime schemas upstream thinkingEnabled block recoveryBody
      midstreamRecoveryAttempts number = (.ok (some suffix), number + 1) := by
  have collected : collectNativeRecoveryText upstream thinkingEnabled recoveryBody
      midstreamRecoveryAttempts none number = (.ok (text, ""), number + 1) :=
    collect_textAnswer answers
  rw [show midstreamRecoveryAttempts = 4 + 1 from rfl, askForRepair, collected]
  dsimp only
  rw [accepted]

/-- Salvageable blocks are repaired by some texts, whatever the request numbers. -/
theorem exists_repairs {body : Body} {pending : List EmittedBlockState}
    (salvageable : ∀ block ∈ pending, Salvageable runtime schemas block) :
    ∃ texts : List String, ∀ (upstream : Upstream) (done : List EmittedBlockState)
      (tracker : EmittedNativeSseTracker) (number : Nat), Indexed tracker →
      tracker.toolBlocks = done ++ pending →
      (∀ block ∈ done, completeToolBlock runtime schemas block = .ok true) →
      (∀ position text, texts[position]? = some text → ∀ recoveryBody,
        upstream (number + position) recoveryBody = textAnswer text) →
      ∃ events after, repairToolBlocks runtime schemas upstream thinkingEnabled body done.length
          pending tracker number = (.ok (some events), after) ∧
        after.toolBlocks.length = (done ++ pending).length ∧
        ∀ block ∈ after.toolBlocks, completeToolBlock runtime schemas block = .ok true := by
  induction pending with
  | nil =>
    refine ⟨[], fun upstream done tracker number _ blocks complete _ =>
      ⟨[], tracker, rfl, ?_, ?_⟩⟩
    · rw [blocks]
    · rw [blocks, List.append_nil]
      exact complete
  | cons block rest ih =>
    obtain ⟨texts, repaired⟩ := ih fun other member =>
      salvageable other (List.mem_cons_of_mem _ member)
    have position : ∀ other : EmittedBlockState, ∀ done : List EmittedBlockState,
        (done ++ [other]).length = done.length + 1 := fun other done => List.length_append
    obtain ⟨hasId, hasName, complete | ⟨incomplete, text, suffix, parsed, accepted⟩⟩ :=
      salvageable block List.mem_cons_self
    · refine ⟨texts, fun upstream done tracker number indexed blocks doneComplete answers => ?_⟩
      obtain ⟨events, after, run, length, allDone⟩ := repaired upstream (done ++ [block]) tracker
        number indexed (by rw [blocks, List.append_assoc, List.singleton_append])
        (List.forall_mem_append.mpr ⟨doneComplete, by simpa using complete⟩) answers
      rw [position] at run
      refine ⟨events, after, ?_, ?_, allDone⟩
      · rw [repairToolBlocks, complete]
        exact run
      · rw [length, List.append_assoc, List.singleton_append]
    · refine ⟨text :: texts, fun upstream done tracker number indexed blocks doneComplete
        answers => ?_⟩
      have something := accepted_ne_empty hasId hasName incomplete accepted
      obtain ⟨sent, blocksAfter⟩ := indexed.appendToolRepairSuffix_eq blocks something
      obtain ⟨events, after, run, length, allDone⟩ := repaired upstream
        (done ++ [block.append suffix]) _ (number + 1) (indexed.withBlock _)
        (by rw [blocksAfter, List.append_assoc, List.singleton_append])
        (List.forall_mem_append.mpr ⟨doneComplete, by
          simpa using repaired_complete hasId hasName accepted⟩)
        (fun offset later found recoveryBody => by
          rw [Nat.add_assoc, Nat.add_comm 1 offset]
          exact answers (offset + 1) later found recoveryBody)
      rw [position] at run
      refine ⟨contentBlockDelta block.index
        [("type", .str "input_json_delta"), ("partial_json", .str suffix)] :: events, after, ?_, ?_,
        allDone⟩
      · have first : ∀ recoveryBody, upstream number recoveryBody = textAnswer text :=
          fun recoveryBody => answers 0 text rfl recoveryBody
        rw [repairToolBlocks, incomplete]
        dsimp only
        rw [askForRepair_textAnswer (first _) accepted]
        dsimp only
        rw [sent]
        dsimp only
        rw [run]
        rfl
      · rw [length, List.append_assoc, List.singleton_append, List.length_append,
          List.length_append, List.length_cons, List.length_cons]

end Recovery

/-- The condition under which a recovery cannot send a delta to a stopped block: each incomplete tool
block is still open, or some tool block cannot be salvaged by any recovery text. -/
def KeepsNesting (runtime : Runtime) (tools : List RequestTool) (sent : List SseEvent) : Prop :=
  (∀ block ∈ (EmittedNativeSseTracker.observeAll {} sent).toolBlocks,
    completeToolBlock runtime (toolSchemasByName tools) block = .ok false →
      block.isOpen = true) ∨
  ∃ block ∈ (EmittedNativeSseTracker.observeAll {} sent).toolBlocks,
    ¬Salvageable runtime (toolSchemasByName tools) block

/-- A recovery with events behind it salvaged every tool block. -/
theorem salvageable_of_recovered {runtime : Runtime} {tools : List RequestTool}
    {upstream : Upstream} {thinkingEnabled : Bool} {body : Body} {error : UpstreamError}
    {number : Nat} {tracker after : EmittedNativeSseTracker} {events : List SseEvent}
    (indexed : Indexed tracker)
    (recovered : nativeRecoveryEvents runtime upstream thinkingEnabled tools body tracker error
      number = (.ok (some events), after)) :
    ∀ block ∈ tracker.toolBlocks, Salvageable runtime (toolSchemasByName tools) block := by
  unfold nativeRecoveryEvents at recovered
  split_ifs at recovered with _ hasTool
  · cases recovered
  · obtain ⟨repairs, middle, rfl, repaired, named⟩ := repairedToolEvents_parts indexed recovered
    intro block member
    exact ⟨(named block member).1, (named block member).2, repaired.obtainable block member⟩
  all_goals
    have noTools : tracker.toolBlocks = [] := by
      simpa [EmittedNativeSseTracker.hasToolBlock] using hasTool
    rw [noTools]
    exact fun block member => (List.not_mem_nil member).elim

/-- **Native recovery keeps block nesting, exactly** under `KeepsNesting`: behind that prefix, every
block event of which the tracker can decode, whatever the provider answers to the recovery requests. -/
theorem native_recovery_keeps_nesting_iff (runtime : Runtime) (tools : List RequestTool)
    (sent : List SseEvent) (nest : Nest Int) (reads : Reads Nest.empty sent nest) :
    (∀ upstream thinkingEnabled body error number events after,
      nativeRecoveryEvents runtime upstream thinkingEnabled tools body
        (EmittedNativeSseTracker.observeAll {} sent) error number = (.ok (some events), after) →
      WellNested (sent ++ events)) ↔ KeepsNesting runtime tools sent := by
  have tracked := EmittedNativeSseTracker.tracked_init.afterEvents reads
  constructor
  · intro nested
    by_contra neither
    obtain ⟨stopped, salvageable⟩ := not_or.mp neither
    simp only [not_exists, not_and, not_not] at salvageable
    set tracker := EmittedNativeSseTracker.observeAll {} sent with hTracker
    obtain ⟨texts, repaired⟩ := exists_repairs salvageable
    obtain ⟨repairs, middle, run, length, complete⟩ := repaired
      (fun number _ => textAnswer (texts.getD number "")) [] tracker 0 tracked.indexed rfl
      (fun block member => (List.not_mem_nil member).elim)
      (fun position text found recoveryBody => by
        rw [Nat.zero_add, List.getD_eq_getElem?_getD, found, Option.getD_some])
    have someTool : tracker.toolBlocks ≠ [] := by
      intro none
      exact stopped (none ▸ fun block member => (List.not_mem_nil member).elim)
    have salvaged : canSalvageToolUse runtime (toolSchemasByName tools) middle = .ok true := by
      have stillSome : middle.toolBlocks ≠ [] := by
        rw [← List.length_pos_iff, length]
        exact List.length_pos_iff.mpr someTool
      rw [canSalvageToolUse, if_neg (by simpa using stillSome)]
      exact allComplete_iff.mpr complete
    have hasTool : tracker.hasToolBlock = true := by
      simpa [EmittedNativeSseTracker.hasToolBlock] using someTool
    have recovered : nativeRecoveryEvents runtime
        (fun number _ => textAnswer (texts.getD number "")) true tools [] tracker
        .truncatedProviderStream 0 =
        (.ok (some (repairs ++ (middle.iterSuccessTail "tool_use").1)),
          (middle.iterSuccessTail "tool_use").2) := by
      rw [nativeRecoveryEvents, if_neg (by decide), if_pos hasTool, repairedToolEvents]
      rw [List.length_nil] at run
      rw [run]
      dsimp only
      rw [salvaged]
    exact stopped ((recovery_nested_iff reads recovered).mp
      (nested _ _ _ _ _ _ _ recovered))
  · rintro (isOpen | ⟨block, member, lost⟩) upstream thinkingEnabled body error number events after
      recovered
    · exact (recovery_nested_iff reads recovered).mpr isOpen
    · exact absurd (salvageable_of_recovered tracked.indexed recovered block member) lost

/-! ### A call without arguments -/

/-- `json.loads` on the two texts below: the empty object, and anything else undecodable. -/
def emptyObjectRuntime : Runtime where
  loads text :=
    if text = "\x7b\x7d" then .ok (.obj []) else .error (.jsonDecodeError "Expecting value")
  dumps _ := ""
  checkSchema _ _ := .valid

/-- A tool call that is sent without any `input_json_delta`. -/
def emptyInputCall : List SseEvent :=
  [formatSseEvent "message_start" [("type", .str "message_start")],
    contentBlockStart 0
      [("type", .str "tool_use"), ("id", .str "toolu_1"), ("name", .str "ListFiles"),
        ("input", .obj [])]]

/-- Cut behind the block's stop, the repair reaches a block that is no longer open. -/
theorem stoppedEmptyInput_breaks_nesting :
    ∃ events after, nativeRecoveryEvents emptyObjectRuntime (fun _ _ => textAnswer "\x7b\x7d")
        true [] [] (EmittedNativeSseTracker.observeAll {} (emptyInputCall ++ [contentBlockStop 0]))
        .truncatedProviderStream 1 = (.ok (some events), after) ∧
      ¬WellNested ((emptyInputCall ++ [contentBlockStop 0]) ++ events) :=
  ⟨_, _, rfl, by decide⟩

/-- Cut before it, the repair keeps the nesting. -/
theorem openEmptyInput_keeps_nesting :
    ∃ events after, nativeRecoveryEvents emptyObjectRuntime (fun _ _ => textAnswer "\x7b\x7d")
        true [] [] (EmittedNativeSseTracker.observeAll {} emptyInputCall)
        .truncatedProviderStream 1 = (.ok (some events), after) ∧
      WellNested (emptyInputCall ++ events) :=
  ⟨_, _, rfl, (native_recovery_keeps_nesting_iff emptyObjectRuntime [] emptyInputCall
    (Nest.empty.start 0) ⟨by decide, rfl⟩).mpr (Or.inl (by decide))
    (fun _ _ => textAnswer "\x7b\x7d") true [] .truncatedProviderStream 1 _ _ rfl⟩

end ClaudeProxy
