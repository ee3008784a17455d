/-
**A stream that is read to its end, and the end of its message.**

* `Idle` — a call that gets nothing more when the buffers are flushed.
* `Completes` — the attempt that ends with a finish reason, behind those that were started over.
* **`parts_of_completes`** — the whole message: the moves of the chunk loop, those of the flush,
  then `message_delta` and `message_stop`.
-/

import ClaudeProxy.Provider.OpenaiRun

namespace ClaudeProxy

open RecoveryHoldbackBuffer (Outgoing)

namespace OpenaiCall

variable {call : OpenaiCall} {late : Int → Prop} {state next : ChatState}

/-! ### ChatMoves without deltas -/

/-- Without deltas, the calls stay what they are. -/
theorem same_of_runs {deltas : List ToolCallDelta} {detected : Nat}
    (runs : Runs call late state deltas detected next) (none : deltas = []) (index : Int) :
    (state.callAt index).Same (next.callAt index) := by
  induction runs with
  | start => rfl
  | aside _ aside ih => exact (ih none).trans (aside.calls index)
  | delta _ _ _ => exact absurd none (by simp)
  | @flush _ _ _ _ other _ _ _ _ delivers ih =>
    refine (ih none).trans ?_
    by_cases same : index = other
    · rw [same]
      exact delivers.same
    · have stays := delivers.revises.others index same
      rw [ChatState.callAt, ChatState.callAt, stays]
      rfl

theorem aliases_of_runs {deltas : List ToolCallDelta} {detected : Nat}
    (runs : Runs call late state deltas detected next) :
    next.toolArgumentAliases = state.toolArgumentAliases := by
  induction runs with
  | start => rfl
  | aside _ aside ih => exact aside.aliases.trans ih
  | delta _ ran ih =>
    exact (congrArg ChatReading.toolArgumentAliases (reading_of_processToolCall ran)).trans ih
  | flush _ _ _ delivers ih =>
    exact (congrArg ChatReading.toolArgumentAliases delivers.moves.reading).trans ih

/-- The call is plain, and none of its arguments wait. -/
def Idle (state : ChatState) (index : Int) : Prop :=
  Plain state (state.callAt index).name ∧ (state.callAt index).taskArgBuffer = ""

/-- The calls that may get something when the buffers are flushed. -/
def Flushable (state : ChatState) (index : Int) : Prop := ¬ Idle state index

/-! ### What the flush keeps -/

theorem returns_flushThinkParser : Returns (Kept call) call.flushThinkParser := by
  unfold flushThinkParser
  refine Ensures.get fun state kept => ?_
  rcases state.thinkParser.flush with ⟨remaining, thinkParser⟩
  have parsed : Kept call { state with thinkParser } := ⟨kept.written, kept.unbuffered, kept.waiting⟩
  refine Ensures.set (Ensures.at_ ?_ parsed)
  rcases remaining with _ | ⟨type, content⟩
  · exact Ensures.pure fun _ here => here
  · cases type with
    | thinking =>
      dsimp only
      split_ifs
      · exact returns_writeThinking content
      · exact Ensures.pure fun _ here => here
    | text => exact returns_writeText content

theorem returns_flushHeuristicParser : Returns (Kept call) call.flushHeuristicParser := by
  unfold flushHeuristicParser
  refine Ensures.get fun state kept => ?_
  rcases state.heuristicParser.flush with ⟨toolUses, heuristicParser⟩
  have parsed : Kept call { state with heuristicParser } :=
    ⟨kept.written, kept.unbuffered, kept.waiting⟩
  exact Ensures.set (Ensures.at_ (returns_toolUses toolUses) parsed)

theorem returns_ensureContent : Returns (Kept call) call.ensureContent := by
  unfold ensureContent
  have stays : Returns (Kept call) (pure () : Chat Unit) := Ensures.pure fun _ here => here
  exact Ensures.get fun state kept => Ensures.at_ (Ensures.ite (returns_writeText " ")
    (Ensures.ite (returns_writeText " ") stays)) kept

/-- Some calls are started. -/
def KeptWith (call : OpenaiCall) (indexes : List Int) (state : ChatState) : Prop :=
  Kept call state ∧ ∀ index ∈ indexes, state.sse.Started index

/-- An alias buffer is dropped. -/
theorem Kept.eraseAliasBuffer (kept : Kept call state) (index : Int) :
    Kept call { state with aliasBuffers := state.aliasBuffers.erase index } := by
  refine ⟨kept.written, kept.unbuffered, fun other text found => ?_⟩
  change (state.aliasBuffers.erase index).get? other = some text at found
  rw [Dict.get?_erase] at found
  split_ifs at found
  exact kept.waiting other text found

/-- A delta for a started call leaves the others started. -/
theorem returns_holdToolDelta {indexes : List Int} {index : Int} (member : index ∈ indexes)
    (piece : String) :
    Returns (KeptWith call indexes) (do call.holdEvents (← toolDelta index piece)) := by
  rintro state ⟨kept, started⟩
  obtain ⟨tool, found, isStarted⟩ := started index member
  obtain ⟨next, run, keeps, sse⟩ := kept.holdToolDelta found isStarted piece
  rw [run]
  refine ⟨keeps, fun other inside => ?_⟩
  rw [sse]
  exact (started other inside).of_writer (emitToolDelta_relabels found piece).writer

/-- A text that is not JSON yet has no restored form. -/
theorem restoreAliased_of_broken {text message : String}
    (broken : call.runtime.loads text = .error (.jsonDecodeError message))
    (aliases : Dict String String) : call.restoreAliasedToolArguments text aliases = .ok none := by
  unfold restoreAliasedToolArguments Runtime.loadsOrNone
  rw [broken]

/-- What waits in an alias buffer is sent as it is. -/
theorem returns_flushAliasBuffer {indexes : List Int} {index : Int} {bufferedArgs message : String}
    (member : index ∈ indexes)
    (broken : call.runtime.loads bufferedArgs = .error (.jsonDecodeError message)) :
    Returns (KeptWith call indexes) (call.flushAliasBuffer index bufferedArgs) := by
  unfold flushAliasBuffer
  refine Ensures.get fun state here => ?_
  obtain ⟨kept, started⟩ := here
  have stays : Returns (KeptWith call indexes) (pure () : Chat Unit) :=
    Ensures.pure fun _ here => here
  dsimp only
  split_ifs with empty
  · exact fun _ _ => ⟨kept.eraseAliasBuffer index, started⟩
  · split
    · exact Ensures.at_ stays ⟨kept, started⟩
    · refine Ensures.at_ (Ensures.ite stays ?_) ⟨kept, started⟩
      rw [restoreAliased_of_broken broken, ← bind_assoc, ← bind_assoc]
      refine Ensures.bind (returns_holdToolDelta member _) fun _ => Ensures.modify ?_
      exact fun state here => ⟨here.1.eraseAliasBuffer index, here.2⟩

theorem returns_flushToolArgumentAliasBuffers :
    Returns (Kept call) call.flushToolArgumentAliasBuffers := by
  unfold flushToolArgumentAliasBuffers
  refine Ensures.get fun state kept => ?_
  have waits : ∀ entry ∈ state.aliasBuffers.entries, state.sse.Started entry.1 ∧
      ∃ message, call.runtime.loads entry.2 = .error (.jsonDecodeError message) :=
    fun entry inside => kept.waiting entry.1 entry.2 ((Dict.mem_entries_iff _).mp inside)
  have started : KeptWith call (state.aliasBuffers.entries.map Prod.fst) state := by
    refine ⟨kept, fun index member => ?_⟩
    obtain ⟨entry, inside, rfl⟩ := List.mem_map.mp member
    exact (waits entry inside).1
  refine (Ensures.at_ (Ensures.forM fun entry inside => ?_) started).weaken
    (fun _ _ here => here.1) fun _ _ raised => raised
  obtain ⟨message, broken⟩ := (waits entry inside).2
  exact returns_flushAliasBuffer (List.mem_map_of_mem inside) broken

/-- **The flush before the Task arguments does not raise.** -/
theorem returns_flushContent : Returns (Kept call) call.flushContent :=
  Ensures.bind returns_flushThinkParser fun _ => Ensures.bind returns_flushHeuristicParser fun _ =>
    Ensures.bind returns_ensureContent fun _ => returns_flushToolArgumentAliasBuffers

/-- The Task arguments that wait are those of these calls. -/
theorem flushTaskArgs_ok {runtime : Runtime} {entries : List (Int × ToolCallState)}
    {blocks next : ContentBlockManager} {outs : List (Int × String)}
    (distinct : (entries.map Prod.fst).Nodup)
    (found : ∀ entry ∈ entries, blocks.toolStates.get? entry.1 = some entry.2)
    (flushed : ContentBlockManager.flushTaskArgs runtime entries blocks = .ok (outs, next)) :
    ContentBlockManager.Relabels blocks next ∧
      (∀ index, (blocks.callAt index).Same (next.callAt index) ∧
        (next.callAt index).contents = (blocks.callAt index).contents ∧
        ((blocks.callAt index).taskArgBuffer = "" → (next.callAt index).taskArgBuffer = "")) ∧
      ∀ out ∈ outs, ∃ entry ∈ entries, entry.1 = out.1 ∧ entry.2.taskArgBuffer ≠ "" := by
  induction entries generalizing blocks outs with
  | nil =>
    cases flushed
    exact ⟨ContentBlockManager.Relabels.refl _, fun _ => ⟨rfl, rfl, id⟩,
      fun _ member => absurd member List.not_mem_nil⟩
  | cons entry rest ih =>
    obtain ⟨index, tool⟩ := entry
    rw [List.map_cons, List.nodup_cons] at distinct
    have others : ∀ entry ∈ rest, blocks.toolStates.get? entry.1 = some entry.2 :=
      fun entry inside => found entry (List.mem_cons_of_mem _ inside)
    rw [ContentBlockManager.flushTaskArgs] at flushed
    split_ifs at flushed with awaits
    · cases out : ContentBlockManager.flushedTaskArgs runtime tool.taskArgBuffer with
      | error error =>
        rw [out] at flushed
        cases flushed
      | ok text =>
        rw [out] at flushed
        dsimp only at flushed
        set replaced := blocks.setToolState index
          { tool with taskArgsEmitted := true, taskArgBuffer := "" } with isReplaced
        rcases later : ContentBlockManager.flushTaskArgs runtime rest replaced with
          error | ⟨results, last⟩
        · rw [later] at flushed
          cases flushed
        · rw [later] at flushed
          cases flushed
          have here := found (index, tool) List.mem_cons_self
          have stillFound : ∀ entry ∈ rest, replaced.toolStates.get? entry.1 = some entry.2 := by
            intro entry inside
            have away : entry.1 ≠ index := fun same =>
              distinct.1 (same ▸ List.mem_map.mpr ⟨entry, inside, rfl⟩)
            exact (Dict.get?_set_ne _ away _).trans (others entry inside)
          obtain ⟨relabels, same, owners⟩ := ih distinct.2 stillFound later
          have first : ContentBlockManager.Relabels blocks replaced :=
            ContentBlockManager.relabels_some here rfl (fun _ _ => rfl) rfl
          refine ⟨first.trans relabels, fun other => ?_, ?_⟩
          · have step : (blocks.callAt other).Same (replaced.callAt other) ∧
                (replaced.callAt other).contents = (blocks.callAt other).contents ∧
                ((blocks.callAt other).taskArgBuffer = "" →
                  (replaced.callAt other).taskArgBuffer = "") := by
              rw [isReplaced, ContentBlockManager.callAt_setToolState]
              split_ifs with hit
              · rw [hit, ContentBlockManager.callAt_of_found here]
                exact ⟨rfl, rfl, fun _ => rfl⟩
              · exact ⟨rfl, rfl, id⟩
            exact ⟨step.1.trans (same other).1, (same other).2.1.trans step.2.1,
              fun empty => (same other).2.2 (step.2.2 empty)⟩
          · intro out member
            rcases List.mem_cons.mp member with rfl | isLater
            · refine ⟨(index, tool), List.mem_cons_self, rfl, ?_⟩
              simp only [ContentBlockManager.awaitsTaskArgs, Bool.and_eq_true,
                decide_eq_true_eq] at awaits
              exact awaits.1
            · obtain ⟨entry, inside, owner⟩ := owners out isLater
              exact ⟨entry, List.mem_cons_of_mem _ inside, owner⟩
    · obtain ⟨relabels, same, owners⟩ := ih distinct.2 others flushed
      refine ⟨relabels, same, fun out member => ?_⟩
      obtain ⟨entry, inside, owner⟩ := owners out member
      exact ⟨entry, List.mem_cons_of_mem _ inside, owner⟩

/-- The calls whose Task arguments wait are started. -/
theorem Kept.started_of_waiting (kept : Kept call state) {index : Int}
    (waits : (state.callAt index).taskArgBuffer ≠ "") : state.sse.Started index := by
  unfold ChatState.callAt ContentBlockManager.callAt at waits
  cases found : state.sse.blocks.toolStates.get? index with
  | none =>
    rw [found] at waits
    exact absurd rfl waits
  | some tool =>
    rw [found] at waits
    refine ⟨tool, found, ?_⟩
    by_contra unstarted
    exact waits (kept.unbuffered index tool found (Bool.not_eq_true _ ▸ unstarted))

theorem flushTaskArgBuffers_ok {blocks : ContentBlockManager} {outs : List (Int × String)}
    (flushed : state.sse.blocks.flushTaskArgBuffers call.runtime = .ok (outs, blocks)) :
    ContentBlockManager.Relabels state.sse.blocks blocks ∧
      (∀ index, (state.callAt index).Same (blocks.callAt index) ∧
        (blocks.callAt index).contents = (state.callAt index).contents ∧
        ((state.callAt index).taskArgBuffer = "" → (blocks.callAt index).taskArgBuffer = "")) ∧
      ∀ out ∈ outs, (state.callAt out.1).taskArgBuffer ≠ "" := by
  obtain ⟨relabels, same, owners⟩ := flushTaskArgs_ok state.sse.blocks.toolStates.nodupKeys
    (fun entry inside => (Dict.mem_entries_iff _).mp inside) flushed
  refine ⟨relabels, same, fun out member => ?_⟩
  obtain ⟨⟨index, tool⟩, inside, rfl, waits⟩ := owners out member
  have found := (Dict.mem_entries_iff _).mp inside
  rw [ChatState.callAt, ContentBlockManager.callAt_of_found found]
  exact waits

/-! ### What the flush does -/

theorem progress_of_flushThinkParser (ran : call.flushThinkParser state = .ok () next) :
    Progress call late state next [] 0 ⟨state.thinkParser.flush.2, state.heuristicParser⟩ := by
  unfold flushThinkParser at ran
  rw [get_bind_eq_ok] at ran
  revert ran
  rcases state.thinkParser.flush with ⟨remaining, thinkParser⟩
  intro ran
  dsimp only at ran
  rw [set_bind_eq_ok] at ran
  have parsed := @progress_of_parsers call late state ⟨thinkParser, state.heuristicParser⟩
  rcases remaining with _ | ⟨type, content⟩
  · cases ran
    exact parsed
  · cases type with
    | thinking =>
      dsimp only at ran
      split_ifs at ran
      · exact parsed.trans (progress_of_writeThinking ran)
      · cases ran
        exact parsed
    | text => exact parsed.trans (progress_of_writeText ran)

theorem progress_of_flushHeuristicParser (ran : call.flushHeuristicParser state = .ok () next) :
    Progress call late state next [] state.heuristicParser.flush.1.length
      ⟨state.thinkParser, state.heuristicParser.flush.2⟩ := by
  unfold flushHeuristicParser at ran
  rw [get_bind_eq_ok] at ran
  revert ran
  rcases state.heuristicParser.flush with ⟨toolUses, heuristicParser⟩
  intro ran
  dsimp only at ran
  rw [set_bind_eq_ok] at ran
  have parsed := @progress_of_parsers call late state ⟨state.thinkParser, heuristicParser⟩
  have all := parsed.trans (progress_of_toolUses ran)
  rwa [Nat.zero_add] at all

theorem progress_of_ensureContent (ran : call.ensureContent state = .ok () next) :
    Progress call late state next [] 0 state.parsers := by
  unfold ensureContent at ran
  rw [get_bind_eq_ok] at ran
  split at ran
  · exact progress_of_writeText ran
  · split at ran
    · exact progress_of_writeText ran
    · cases ran
      exact Progress.stay

/-- **An idle call stays idle.** -/
theorem idle_of_runs {base : ChatState} {deltas : List ToolCallDelta} {detected : Nat}
    (runs : Runs call (Flushable base) base deltas detected state) (none : deltas = [])
    {index : Int} (idle : Idle base index) : Idle state index := by
  refine ⟨?_, ?_⟩
  · have same := same_of_runs runs none index
    unfold Plain
    rw [same, aliases_of_runs runs]
    exact idle.1
  · induction runs with
    | start => exact idle.2
    | aside _ aside ih => exact aside.waiting index (ih none)
    | delta _ _ _ => exact absurd none (by simp)
    | @flush _ _ _ _ other _ _ allowed _ delivers ih =>
      by_cases same : index = other
      · exact absurd idle (same ▸ allowed)
      · rw [ChatState.callAt, delivers.revises.others index same]
        exact ih none

theorem raising_eq_ok {α : Type} {result : Except PyError α} {value : α} :
    raising result state = .ok value next ↔ result = .ok value ∧ next = state := by
  cases result with
  | error error =>
    constructor
    · intro ran
      cases ran
    · rintro ⟨given, -⟩
      cases given
  | ok given =>
    constructor
    · intro ran
      cases ran
      exact ⟨rfl, rfl⟩
    · rintro ⟨same, rfl⟩
      cases same
      rfl

theorem callAt_started {index : Int} (started : state.sse.Started index) :
    (state.callAt index).started = true := by
  obtain ⟨tool, found, isStarted⟩ := started
  rw [ChatState.callAt, ContentBlockManager.callAt_of_found found]
  exact isStarted

section Flush

variable {base : ChatState} {detected : Nat}

/-- One delta of what has waited. -/
theorem runs_of_holdToolDelta (runs : Runs call (Flushable base) base [] detected state)
    {index : Int} {piece : String} (started : (state.callAt index).started = true)
    (flushable : Flushable base index)
    (ran : (do call.holdEvents (← toolDelta index piece) : Chat Unit) state = .ok () next) :
    Runs call (Flushable base) base [] detected next ∧ next.reading = state.reading :=
  ⟨runs.flush flushable started (holdToolDelta_ok ran).1, (holdToolDelta_ok ran).1.moves.reading⟩

theorem runs_of_flushAliasBuffer (runs : Runs call (Flushable base) base [] detected state)
    {index : Int} {bufferedArgs : String} (started : (state.callAt index).started = true)
    (ran : call.flushAliasBuffer index bufferedArgs state = .ok () next) :
    Runs call (Flushable base) base [] detected next ∧ next.reading = state.reading ∧
      ∀ other, (state.callAt other).started = true → (next.callAt other).started = true := by
  have aside : ∀ {state : ChatState} (aliasBuffers : Dict Int String),
      Runs call (Flushable base) base [] detected state →
        Runs call (Flushable base) base [] detected { state with aliasBuffers } :=
    fun aliasBuffers runs => runs.beside (Aside.quiet rfl rfl rfl rfl)
  unfold flushAliasBuffer at ran
  rw [get_bind_eq_ok] at ran
  dsimp only at ran
  split_ifs at ran with empty
  · cases ran
    exact ⟨aside _ runs, rfl, fun _ => id⟩
  · have found := ContentBlockManager.found_of_started started
    rw [found] at ran
    dsimp only at ran
    split_ifs at ran with plain
    · cases ran
      exact ⟨runs, rfl, fun _ => id⟩
    · obtain ⟨restored, middle, restores, later⟩ := bind_eq_ok.mp ran
      obtain ⟨-, rfl⟩ := raising_eq_ok.mp restores
      rw [← bind_assoc] at later
      obtain ⟨⟨⟩, last, held, dropped⟩ := bind_eq_ok.mp later
      cases dropped
      obtain ⟨further, reading⟩ := runs_of_holdToolDelta runs started
        (fun idle => plain (Or.inr (idle_of_runs runs rfl idle).1.2)) held
      exact ⟨aside _ further, reading, fun other => (holdToolDelta_ok held).1.stillStarted⟩

theorem runs_of_aliasBuffers (runs : Runs call (Flushable base) base [] detected state)
    {entries : List (Int × String)}
    (started : ∀ entry ∈ entries, (state.callAt entry.1).started = true)
    (ran : entries.forM (fun entry => call.flushAliasBuffer entry.1 entry.2) state = .ok () next) :
    Runs call (Flushable base) base [] detected next ∧ next.reading = state.reading := by
  induction entries generalizing state with
  | nil =>
    cases ran
    exact ⟨runs, rfl⟩
  | cons entry rest ih =>
    obtain ⟨⟨⟩, middle, flushed, ran⟩ := bind_eq_ok.mp ran
    obtain ⟨further, reading, still⟩ :=
      runs_of_flushAliasBuffer runs (started entry List.mem_cons_self) flushed
    have later : ∀ entry ∈ rest, (middle.callAt entry.1).started = true :=
      fun other inside => still _ (started other (List.mem_cons_of_mem _ inside))
    obtain ⟨last, readingLater⟩ := ih further later ran
    exact ⟨last, readingLater.trans reading⟩

theorem runs_of_outs (runs : Runs call (Flushable base) base [] detected state)
    {outs : List (Int × String)}
    (waited : ∀ out ∈ outs, (state.callAt out.1).started = true ∧ Flushable base out.1)
    (ran : outs.forM (fun out => (do call.holdEvents (← toolDelta out.1 out.2) : Chat Unit)) state =
      .ok () next) :
    Runs call (Flushable base) base [] detected next ∧ next.reading = state.reading := by
  induction outs generalizing state with
  | nil =>
    cases ran
    exact ⟨runs, rfl⟩
  | cons out rest ih =>
    obtain ⟨⟨⟩, middle, held, ran⟩ := bind_eq_ok.mp ran
    obtain ⟨started, flushable⟩ := waited out List.mem_cons_self
    obtain ⟨further, reading⟩ := runs_of_holdToolDelta runs started flushable held
    have later : ∀ out ∈ rest, (middle.callAt out.1).started = true ∧ Flushable base out.1 := by
      intro other inside
      obtain ⟨startedOther, flushableOther⟩ := waited other (List.mem_cons_of_mem _ inside)
      exact ⟨(holdToolDelta_ok held).1.stillStarted startedOther, flushableOther⟩
    obtain ⟨last, readingLater⟩ := ih further later ran
    exact ⟨last, readingLater.trans reading⟩

/-- **The Task arguments that have waited.** -/
theorem runs_of_flushTaskArgBuffers (kept : Kept call state)
    (runs : Runs call (Flushable base) base [] detected state)
    (ran : call.flushTaskArgBuffers state = .ok () next) :
    Runs call (Flushable base) base [] detected next ∧ next.reading = state.reading := by
  unfold flushTaskArgBuffers at ran
  rw [get_bind_eq_ok] at ran
  obtain ⟨⟨outs, blocks⟩, middle, flushed, ran⟩ := bind_eq_ok.mp ran
  obtain ⟨flushed, rfl⟩ := raising_eq_ok.mp flushed
  dsimp only at ran
  rw [set_bind_eq_ok] at ran
  obtain ⟨relabels, same, owners⟩ := flushTaskArgBuffers_ok flushed
  have aside : Aside middle (middle.withBlocks blocks) 0 := by
    refine ⟨⟨[], fun out outgoing => ?_, rfl, fun _ _ => rfl,
      fun _ member => absurd member List.not_mem_nil⟩, fun index => (same index).1,
      fun index => (same index).2.1, fun index => (same index).2.2, ?_, rfl⟩
    · rw [List.append_nil]
      exact outgoing
    · exact le_of_eq (congrArg BlockWriter.next relabels.writer).symm
  have waited : ∀ out ∈ outs,
      ((middle.withBlocks blocks).callAt out.1).started = true ∧ Flushable base out.1 := by
    intro out inside
    have waits := owners out inside
    refine ⟨?_, fun idle => waits (idle_of_runs runs rfl idle).2⟩
    exact callAt_started ((kept.started_of_waiting waits).of_writer relabels.writer)
  have all := runs_of_outs (runs.beside aside) waited ran
  exact all

/-- **The flush before the Task arguments**: the calls that the text parser still holds. -/
theorem runs_of_flushContent (kept : Kept call state)
    (ran : call.flushContent state = .ok () next) :
    Runs call (Flushable state) state [] state.heuristicParser.flush.1.length next ∧
      next.finishReason = state.finishReason := by
  unfold flushContent at ran
  obtain ⟨⟨⟩, thought, flushedThink, ran⟩ := bind_eq_ok.mp ran
  obtain ⟨⟨⟩, detected, flushedHeuristic, ran⟩ := bind_eq_ok.mp ran
  obtain ⟨⟨⟩, filled, ensured, ran⟩ := bind_eq_ok.mp ran
  have first := @progress_of_flushThinkParser call (Flushable state) _ _ flushedThink
  have second := @progress_of_flushHeuristicParser call (Flushable state) _ _ flushedHeuristic
  have third := @progress_of_ensureContent call (Flushable state) _ _ ensured
  have parser : thought.heuristicParser = state.heuristicParser :=
    congrArg ContentParsers.heuristic first.parsers
  rw [parser] at second
  have all := (first.trans second).trans third
  rw [Nat.zero_add, Nat.add_zero] at all
  have keptFilled : Kept call filled :=
    returns_ensureContent.of_ok (returns_flushHeuristicParser.of_ok
      (returns_flushThinkParser.of_ok kept flushedThink) flushedHeuristic) ensured
  unfold flushToolArgumentAliasBuffers at ran
  rw [get_bind_eq_ok] at ran
  have started : ∀ entry ∈ filled.aliasBuffers.entries, (filled.callAt entry.1).started = true :=
    fun entry inside => callAt_started (keptFilled.waiting entry.1 entry.2
      ((Dict.mem_entries_iff _).mp inside)).1
  obtain ⟨runs, reading⟩ := runs_of_aliasBuffers all.runs started ran
  exact ⟨runs, (congrArg ChatReading.finishReason reading).trans all.finishReason⟩

end Flush

/-- The end of all blocks tells nothing of tool calls. -/
theorem closeAllBlocks_besides : SseBuilder.closeAllBlocks.Besides 0 := by
  refine @Emit.Besides.followedBy _ _ 0 0 SseBuilder.closeContentBlocks_besides
    ⟨fun _ => rfl, fun _ => le_rfl, fun sse => ?_, fun sse block _ => ?_, fun sse event member => ?_⟩
  · have none : toolStarts (sse.startedToolStates.map fun entry =>
        contentBlockStop entry.2.blockIndex) = [] := by
      refine List.filter_eq_nil_iff.mpr fun event member => ?_
      obtain ⟨entry, -, rfl⟩ := List.mem_map.mp member
      exact Bool.false_ne_true
    exact congrArg List.length none
  · refine List.filter_eq_nil_iff.mpr fun event member => ?_
    obtain ⟨entry, -, rfl⟩ := List.mem_map.mp member
    simp [SseEvent.tells]
  · obtain ⟨entry, -, rfl⟩ := List.mem_map.mp member
    rfl

/-! ### The end of the message -/

/-- The last two events. -/
def messageEnd (sse : SseBuilder) (stopReason : String) (outputTokens : Int) : List SseEvent :=
  [sse.messageDelta stopReason outputTokens, SseBuilder.messageStop]

/-- Counting the tokens changes nothing. -/
theorem state_of_outputTokens {tokens : Int} (ran : call.outputTokens state = .ok tokens next) :
    next = state := by
  unfold outputTokens at ran
  rw [get_bind_eq_ok] at ran
  cases reported : state.usage.bind ChatUsage.completionTokens with
  | some count =>
    simp only [reported] at ran
    cases ran
    rfl
  | none =>
    simp only [reported] at ran
    exact (raising_eq_ok.mp ran).2

/-- **The end of a complete response**: the flush, and the last two events behind it. -/
theorem runs_of_finish (kept : Kept call state) (ran : call.finish state = .ok () next) :
    ∃ before outputTokens,
      Runs call (Flushable state) state [] state.heuristicParser.flush.1.length before ∧
        next.sse = before.sse ∧
        ∀ out, Outgoing before.yielded before.holdback out →
          next.yielded = out ++
            messageEnd before.sse (mapStopReason state.finishReason) outputTokens := by
  unfold finish at ran
  obtain ⟨⟨⟩, flushed, flushedContent, flushedRan⟩ := bind_eq_ok.mp ran
  obtain ⟨⟨⟩, settled, flushedTask, settledRan⟩ := bind_eq_ok.mp flushedRan
  obtain ⟨⟨⟩, closed, wrote, closedRan⟩ := bind_eq_ok.mp settledRan
  obtain ⟨outputTokens, counted, estimated, countedRan⟩ := bind_eq_ok.mp closedRan
  obtain ⟨runs, reason⟩ := runs_of_flushContent kept flushedContent
  obtain ⟨runsTask, readingTask⟩ := runs_of_flushTaskArgBuffers
    (returns_flushContent.of_ok kept flushedContent) runs flushedTask
  obtain ⟨aside, readingClosed⟩ := aside_of_write closeAllBlocks_besides wrote
  obtain rfl := state_of_outputTokens estimated
  have finishReason : counted.finishReason = state.finishReason :=
    (congrArg ChatReading.finishReason (readingClosed.trans readingTask)).trans reason
  rw [get_bind_eq_ok] at countedRan
  obtain ⟨⟨⟩, delta, heldDelta, deltaRan⟩ := bind_eq_ok.mp countedRan
  obtain ⟨⟨⟩, stop, heldStop, lastRan⟩ := bind_eq_ok.mp deltaRan
  obtain ⟨movesDelta, sseDelta, -⟩ := @pushAll_moves call
    [counted.sse.messageDelta (mapStopReason counted.finishReason) outputTokens] counted
  obtain ⟨movesStop, sseStop, -⟩ := @pushAll_moves call [SseBuilder.messageStop] delta
  cases heldDelta
  cases heldStop
  cases lastRan
  refine ⟨counted, outputTokens, runsTask.beside aside, sseStop.trans sseDelta, fun out before => ?_⟩
  have pushed := (movesDelta.trans movesStop).pushes out before
  rw [← finishReason]
  exact pushed.flushed

/-! ### Complete responses -/

/-- The variables in which an attempt begins; its text parser has used `ids` ids before. -/
structure Begun (call : OpenaiCall) (ids : Nat) (state : ChatState) : Prop where
  sse : state.sse = call.newSseBuilder
  outgoing : Outgoing state.yielded state.holdback []
  parsers : state.parsers = ⟨{}, { ids }⟩
  finishReason : state.finishReason = none
  aliasBuffers : state.aliasBuffers = ∅

theorem begun_initialState (call : OpenaiCall) : Begun call 0 call.initialState :=
  ⟨rfl, Outgoing.init, rfl, rfl, rfl⟩

/-- An attempt that is started over has sent nothing. -/
theorem begun_startOver {failed : ChatState} {error : UpstreamError} {salvageable : Bool}
    {retries : Nat} (kept : Kept call failed)
    (again : startsOver failed error salvageable retries = true) :
    Begun call failed.heuristicParser.ids (call.startOver failed) := by
  obtain ⟨out, -, outgoing, -⟩ := kept.written
  simp only [startsOver, Bool.and_eq_true, Bool.not_eq_true'] at again
  have nothing := outgoing.quiet again.1.1.1.1
  refine ⟨rfl, ?_, rfl, rfl, rfl⟩
  show Outgoing failed.yielded {} []
  rw [nothing]
  exact Outgoing.init

/-- The upstream side of a response: the chunks that are read, the aliases of the tools' arguments,
and the ids that the text parser had used before. -/
structure Upstream where
  chunks : List ChatChunk
  aliases : Dict String (Dict String String)
  ids : Nat

/-- **The response is complete**: an attempt reads the chunks to their end and is finished, behind
attempts that were started over. -/
inductive Completes (call : OpenaiCall) (upstream : Upstream) (final : ChatState) :
    (retries : Nat) → ChatState → Prop
  | finishes {retries requests : Nat} {state ended : ChatState} {stream : ChatStream} {body : Body}
      (ids : state.heuristicParser.ids = upstream.ids)
      (created : call.createStream state.body state.requests = (.ok (stream, body), requests))
      (chunks : stream.chunks = upstream.chunks)
      (aliases : call.provider.toolArgumentAliases body = .ok upstream.aliases)
      (connected : call.connect state = .ok () ended)
      (finished : call.finish ended = .ok () final) : Completes call upstream final retries state
  | startsOver {retries : Nat} {state failed : ChatState} {error : UpstreamError}
      {salvageable : Bool} (interrupted : call.connect state = .error error failed)
      (asked : call.completeToolSalvageable failed.sse = .ok salvageable)
      (again : startsOver failed error salvageable (retries + 1) = true)
      (later : Completes call upstream final retries (call.startOver failed)) :
      Completes call upstream final (retries + 1) state

/-- The whole response. -/
def Responds (call : OpenaiCall) (upstream : Upstream) (final : ChatState) : Prop :=
  Completes call upstream final earlyTransparentMaxRetries call.initialState

theorem streamFrom_of_completes {upstream : Upstream} {final : ChatState} {retries : Nat}
    (completes : Completes call upstream final retries state) :
    call.streamFrom retries state = .ok () final := by
  induction completes with
  | finishes _ _ _ _ connected finished =>
    rw [streamFrom, connected]
    exact finished
  | startsOver interrupted asked again _ ih =>
    rw [streamFrom, interrupted]
    dsimp only
    rw [asked]
    dsimp only
    rw [again]
    exact ih

/-- What the client receives. -/
theorem streamResponse_of_responds {upstream : Upstream} {final : ChatState}
    (responds : Responds call upstream final) :
    call.streamResponse = (call.newSseBuilder.messageStart :: final.yielded, none) := by
  rw [streamResponse, streamFrom_of_completes responds]

/-- An attempt that reads its chunks to their end. -/
theorem connect_ok {stream : ChatStream} {body : Body} {requests : Nat}
    {aliases : Dict String (Dict String String)}
    (created : call.createStream state.body state.requests = (.ok (stream, body), requests))
    (known : call.provider.toolArgumentAliases body = .ok aliases)
    (ran : call.connect state = .ok () next) :
    stream.chunks.forM call.handleChunk { state with
      streamOpened := true, body, requests, toolArgumentAliases := aliases } = .ok () next := by
  unfold connect at ran
  rw [modify_bind_eq_ok, get_bind_eq_ok] at ran
  obtain ⟨_, asked, requested, opened⟩ := bind_eq_ok.mp ran
  unfold requesting at requested
  dsimp only at requested
  rw [created] at requested
  cases requested
  dsimp only at opened
  rw [modify_bind_eq_ok, known] at opened
  dsimp only at opened
  rw [modify_bind_eq_ok] at opened
  unfold readStream at opened
  obtain ⟨⟨⟩, read, loop, checked⟩ := bind_eq_ok.mp opened
  cases ending : stream.ending with
  | some error =>
    simp only [ending] at checked
    cases checked
  | none =>
    simp only [ending] at checked
    rw [get_bind_eq_ok] at checked
    split_ifs at checked
    · cases checked
    · cases checked
      exact loop

/-- The parts of a complete response: the chunk loop from `opened` to `ended`, the flush, and the
events that were pushed till then. -/
structure Parts (call : OpenaiCall) (upstream : Upstream) (final opened ended : ChatState)
    (detected flushed : Nat) (out : List SseEvent) (before : ChatState) (outputTokens : Int) :
    Prop where
  sse : opened.sse = call.newSseBuilder
  aliases : opened.toolArgumentAliases = upstream.aliases
  outgoing : Outgoing opened.yielded opened.holdback []
  read : Runs call (fun _ => False) opened (upstream.chunks.flatMap ChatChunk.toolCalls) detected ended
  flush : Runs call (Flushable ended) ended [] flushed before
  detections : call.detectedCalls ⟨{}, { ids := upstream.ids }⟩ upstream.chunks =
    .ok (detected + flushed)
  pushed : Outgoing before.yielded before.holdback out
  blocks : final.sse = before.sse
  yielded : final.yielded =
    out ++ messageEnd before.sse (mapStopReason (finishReasonOf upstream.chunks)) outputTokens

/-- ChatMoves push events. -/
theorem outgoing_of_runs {deltas : List ToolCallDelta} {detected : Nat} {out : List SseEvent}
    (runs : Runs call late state deltas detected next)
    (outgoing : Outgoing state.yielded state.holdback out) :
    ∃ events, Outgoing next.yielded next.holdback (out ++ events) := by
  induction runs with
  | start => exact ⟨[], by rwa [List.append_nil]⟩
  | aside _ aside ih =>
    obtain ⟨events, before⟩ := ih
    obtain ⟨told, pushes, -⟩ := aside.told
    exact ⟨events ++ told, by rw [← List.append_assoc]; exact pushes _ before⟩
  | @delta _ _ middle _ tc _ ran ih =>
    obtain ⟨events, before⟩ := ih
    obtain ⟨function, -, step⟩ := processToolCall_ok ran
    have registered : Outgoing (registeredState tc function middle).yielded
      (registeredState tc function middle).holdback (out ++ events) := before
    cases step with
    | passes pieces _ delivers _ =>
      exact ⟨_, by rw [← List.append_assoc]; exact delivers.moves.pushes _ registered⟩
    | begins pieces _ _ begins _ =>
      exact ⟨_, by rw [← List.append_assoc]; exact begins.moves.pushes _ registered⟩
    | waits _ _ moves _ =>
      exact ⟨_, by rw [← List.append_assoc]; exact moves.pushes _ registered⟩
  | flush _ _ _ delivers ih =>
    obtain ⟨events, before⟩ := ih
    exact ⟨_, by rw [← List.append_assoc]; exact delivers.moves.pushes _ before⟩

/-- **The whole message**, from the start of any attempt. -/
theorem parts_of_completes {upstream : Upstream} {final : ChatState} {retries ids : Nat}
    (completes : Completes call upstream final retries state) (begun : Begun call ids state) :
    ∃ opened ended detected flushed out before outputTokens,
      Parts call upstream final opened ended detected flushed out before outputTokens := by
  induction completes generalizing ids with
  | @finishes retries requests state ended stream body used created chunks aliases connected finished =>
    have loop := connect_ok created aliases connected
    rw [chunks] at loop
    obtain ⟨detected, parsers, detects, read, parsed, reason⟩ :=
      @runs_of_chunks call (fun _ => False) _ _ _ loop
    have kept := keeps_connect.of_ok (Kept.fresh begun.sse begun.outgoing begun.aliasBuffers) connected
    obtain ⟨before, outputTokens, flush, blocks, yielded⟩ := runs_of_finish kept finished
    obtain ⟨events, outgoing⟩ := outgoing_of_runs read begun.outgoing
    obtain ⟨later, pushed⟩ := outgoing_of_runs flush outgoing
    have parser : ended.heuristicParser = parsers.heuristic :=
      congrArg ContentParsers.heuristic parsed
    have same : state.heuristicParser.ids = ids :=
      congrArg (fun parsers : ContentParsers => parsers.heuristic.ids) begun.parsers
    have begins : state.parsers = ⟨{}, { ids := upstream.ids }⟩ := by
      rw [begun.parsers, ← used, same]
    refine ⟨{ state with
        streamOpened := true, body, requests, toolArgumentAliases := upstream.aliases }, ended, detected,
      _, _, before, outputTokens, begun.sse, rfl, begun.outgoing, read, flush, ?_, pushed, blocks, ?_⟩
    · change call.detectContents state.parsers _ = _ at detects
      rw [detectedCalls, ← begins, detects, parser]
      rfl
    · rw [yielded _ pushed, reason]
      have fresh : state.finishReason = none := begun.finishReason
      rw [finishReasonOf, ← fresh]
  | startsOver interrupted _ again _ ih =>
    have kept := keeps_connect.of_error (Kept.fresh begun.sse begun.outgoing begun.aliasBuffers)
      interrupted
    exact ih (begun_startOver kept again)

end OpenaiCall

end ClaudeProxy
