/-
**One tool call, put together from its fragments.**

The deltas of a call carry fragments of its id, its name and its arguments. Its block is started at
the first fragment that brings some name, under the name and the id that are known by then.

* `assembled` — a part of the call, put together; `lastId` — the id that is known.
* `Waits`, `Speaks` — a call before its block is started, and behind that: what its block has told.
* **`Followed`** — one call along all moves; `followed_of_runs`.
* `SentWhole` — one delta brings the whole name, and one the whole id, no later.
* **`reassembles_iff`** — the block shows the call exactly when it is sent so.
-/

import ClaudeProxy.Provider.OpenaiStopReason

namespace ClaudeProxy

open Json (getKey)
open RecoveryHoldbackBuffer (Outgoing)

/-! ### Fragments -/

namespace ToolCallDelta

/-- The fragment of an id that the delta brings. -/
def idFragment (tc : ToolCallDelta) : String := tc.id.getD ""

/-- The fragment of the arguments. -/
def argumentFragment (tc : ToolCallDelta) : String :=
  (tc.function.bind FunctionDelta.arguments).getD ""

end ToolCallDelta

/-- A part of a call, put together from its fragments. -/
def assembled (part : ToolCallDelta → String) (deltas : List ToolCallDelta) : String :=
  Py.join "" (deltas.map part)

/-- The id that is known behind these deltas. -/
def lastId (deltas : List ToolCallDelta) : String :=
  deltas.foldl (fun known tc => if tc.idFragment = "" then known else tc.idFragment) ""

/-- The deltas of one call. -/
def deltasOf (index : Int) (deltas : List ToolCallDelta) : List ToolCallDelta :=
  deltas.filter fun tc => decide (tc.index.getD 0 = index)

theorem assembled_append (part : ToolCallDelta → String) (first second : List ToolCallDelta) :
    assembled part (first ++ second) = assembled part first ++ assembled part second := by
  rw [assembled, List.map_append, Py.join_append, assembled, assembled]

theorem assembled_singleton (part : ToolCallDelta → String) (tc : ToolCallDelta) :
    assembled part [tc] = part tc :=
  Py.join_singleton "" (part tc)

theorem lastId_concat (deltas : List ToolCallDelta) (tc : ToolCallDelta) :
    lastId (deltas ++ [tc]) = if tc.idFragment = "" then lastId deltas else tc.idFragment := by
  rw [lastId, List.foldl_concat]
  rfl

theorem deltasOf_append (index : Int) (first second : List ToolCallDelta) :
    deltasOf index (first ++ second) = deltasOf index first ++ deltasOf index second :=
  List.filter_append first second

theorem deltasOf_same {index : Int} {tc : ToolCallDelta} (same : tc.index.getD 0 = index) :
    deltasOf index [tc] = [tc] :=
  List.filter_cons_of_pos (decide_eq_true same)

theorem deltasOf_ne {index : Int} {tc : ToolCallDelta} (other : tc.index.getD 0 ≠ index) :
    deltasOf index [tc] = [] :=
  List.filter_cons_of_neg (by rwa [decide_eq_true_eq])

/-- Every fragment of the name is empty or the whole of it. -/
def NamedWhole (name : String) (deltas : List ToolCallDelta) : Prop :=
  Py.strip name ≠ "" ∧ ∀ tc ∈ deltas, tc.nameFragment = "" ∨ tc.nameFragment = name

theorem NamedWhole.of_append {name : String} {first second : List ToolCallDelta}
    (whole : NamedWhole name (first ++ second)) : NamedWhole name first :=
  ⟨whole.1, fun tc inside => whole.2 tc (List.mem_append_left _ inside)⟩

theorem registeredName_empty (fragment : String) : registeredName "" fragment = fragment := by
  rw [registeredName, decide_eq_true rfl, Bool.true_or, if_pos rfl]

/-- An empty fragment, and the same name again, leave a name as it is. -/
theorem registeredName_known {name fragment : String} (known : name ≠ "")
    (same : fragment = "" ∨ fragment = name) : registeredName name fragment = name := by
  unfold registeredName
  have starts : Py.startsWith name fragment = true := by
    rw [startsWith_iff]
    rcases same with rfl | rfl
    · exact ⟨name, (String.empty_append).symm⟩
    · exact ⟨"", (String.append_empty).symm⟩
  split_ifs with restated extended
  · rw [Bool.or_eq_true, decide_eq_true_eq] at restated
    rcases restated with nothing | restated
    · exact absurd nothing known
    · rcases same with rfl | rfl
      · obtain ⟨rest, empty⟩ := startsWith_iff.mp restated
        have lengths := congrArg Py.len empty
        rw [Py.len_append] at lengths
        have none : Py.len name = 0 := by
          have zero : Py.len "" = 0 := rfl
          omega
        exact absurd (String.toList_eq_nil_iff.mp (List.length_eq_zero_iff.mp none)) known
      · rfl
  · rw [starts] at extended
    cases extended
  · rfl

/-- The first fragment that brings some name, behind white space. -/
theorem strip_registeredName_of_blank {name fragment : String} (blank : Py.strip name = "")
    (names : Py.strip fragment ≠ "") :
    Py.strip (registeredName name fragment) = Py.strip fragment := by
  unfold registeredName
  split_ifs with restated extended
  · rfl
  · exact Py.strip_append_of_blank blank fragment
  · rw [Bool.not_eq_true', Bool.not_eq_false, startsWith_iff] at extended
    obtain ⟨rest, rfl⟩ := extended
    exact absurd (Py.strip_append_eq_empty_iff.mp blank).1 names

namespace OpenaiCall

open ContentBlockManager (Revises)

variable {call : OpenaiCall} {late : Int → Prop} {state next : ChatState}

/-- A name that is sent as a whole. -/
theorem registered_whole {name : String} {tc : ToolCallDelta} {function : FunctionDelta}
    {tool : ToolCallState} (given : tc.function = some function) (visible : Py.strip name ≠ "")
    (known : tool.name = "" ∨ tool.name = name)
    (fragment : tc.nameFragment = "" ∨ tc.nameFragment = name) :
    (registered tc function tool).name = if tc.nameFragment = "" then tool.name else name := by
  have some : name ≠ "" := by
    rintro rfl
    exact visible (by decide)
  rw [registered_name]
  cases brought : function.name with
  | none =>
    have empty : tc.nameFragment = "" := by
      rw [ToolCallDelta.nameFragment, given, Option.bind_some, brought, Option.getD_none]
    rw [if_pos empty]
    rfl
  | some text =>
    have same : tc.nameFragment = text := by
      rw [ToolCallDelta.nameFragment, given, Option.bind_some, brought, Option.getD_some]
    rw [same] at fragment ⊢
    show registeredName tool.name text = _
    rcases known with unnamed | named
    · rw [unnamed, registeredName_empty]
      split_ifs with empty
      · exact empty
      · exact fragment.resolve_left empty
    · rw [named, registeredName_known some fragment, ite_self]

/-! ### Blocks -/

theorem blockView_start (block other : Int) (toolId : String) (tool : ToolCallState)
    (pieces : List String) :
    blockView other (toolStart block toolId tool :: pieces.map (inputDelta block)) =
      if block = other then toolStart block toolId tool :: pieces.map (inputDelta block) else [] := by
  have told := tells_toolStart block other toolId tool
  split_ifs with same
  · rw [decide_eq_true same] at told
    rw [blockView, List.filter_cons_of_pos told, ← same]
    exact congrArg _ (blockView_pieces block pieces)
  · rw [decide_eq_false same] at told
    rw [blockView, List.filter_cons_of_neg (by rw [told]; exact Bool.false_ne_true)]
    exact blockView_pieces_ne same pieces

/-- Started calls have blocks of their own, and no other block has been told of. -/
structure Placed (out : List SseEvent) (state : ChatState) : Prop where
  below : ∀ index, (state.callAt index).started = true →
    (state.callAt index).blockIndex < state.sse.blocks.nextIndex
  apart : ∀ first second, (state.callAt first).started = true →
    (state.callAt second).started = true →
    (state.callAt first).blockIndex = (state.callAt second).blockIndex → first = second
  unseen : ∀ block, state.sse.blocks.nextIndex ≤ block → blockView block out = []

/-- The same calls are started, in the same blocks. -/
def SamePlaces (state next : ChatState) : Prop :=
  ∀ index, (next.callAt index).started = (state.callAt index).started ∧
    (next.callAt index).blockIndex = (state.callAt index).blockIndex

theorem samePlaces_of_delivers {index : Int} {pieces : List String}
    (delivers : Delivers state next index pieces) : SamePlaces state next := by
  intro other
  by_cases here : other = index
  · rw [here]
    exact ⟨delivers.started_same, delivers.block_same⟩
  · rw [ChatState.callAt, delivers.revises.others other here]
    exact ⟨rfl, rfl⟩

namespace Placed

variable {out events : List SseEvent}

theorem still (placed : Placed out state) (same : SamePlaces state next)
    (upward : state.sse.blocks.nextIndex ≤ next.sse.blocks.nextIndex)
    (unseen : ∀ block, next.sse.blocks.nextIndex ≤ block → blockView block events = []) :
    Placed (out ++ events) next := by
  refine ⟨fun index started => ?_, fun first second startedFirst startedSecond blocks => ?_,
    fun block above => ?_⟩
  · rw [(same index).1] at started
    rw [(same index).2]
    exact lt_of_lt_of_le (placed.below index started) upward
  · rw [(same first).1] at startedFirst
    rw [(same second).1] at startedSecond
    rw [(same first).2, (same second).2] at blocks
    exact placed.apart first second startedFirst startedSecond blocks
  · rw [blockView_append, placed.unseen block (le_trans upward above), unseen block above]
    rfl

/-- Nothing is told. -/
theorem quiet (placed : Placed out state) (same : SamePlaces state next)
    (nextIndex : next.sse.blocks.nextIndex = state.sse.blocks.nextIndex) : Placed out next := by
  have still := @still _ _ _ [] placed same (le_of_eq nextIndex.symm) fun _ _ => rfl
  rwa [List.append_nil] at still

/-- Argument text for a started call. -/
theorem delivers (placed : Placed out state) {index : Int} {pieces : List String}
    (started : (state.callAt index).started = true) (delivers : Delivers state next index pieces) :
    Placed (out ++ pieces.map (inputDelta (state.callAt index).blockIndex)) next := by
  have sameIndex := delivers.revises.nextIndex
  refine placed.still (samePlaces_of_delivers delivers) (le_of_eq sameIndex.symm) fun block above => ?_
  have below := placed.below index started
  refine blockView_pieces_ne ?_ pieces
  rw [sameIndex] at above
  exact ne_of_lt (lt_of_lt_of_le below above)

/-- A call is started in a new block. -/
theorem begins (placed : Placed out state) {index : Int} {toolId : String} {pieces : List String}
    (begins : Begins state next index toolId pieces) :
    Placed (out ++ toolStart state.sse.blocks.nextIndex toolId (state.callAt index) ::
      pieces.map (inputDelta state.sse.blocks.nextIndex)) next := by
  have block : (next.callAt index).blockIndex = state.sse.blocks.nextIndex := by
    rw [begins.same]
    rfl
  have others : ∀ other, other ≠ index → (next.callAt other).started = true →
      (state.callAt other).started = true ∧
        (next.callAt other).blockIndex = (state.callAt other).blockIndex ∧
        (next.callAt other).blockIndex < state.sse.blocks.nextIndex := by
    intro other away started
    rw [begins.others other away] at started ⊢
    exact ⟨started, rfl, placed.below other started⟩
  refine ⟨fun other started => ?_, fun first second startedFirst startedSecond same => ?_,
    fun other above => ?_⟩
  · rw [begins.nextIndex]
    by_cases here : other = index
    · rw [here, block]
      omega
    · have below := (others other here started).2.2
      omega
  · by_cases hereFirst : first = index
    · by_cases hereSecond : second = index
      · rw [hereFirst, hereSecond]
      · have below := (others second hereSecond startedSecond).2.2
        rw [hereFirst, block] at same
        omega
    · obtain ⟨wasFirst, blockFirst, below⟩ := others first hereFirst startedFirst
      by_cases hereSecond : second = index
      · rw [hereSecond, block] at same
        omega
      · obtain ⟨wasSecond, blockSecond, -⟩ := others second hereSecond startedSecond
        exact placed.apart first second wasFirst wasSecond
          (blockFirst.symm.trans (same.trans blockSecond))
  · rw [begins.nextIndex] at above
    rw [blockView_append, placed.unseen other (by omega), blockView_start, if_neg (by omega)]
    rfl

end Placed

/-- A call that waits keeps its place. -/
theorem samePlaces_of_waits {index : Int} {arguments : String}
    (revises : Revises state.sse.blocks next.sse.blocks index
      { state.callAt index with preStartArgs := arguments }) : SamePlaces state next := by
  intro other
  by_cases here : other = index
  · rw [here, ChatState.callAt, revises.here]
    exact ⟨rfl, rfl⟩
  · rw [ChatState.callAt, revises.others other here]
    exact ⟨rfl, rfl⟩

/-- A registration places no call. -/
theorem samePlaces_registeredState (tc : ToolCallDelta) (function : FunctionDelta) :
    SamePlaces state (registeredState tc function state) := by
  have revises := revises_registerToolCall (toolCallIndex tc state.sse.blocks) tc function
    state.sse.blocks
  intro other
  by_cases here : other = toolCallIndex tc state.sse.blocks
  · rw [here, callAt_registeredState]
    exact ⟨(registered_rest tc function _).1, (registered_rest tc function _).2.1⟩
  · have stays : (registeredState tc function state).callAt other = state.callAt other :=
      revises.others other here
    rw [stays]
    exact ⟨rfl, rfl⟩

theorem placed_registeredState {out : List SseEvent} {tc : ToolCallDelta} {function : FunctionDelta}
    (placed : Placed out state) : Placed out (registeredState tc function state) :=
  placed.quiet (samePlaces_registeredState tc function)
    (revises_registerToolCall (toolCallIndex tc state.sse.blocks) tc function
      state.sse.blocks).nextIndex

theorem toolCallIndex_of_nonneg {tc : ToolCallDelta} {blocks : ContentBlockManager}
    (nonneg : 0 ≤ tc.index.getD 0) : toolCallIndex tc blocks = tc.index.getD 0 :=
  if_neg (not_lt.mpr nonneg)

/-! ### One call -/

/-- The id of a block: the one that is known, or a new one. -/
def shownId (call : OpenaiCall) (number : Nat) (known : String) : String :=
  if known = "" then "tool_" ++ call.toolUuid number else known

/-- The call waits for its name, which is `name` if it is sent as a whole. -/
structure Waits (name : String) (mine : List ToolCallDelta) (tool : ToolCallState) : Prop where
  unstarted : tool.started = false
  nameless : ∀ tc ∈ mine, ¬ tc.NamesCall
  blank : Py.strip tool.name = ""
  whole : NamedWhole name mine → tool.name = ""
  toolId : tool.toolId = lastId mine
  preStartArgs : tool.preStartArgs = assembled ToolCallDelta.argumentFragment mine
  idle : tool.taskArgBuffer = ""

/-- The call has a block, started at the first delta that brought some name; its arguments are told
if the name was sent as a whole. -/
structure Speaks (call : OpenaiCall) (name : String) (mine : List ToolCallDelta)
    (out : List SseEvent) (tool : ToolCallState) (before : List ToolCallDelta)
    (naming : ToolCallDelta) (after : List ToolCallDelta) (start : SseEvent) (number : Nat)
    (pieces : List String) : Prop where
  started : tool.started = true
  split : mine = before ++ naming :: after
  nameless : ∀ tc ∈ before, ¬ tc.NamesCall
  names : naming.NamesCall
  told : blockView tool.blockIndex out = start :: pieces.map (inputDelta tool.blockIndex)
  starts : start.StartsTool tool.blockIndex (shownId call number (lastId (before ++ [naming])))
    (Py.strip naming.nameFragment)
  startsToolUse : start.startsToolUse = true
  whole : NamedWhole name mine → tool.name = name ∧ tool.taskArgBuffer = "" ∧
    Py.join "" pieces = assembled ToolCallDelta.argumentFragment mine

/-- **One call along the moves.** -/
structure Followed (call : OpenaiCall) (name : String)
    (aliases : Dict String (Dict String String)) (index : Int) (deltas : List ToolCallDelta)
    (out : List SseEvent) (state : ChatState) : Prop where
  pushed : Outgoing state.yielded state.holdback out
  placed : Placed out state
  aliases : state.toolArgumentAliases = aliases
  calls : Waits name (deltasOf index deltas) (state.callAt index) ∨
    ∃ before naming after start number pieces, Speaks call name (deltasOf index deltas) out
      (state.callAt index) before naming after start number pieces

variable {name : String} {aliases : Dict String (Dict String String)} {index : Int}
  {deltas mine before after : List ToolCallDelta} {naming : ToolCallDelta} {out events : List SseEvent}
  {tool later : ToolCallState} {start : SseEvent} {number : Nat} {pieces : List String}

/-- Nothing happens to the call. -/
theorem Waits.still (waits : Waits name mine tool) (same : tool.Same later)
    (idle : tool.taskArgBuffer = "" → later.taskArgBuffer = "") : Waits name mine later := by
  rw [ToolCallState.Same] at same
  refine ⟨?_, waits.nameless, ?_, ?_, ?_, ?_, idle waits.idle⟩
  · rw [same]
    exact waits.unstarted
  · rw [same]
    exact waits.blank
  · rw [same]
    exact waits.whole
  · rw [same]
    exact waits.toolId
  · rw [same]
    exact waits.preStartArgs

theorem Speaks.still (speaks : Speaks call name mine out tool before naming after start number pieces)
    (same : tool.Same later) (idle : tool.taskArgBuffer = "" → later.taskArgBuffer = "")
    (untold : blockView tool.blockIndex events = []) :
    Speaks call name mine (out ++ events) later before naming after start number pieces := by
  have block : later.blockIndex = tool.blockIndex := by
    rw [same]
  refine ⟨?_, speaks.split, speaks.nameless, speaks.names, ?_, ?_, speaks.startsToolUse,
    fun whole => ?_⟩
  · rw [same]
    exact speaks.started
  · rw [block, blockView_append, untold, List.append_nil]
    exact speaks.told
  · rw [block]
    exact speaks.starts
  · obtain ⟨isNamed, empty, joined⟩ := speaks.whole whole
    refine ⟨?_, idle empty, joined⟩
    rw [same]
    exact isNamed

/-- Its block is told of further arguments. -/
theorem Speaks.hears {further : List ToolCallDelta} {new : List String}
    (speaks : Speaks call name mine out tool before naming after start number pieces)
    (started : later.started = true) (block : later.blockIndex = tool.blockIndex)
    (whole : NamedWhole name (mine ++ further) → later.name = name ∧ later.taskArgBuffer = "" ∧
      Py.join "" new = assembled ToolCallDelta.argumentFragment further) :
    Speaks call name (mine ++ further) (out ++ new.map (inputDelta tool.blockIndex)) later before
      naming (after ++ further) start number (pieces ++ new) := by
  refine ⟨started, ?_, speaks.nameless, speaks.names, ?_, ?_, speaks.startsToolUse, fun isWhole => ?_⟩
  · rw [speaks.split, List.append_assoc, List.cons_append]
  · rw [block, blockView_append, speaks.told, blockView_pieces, List.map_append, List.cons_append]
  · rw [block]
    exact speaks.starts
  · obtain ⟨isNamed, empty, joined⟩ := whole isWhole
    refine ⟨isNamed, empty, ?_⟩
    rw [Py.join_append, (speaks.whole isWhole.of_append).2.2, joined, assembled_append]

namespace Followed

/-- At the start there is no call. -/
theorem fresh (sse : state.sse = call.newSseBuilder) (known : state.toolArgumentAliases = aliases)
    (pushed : Outgoing state.yielded state.holdback []) :
    Followed call name aliases index [] [] state := by
  have unknown : ∀ other, state.callAt other = ToolCallState.fresh := by
    intro other
    rw [ChatState.callAt, sse]
    rfl
  refine ⟨pushed, ⟨fun other started => ?_, fun first _ started => ?_, fun _ _ => rfl⟩, known,
    Or.inl ?_⟩
  · rw [unknown] at started
    cases started
  · rw [unknown] at started
    cases started
  · rw [unknown]
    exact ⟨rfl, fun _ member => absurd member List.not_mem_nil, by decide, fun _ => rfl, rfl, rfl, rfl⟩

/-- What leaves the call alone. -/
theorem still (followed : Followed call name aliases index deltas out state)
    (pushed : Outgoing next.yielded next.holdback (out ++ events)) (placed : Placed (out ++ events) next)
    (same : next.toolArgumentAliases = state.toolArgumentAliases)
    (call' : (state.callAt index).Same (next.callAt index))
    (idle : (state.callAt index).taskArgBuffer = "" → (next.callAt index).taskArgBuffer = "")
    (untold : (state.callAt index).started = true →
      blockView (state.callAt index).blockIndex events = []) :
    Followed call name aliases index deltas (out ++ events) next := by
  refine ⟨pushed, placed, same.trans followed.aliases, ?_⟩
  rcases followed.calls with waits | ⟨before, naming, after, start, number, pieces, speaks⟩
  · exact Or.inl (waits.still call' idle)
  · exact Or.inr ⟨before, naming, after, start, number, pieces,
      speaks.still call' idle (untold speaks.started)⟩

theorem aside {further : Nat} (followed : Followed call name aliases index deltas out state)
    (aside : Aside state next further) :
    ∃ events, Followed call name aliases index deltas (out ++ events) next := by
  obtain ⟨events, pushes, -, view, -⟩ := aside.told
  have places : SamePlaces state next := fun other => by
    rw [aside.calls other]
    exact ⟨rfl, rfl⟩
  have placed : Placed (out ++ events) next :=
    followed.placed.still places aside.upward fun block above => view block (Or.inr above)
  refine ⟨events, followed.still (pushes _ followed.pushed) placed aside.aliases (aside.calls index)
    (aside.waiting index) fun started => view _ (Or.inl (followed.placed.below index started))⟩

/-- Arguments that have waited, of another call or of one whose name came in pieces. -/
theorem flush (followed : Followed call name aliases index deltas out state) {other : Int}
    (started : (state.callAt other).started = true) (delivers : Delivers state next other pieces)
    (quiet : NamedWhole name (deltasOf index deltas) → other ≠ index) :
    ∃ events, Followed call name aliases index deltas (out ++ events) next := by
  have pushed := delivers.moves.pushes _ followed.pushed
  have placed := followed.placed.delivers started delivers
  have same := congrArg ChatReading.toolArgumentAliases delivers.moves.reading
  by_cases here : other = index
  · refine ⟨_, pushed, placed, same.trans followed.aliases, Or.inr ?_⟩
    rw [here] at started delivers
    rcases followed.calls with waits | ⟨before, naming, after, start, number, told, speaks⟩
    · exact absurd (waits.unstarted.symm.trans started) Bool.false_ne_true
    · have whole : NamedWhole name (deltasOf index deltas ++ []) → (next.callAt index).name = name ∧
          (next.callAt index).taskArgBuffer = "" ∧
          Py.join "" pieces = assembled ToolCallDelta.argumentFragment [] := by
        rw [List.append_nil]
        exact fun whole => absurd here (quiet whole)
      have hears := speaks.hears (delivers.started_same.trans started) delivers.block_same whole
      rw [List.append_nil, List.append_nil] at hears
      rw [here]
      exact ⟨before, naming, after, start, number, _, hears⟩
  · have stays : next.callAt index = state.callAt index :=
      delivers.revises.others index (Ne.symm here)
    refine ⟨_, followed.still pushed placed same ?_ ?_ fun startedHere => ?_⟩
    · rw [stays]
      rfl
    · rw [stays]
      exact id
    · exact blockView_pieces_ne (fun blocks => here
        (followed.placed.apart other index started startedHere blocks)) pieces

/-- A delta of another call. -/
theorem other (followed : Followed call name aliases index deltas out state) {tc : ToolCallDelta}
    (nonneg : 0 ≤ tc.index.getD 0) (away : tc.index.getD 0 ≠ index)
    (ran : call.processToolCall tc state = .ok () next) :
    ∃ events, Followed call name aliases index (deltas ++ [tc]) (out ++ events) next := by
  obtain ⟨function, -, step⟩ := processToolCall_ok ran
  have isIndex := @toolCallIndex_of_nonneg tc state.sse.blocks nonneg
  have registers := revises_registerToolCall (toolCallIndex tc state.sse.blocks) tc function
    state.sse.blocks
  rw [isIndex] at step registers
  have same : (registeredState tc function state).callAt index = state.callAt index := by
    have others := registers.others index (Ne.symm away)
    rw [← isIndex] at others
    exact others
  have known : Followed call name aliases index deltas out (registeredState tc function state) := by
    refine ⟨followed.pushed, placed_registeredState followed.placed, followed.aliases, ?_⟩
    rw [same]
    exact followed.calls
  have grown : ∀ {out : List SseEvent}, Followed call name aliases index deltas out next →
      Followed call name aliases index (deltas ++ [tc]) out next := by
    intro out here
    refine ⟨here.pushed, here.placed, here.aliases, ?_⟩
    rw [deltasOf_append, deltasOf_ne away, List.append_nil]
    exact here.calls
  cases step with
  | passes pieces started delivers _ =>
    obtain ⟨events, here⟩ := known.flush started delivers fun _ => away
    exact ⟨events, grown here⟩
  | begins pieces unstarted named begins _ =>
    have stays := begins.others index (Ne.symm away)
    refine ⟨_, grown (known.still (begins.moves.pushes _ known.pushed)
      (known.placed.begins begins)
      (congrArg ChatReading.toolArgumentAliases begins.moves.reading) ?_ ?_ fun started => ?_)⟩
    · rw [stays]
      rfl
    · rw [stays]
      exact id
    · have below := known.placed.below index started
      rw [blockView_start, if_neg (ne_of_gt below)]
  | waits unstarted unnamed moves revises =>
    have stays : next.callAt index = (registeredState tc function state).callAt index :=
      revises.others index (Ne.symm away)
    have pushed := moves.pushes _ known.pushed
    refine ⟨[], grown (known.still pushed ?_ (congrArg ChatReading.toolArgumentAliases moves.reading)
      ?_ ?_ fun _ => rfl)⟩
    · rw [List.append_nil]
      exact known.placed.quiet (samePlaces_of_waits revises) revises.nextIndex
    · rw [stays]
      rfl
    · rw [stays]
      exact id

/-- **A delta of the call.** -/
theorem own (followed : Followed call name aliases index deltas out state) {tc : ToolCallDelta}
    (nonneg : 0 ≤ tc.index.getD 0) (here : tc.index.getD 0 = index)
    (plain : name ≠ "Task" ∧ ((aliases.get? name).getD ∅).entries = [])
    (ran : call.processToolCall tc state = .ok () next) :
    ∃ events, Followed call name aliases index (deltas ++ [tc]) (out ++ events) next := by
  obtain ⟨function, given, step⟩ := processToolCall_ok ran
  have isIndex := @toolCallIndex_of_nonneg tc state.sse.blocks nonneg
  have called := callAt_registeredState tc function state
  rw [isIndex, here] at step called
  have placed := @placed_registeredState state out tc function followed.placed
  have pushed : Outgoing (registeredState tc function state).yielded
    (registeredState tc function state).holdback out := followed.pushed
  have blank := @strip_registered tc function (state.callAt index) given
  obtain ⟨started', block', args', buffer', -⟩ := registered_rest tc function (state.callAt index)
  have arguments : function.arguments.getD "" = tc.argumentFragment := by
    rw [ToolCallDelta.argumentFragment, given]
    rfl
  have mine : deltasOf index (deltas ++ [tc]) = deltasOf index deltas ++ [tc] := by
    rw [deltasOf_append, deltasOf_same here]
  have isPlain : Plain (registeredState tc function state) name := by
    refine ⟨plain.1, ?_⟩
    rw [← plain.2, ← followed.aliases]
    rfl
  rw [arguments] at step
  cases step with
  | passes pieces started delivers all =>
    have aliased := (congrArg ChatReading.toolArgumentAliases delivers.moves.reading).trans followed.aliases
    refine ⟨_, delivers.moves.pushes _ pushed, placed.delivers started delivers, aliased, Or.inr ?_⟩
    rw [called] at started
    rw [started'] at started
    rcases followed.calls with waits | ⟨before, naming, after, start, number, told, speaks⟩
    · exact absurd (waits.unstarted.symm.trans started) Bool.false_ne_true
    · have block : ((registeredState tc function state).callAt index).blockIndex =
          (state.callAt index).blockIndex := by
        rw [called, block']
      have startedNow : (next.callAt index).started = true := by
        rw [delivers.started_same, called, started', started]
      refine ⟨before, naming, after ++ [tc], start, number, told ++ pieces, ?_⟩
      rw [mine, block]
      refine speaks.hears startedNow (delivers.block_same.trans block) fun whole => ?_
      obtain ⟨isNamed, empty, -⟩ := speaks.whole whole.of_append
      have fragment := whole.2 tc (List.mem_append_right _ (List.mem_singleton.mpr rfl))
      have stillNamed : ((registeredState tc function state).callAt index).name = name := by
        rw [called, registered_whole given whole.1 (Or.inr isNamed) fragment, isNamed, ite_self]
      rw [stillNamed] at all
      obtain ⟨joined, waits⟩ := all isPlain
      refine ⟨delivers.name_same.trans stillNamed, ?_, ?_⟩
      · rw [waits, called, buffer', empty]
      · rw [joined, assembled_singleton]
  | begins pieces unstarted named begins all =>
    have aliased := (congrArg ChatReading.toolArgumentAliases begins.moves.reading).trans followed.aliases
    refine ⟨_, begins.moves.pushes _ pushed, placed.begins begins, aliased, Or.inr ?_⟩
    rw [called, started'] at unstarted
    rcases followed.calls with waits | ⟨_, _, _, _, _, _, speaks⟩
    · have names : tc.NamesCall := by
        by_contra nothing
        rw [called] at named
        exact named (blank.mpr ⟨waits.blank, nothing⟩)
      have block : (next.callAt index).blockIndex =
          (registeredState tc function state).sse.blocks.nextIndex := by
        rw [begins.same]
        rfl
      have toolId : call.startId (registeredState tc function state).pushes
          ((registeredState tc function state).callAt index) =
          shownId call (registeredState tc function state).pushes
            (lastId (deltasOf index deltas ++ [tc])) := by
        rw [startId, called, registered_toolId, waits.toolId, lastId_concat]
        rfl
      have shown : Py.strip ((registeredState tc function state).callAt index).name =
          Py.strip tc.nameFragment := by
        rw [called, registered_name]
        cases brought : function.name with
        | none =>
          refine absurd ?_ names
          rw [ToolCallDelta.nameFragment, given, Option.bind_some, brought]
          decide
        | some text =>
          have same : tc.nameFragment = text := by
            rw [ToolCallDelta.nameFragment, given, Option.bind_some, brought, Option.getD_some]
          rw [ToolCallDelta.NamesCall, same] at names
          rw [same]
          exact strip_registeredName_of_blank waits.blank names
      refine ⟨deltasOf index deltas, tc, [],
        toolStart (registeredState tc function state).sse.blocks.nextIndex
          (call.startId (registeredState tc function state).pushes
            ((registeredState tc function state).callAt index))
          ((registeredState tc function state).callAt index),
        (registeredState tc function state).pushes, pieces, ?_, mine, waits.nameless, names, ?_, ?_,
        startsToolUse_toolStart _ _ _, fun whole => ?_⟩
      · rw [begins.same]
        rfl
      · rw [block, blockView_append, placed.unseen _ le_rfl, blockView_start, if_pos rfl]
        rfl
      · rw [block, toolId, ← shown]
        exact ⟨rfl, rfl, rfl, rfl⟩
      · rw [mine] at whole
        have fragment := whole.2 tc (List.mem_append_right _ (List.mem_singleton.mpr rfl))
        have some : tc.nameFragment ≠ "" := by
          intro empty
          rw [ToolCallDelta.NamesCall, empty] at names
          exact names (by decide)
        have isNamed : ((registeredState tc function state).callAt index).name = name := by
          rw [called, registered_whole given whole.1 (Or.inl (waits.whole whole.of_append)) fragment,
            if_neg some]
        rw [isNamed] at all
        obtain ⟨joined, idle⟩ := all isPlain
        refine ⟨?_, ?_, ?_⟩
        · rw [← isNamed, begins.same]
          rfl
        · rw [idle, called, buffer', waits.idle]
        · rw [joined, called, args', waits.preStartArgs, mine, assembled_append, assembled_singleton]
    · exact absurd (unstarted.symm.trans speaks.started) Bool.false_ne_true
  | waits unstarted unnamed moves revises =>
    have aliased := (congrArg ChatReading.toolArgumentAliases moves.reading).trans followed.aliases
    refine ⟨[], moves.pushes _ pushed, ?_, aliased, Or.inl ?_⟩
    · rw [List.append_nil]
      exact placed.quiet (samePlaces_of_waits revises) revises.nextIndex
    · have now : next.callAt index = _ := revises.here
      rw [called] at unnamed unstarted now
      rw [started'] at unstarted
      rcases followed.calls with waits | ⟨_, _, _, _, _, _, speaks⟩
      · obtain ⟨-, nameless⟩ := blank.mp unnamed
        rw [now, mine]
        refine ⟨?_, fun found inside => ?_, unnamed, fun whole => ?_, ?_, ?_, ?_⟩
        · show (registered tc function (state.callAt index)).started = false
          rw [started', unstarted]
        · rcases List.mem_append.mp inside with isBefore | isLast
          · exact waits.nameless found isBefore
          · rw [List.mem_singleton.mp isLast]
            exact nameless
        · have fragment := whole.2 tc (List.mem_append_right _ (List.mem_singleton.mpr rfl))
          have empty : tc.nameFragment = "" := by
            refine fragment.resolve_right fun isName => nameless ?_
            rw [ToolCallDelta.NamesCall, isName]
            exact whole.1
          have unnamedBefore := waits.whole whole.of_append
          show (registered tc function (state.callAt index)).name = ""
          rw [registered_whole given whole.1 (Or.inl unnamedBefore) fragment, if_pos empty, unnamedBefore]
        · show (registered tc function (state.callAt index)).toolId = _
          rw [registered_toolId, waits.toolId, lastId_concat]
          rfl
        · show (registered tc function (state.callAt index)).preStartArgs ++ tc.argumentFragment = _
          rw [args', waits.preStartArgs, assembled_append, assembled_singleton]
        · show (registered tc function (state.callAt index)).taskArgBuffer = ""
          rw [buffer', waits.idle]
      · exact absurd (unstarted.symm.trans speaks.started) Bool.false_ne_true

/-- A delta. -/
theorem delta (followed : Followed call name aliases index deltas out state) {tc : ToolCallDelta}
    (nonneg : 0 ≤ tc.index.getD 0)
    (plain : name ≠ "Task" ∧ ((aliases.get? name).getD ∅).entries = [])
    (ran : call.processToolCall tc state = .ok () next) :
    ∃ events, Followed call name aliases index (deltas ++ [tc]) (out ++ events) next := by
  by_cases own : tc.index.getD 0 = index
  · exact followed.own nonneg own plain ran
  · exact followed.other nonneg own ran

end Followed

/-! ### All moves -/

variable {detected : Nat}

/-- **The chunk loop.** -/
theorem followed_of_reading {first : List ToolCallDelta}
    (followed : Followed call name aliases index first out state)
    (plain : name ≠ "Task" ∧ ((aliases.get? name).getD ∅).entries = [])
    (runs : Runs call (fun _ => False) state deltas detected next)
    (indexes : ∀ tc ∈ deltas, 0 ≤ tc.index.getD 0) :
    ∃ events, Followed call name aliases index (first ++ deltas) (out ++ events) next := by
  induction runs with
  | start =>
    refine ⟨[], ?_⟩
    rwa [List.append_nil, List.append_nil]
  | aside _ moved ih =>
    obtain ⟨events, here⟩ := ih indexes
    obtain ⟨further, after⟩ := here.aside moved
    rw [List.append_assoc] at after
    exact ⟨_, after⟩
  | @delta _ _ _ _ tc _ ran ih =>
    obtain ⟨events, here⟩ := ih fun tc inside => indexes tc (List.mem_append_left _ inside)
    have nonneg := indexes tc (List.mem_append_right _ (List.mem_singleton.mpr rfl))
    obtain ⟨further, after⟩ := here.delta nonneg plain ran
    rw [List.append_assoc, List.append_assoc] at after
    exact ⟨_, after⟩
  | flush _ never _ _ _ => exact never.elim

/-- **The flush**: the arguments of a call that was named at once do not wait. -/
theorem followed_of_flush (followed : Followed call name aliases index deltas out state)
    (plain : name ≠ "Task" ∧ ((aliases.get? name).getD ∅).entries = [])
    (runs : Runs call (Flushable state) state [] detected next) :
    ∃ events, Followed call name aliases index deltas (out ++ events) next := by
  have idle : NamedWhole name (deltasOf index deltas) → (state.callAt index).started = true →
      Idle state index := by
    intro whole started
    rcases followed.calls with waits | ⟨_, _, _, _, _, _, speaks⟩
    · exact absurd (waits.unstarted.symm.trans started) Bool.false_ne_true
    · obtain ⟨isNamed, empty, -⟩ := speaks.whole whole
      refine ⟨⟨?_, ?_⟩, empty⟩
      · rw [isNamed]
        exact plain.1
      · rw [isNamed, followed.aliases]
        exact plain.2
  obtain ⟨none, isNone⟩ : ∃ none : List ToolCallDelta, none = [] := ⟨[], rfl⟩
  rw [← isNone] at runs
  induction runs with
  | start =>
    refine ⟨[], ?_⟩
    rwa [List.append_nil]
  | aside _ moved ih =>
    obtain ⟨events, here⟩ := ih isNone
    obtain ⟨further, after⟩ := here.aside moved
    rw [List.append_assoc] at after
    exact ⟨_, after⟩
  | delta _ _ _ => exact absurd isNone (by simp)
  | @flush _ _ middle _ other _ before allowed started delivers ih =>
    obtain ⟨events, here⟩ := ih isNone
    have quiet : NamedWhole name (deltasOf index deltas) → other ≠ index := by
      rintro whole rfl
      have began : (state.callAt other).started = true := by
        have same := same_of_runs before isNone other
        rw [same] at started
        exact started
      exact allowed (idle whole began)
    obtain ⟨further, after⟩ := here.flush started delivers quiet
    rw [List.append_assoc] at after
    exact ⟨_, after⟩

/-! ### What is sent as a whole -/

theorem assembled_eq_empty_iff {part : ToolCallDelta → String} {deltas : List ToolCallDelta} :
    assembled part deltas = "" ↔ ∀ tc ∈ deltas, part tc = "" := by
  induction deltas with
  | nil => exact iff_of_true rfl fun _ member => absurd member List.not_mem_nil
  | cons tc rest ih =>
    rw [← List.singleton_append, assembled_append, assembled_singleton, List.forall_mem_append,
      List.forall_mem_singleton, ← ih, String.append_eq_empty_iff]

/-- With every other fragment empty, one fragment is the whole. -/
theorem assembled_alone {part : ToolCallDelta → String} {first second : List ToolCallDelta}
    {tc : ToolCallDelta} (alone : ∀ other ∈ first ++ second, part other = "") :
    assembled part (first ++ tc :: second) = part tc := by
  rw [List.forall_mem_append] at alone
  rw [assembled_append, ← List.singleton_append, assembled_append, assembled_singleton,
    assembled_eq_empty_iff.mpr alone.1, assembled_eq_empty_iff.mpr alone.2, String.empty_append,
    String.append_empty]

/-- A fragment as long as the whole leaves nothing for the others. -/
theorem alone_of_len {part : ToolCallDelta → String} {first second : List ToolCallDelta}
    {tc : ToolCallDelta}
    (long : Py.len (assembled part (first ++ tc :: second)) ≤ Py.len (part tc)) :
    ∀ other ∈ first ++ second, part other = "" := by
  rw [assembled_append, ← List.singleton_append, assembled_append, assembled_singleton,
    Py.len_append, Py.len_append] at long
  have blank : ∀ text, Py.len text = 0 → text = "" := fun text none =>
    String.toList_eq_nil_iff.mp (List.length_eq_zero_iff.mp none)
  rw [List.forall_mem_append, ← assembled_eq_empty_iff, ← assembled_eq_empty_iff]
  exact ⟨blank _ (by omega), blank _ (by omega)⟩

/-- The delta that has brought the known id. -/
theorem lastId_split {deltas : List ToolCallDelta} (known : lastId deltas ≠ "") :
    ∃ early identifying rest, deltas = early ++ identifying :: rest ∧
      identifying.idFragment = lastId deltas ∧ ∀ other ∈ rest, other.idFragment = "" := by
  induction deltas using List.reverseRecOn with
  | nil => exact absurd rfl known
  | append_singleton front tc ih =>
    rw [lastId_concat] at known ⊢
    split_ifs at known ⊢ with empty
    · obtain ⟨early, identifying, rest, rfl, same, quiet⟩ := ih known
      refine ⟨early, identifying, rest ++ [tc], ?_, same, fun other inside => ?_⟩
      · rw [List.append_assoc, List.cons_append]
      · rcases List.mem_append.mp inside with isBefore | isLast
        · exact quiet other isBefore
        · rw [List.mem_singleton.mp isLast, empty]
    · exact ⟨front, tc, [], rfl, rfl, fun _ member => absurd member List.not_mem_nil⟩

theorem lastId_of_split {early rest : List ToolCallDelta} {identifying : ToolCallDelta}
    (brings : identifying.idFragment ≠ "") (quiet : ∀ other ∈ rest, other.idFragment = "") :
    lastId (early ++ identifying :: rest) = identifying.idFragment := by
  induction rest using List.reverseRecOn with
  | nil => rw [lastId_concat, if_neg brings]
  | append_singleton front tc ih =>
    rw [List.forall_mem_append, List.forall_mem_singleton] at quiet
    rw [← List.cons_append, ← List.append_assoc, lastId_concat, if_pos quiet.2, ih quiet.1]

/-- **The call is sent as a whole**: one delta brings its name, without white space around it, and
one its id, which is that delta or an earlier one. -/
def SentWhole (deltas : List ToolCallDelta) : Prop :=
  ∃ before naming after, deltas = before ++ naming :: after ∧
    naming.NamesCall ∧ Py.strip naming.nameFragment = naming.nameFragment ∧
    (∀ other ∈ before ++ after, other.nameFragment = "") ∧
    ∃ early identifying rest, before ++ [naming] = early ++ identifying :: rest ∧
      identifying.idFragment ≠ "" ∧ ∀ other ∈ early ++ (rest ++ after), other.idFragment = ""

/-- The name and the id that the block shows are the whole ones. -/
theorem sentWhole_of_shown {before after : List ToolCallDelta} {naming : ToolCallDelta}
    (names : naming.NamesCall)
    (name : Py.strip naming.nameFragment =
      assembled ToolCallDelta.nameFragment (before ++ naming :: after))
    (known : lastId (before ++ [naming]) ≠ "")
    (toolId : lastId (before ++ [naming]) =
      assembled ToolCallDelta.idFragment (before ++ naming :: after)) :
    SentWhole (before ++ naming :: after) := by
  have aloneName : ∀ other ∈ before ++ after, other.nameFragment = "" := by
    refine alone_of_len (le_trans (le_of_eq (congrArg Py.len name.symm)) ?_)
    exact (Py.strip_infix naming.nameFragment).length_le
  refine ⟨before, naming, after, rfl, names, name.trans (assembled_alone aloneName), aloneName, ?_⟩
  obtain ⟨early, identifying, rest, split, same, -⟩ := lastId_split known
  have whole : before ++ naming :: after = early ++ identifying :: (rest ++ after) := by
    rw [← List.singleton_append, ← List.append_assoc, split, List.append_assoc, List.cons_append]
  refine ⟨early, identifying, rest, split, same ▸ known, ?_⟩
  rw [whole] at toolId
  exact alone_of_len (le_of_eq (congrArg Py.len (toolId.symm.trans same.symm)))

/-- The first delta that names the call. -/
theorem naming_unique {before before' after after' : List ToolCallDelta}
    {naming naming' : ToolCallDelta} (same : before ++ naming :: after = before' ++ naming' :: after')
    (nameless : ∀ tc ∈ before, ¬ tc.NamesCall) (names : naming.NamesCall)
    (nameless' : ∀ tc ∈ before', ¬ tc.NamesCall) (names' : naming'.NamesCall) :
    before = before' ∧ naming = naming' ∧ after = after' := by
  have front : ∀ {before after : List ToolCallDelta} {naming : ToolCallDelta},
      (∀ tc ∈ before, ¬ tc.NamesCall) → naming.NamesCall →
        (before ++ naming :: after).takeWhile (fun tc => decide (¬ tc.NamesCall)) = before := by
    intro before after naming nameless names
    rw [List.takeWhile_append_of_pos fun tc inside => decide_eq_true (nameless tc inside),
      List.takeWhile_cons_of_neg (by rw [decide_eq_true_eq, not_not]; exact names), List.append_nil]
  have fronts : before = before' := by
    rw [← @front before after naming nameless names, same, front nameless' names']
  rw [fronts] at same
  obtain ⟨heads, tails⟩ := List.cons.inj (List.append_cancel_left same)
  exact ⟨fronts, heads, tails⟩

/-! ### The block of the call -/

/-- The stream has one tool block for the call of that index, started under that id and name, and
its argument text is `args`; the other tool blocks are those of the other started calls, and of
`detected` calls that were found in the text. -/
structure Reassembled (events : List SseEvent) (final : ChatState) (detected : Nat) (index : Int)
    (toolId name args : String) : Prop where
  started : (final.callAt index).started = true
  one : ∃ start, (toolStarts events).filter
      (fun event => decide (event.mark? = some (.start (final.callAt index).blockIndex))) = [start] ∧
    start.StartsTool (final.callAt index).blockIndex toolId name
  args : inputJson events (final.callAt index).blockIndex = args
  apart : ∀ other, other ≠ index → (final.callAt other).started = true →
    (final.callAt other).blockIndex ≠ (final.callAt index).blockIndex
  counted : (toolStarts events).length = final.startedCalls.card + detected

theorem mark_of_startsToolUse {event : SseEvent} {block : Int}
    (starts : event.startsToolUse = true) : event.mark? ≠ some (.delta block) := by
  simp only [SseEvent.startsToolUse, Bool.and_eq_true, decide_eq_true_eq] at starts
  rw [SseEvent.mark?, if_pos starts.1]
  cases event.index? <;> simp

/-- The starts of a block, in its view. -/
theorem toolStarts_at (block : Int) (events : List SseEvent) :
    (toolStarts events).filter (fun event => decide (event.mark? = some (.start block))) =
      toolStarts (blockView block events) := by
  rw [toolStarts, toolStarts, blockView, List.filter_filter, List.filter_filter]
  refine List.filter_congr fun event _ => ?_
  unfold SseEvent.tells
  cases starts : event.startsToolUse with
  | false => rw [Bool.and_false, Bool.false_and]
  | true =>
    rw [Bool.and_true, Bool.true_and, Bool.true_and,
      decide_eq_false (@mark_of_startsToolUse event block starts), Bool.and_false, Bool.or_false]

/-- The argument text of a block, in its view. -/
theorem inputPieces_blockView (block : Int) (events : List SseEvent) :
    inputPieces block (blockView block events) = inputPieces block events := by
  rw [inputPieces, inputPieces, blockView, List.filterMap_filter]
  refine List.filterMap_congr fun event _ => ?_
  split_ifs with told
  · rfl
  · rw [SseEvent.inputPiece?, if_neg]
    rintro ⟨mark, type⟩
    refine told ?_
    rw [SseEvent.tells, decide_eq_true mark, decide_eq_true type, Bool.and_self, Bool.or_true]

theorem inputPieces_pieces (block : Int) (pieces : List String) :
    inputPieces block (pieces.map (inputDelta block)) = pieces := by
  rw [inputPieces, List.filterMap_map]
  refine (List.filterMap_congr fun piece _ => ?_).trans List.filterMap_some
  show (inputDelta block piece).inputPiece? block = some piece
  rw [SseEvent.inputPiece?, if_pos ⟨rfl, rfl⟩]
  rfl

theorem inputPieces_told {block : Int} {start : SseEvent} (starts : start.startsToolUse = true)
    (pieces : List String) :
    inputPieces block (start :: pieces.map (inputDelta block)) = pieces := by
  rw [← List.singleton_append, inputPieces_append,
    inputPieces_of_mark fun other => mark_of_startsToolUse starts, List.nil_append,
    inputPieces_pieces]

/-- The deltas of the call of that index. -/
def Upstream.callDeltas (upstream : Upstream) (index : Int) : List ToolCallDelta :=
  deltasOf index (upstream.chunks.flatMap ChatChunk.toolCalls)

/-- Its parts, put together. -/
def Upstream.callPart (upstream : Upstream) (part : ToolCallDelta → String) (index : Int) : String :=
  assembled part (upstream.callDeltas index)

/-- What the whole stream tells of one call, and of all. -/
theorem followed_of_responds {upstream : Upstream} {final : ChatState}
    (responds : Responds call upstream final)
    (found : call.detectedCalls ⟨{}, { ids := upstream.ids }⟩ upstream.chunks = .ok detected)
    (plain : name ≠ "Task" ∧ ((upstream.aliases.get? name).getD ∅).entries = [])
    (indexes : ∀ tc ∈ upstream.chunks.flatMap ChatChunk.toolCalls, 0 ≤ tc.index.getD 0)
    (index : Int) :
    ∃ out before, final.sse = before.sse ∧
      toolStarts call.streamResponse.1 = toolStarts out ∧
      (∀ block, blockView block call.streamResponse.1 = blockView block out) ∧
      Tallied (upstream.chunks.flatMap ChatChunk.toolCalls) detected out before ∧
      Followed call name upstream.aliases index (upstream.chunks.flatMap ChatChunk.toolCalls) out
        before := by
  obtain ⟨opened, ended, read, flushed, out, before, outputTokens, parts⟩ :=
    parts_of_completes responds (begun_initialState call)
  have total : read + flushed = detected := Except.ok.inj (parts.detections.symm.trans found)
  obtain ⟨events, tallied⟩ := tallied_of_runs (Tallied.fresh parts.sse parts.outgoing) parts.read
  obtain ⟨later, tallies⟩ := tallied_of_runs tallied parts.flush
  obtain ⟨events', followed⟩ := followed_of_reading
    (@Followed.fresh call opened name upstream.aliases index parts.sse parts.aliases parts.outgoing)
    plain parts.read indexes
  obtain ⟨later', follows⟩ := followed_of_flush followed plain parts.flush
  have same : [] ++ events ++ later = out := tallies.pushed.sent.symm.trans parts.pushed.sent
  have same' : [] ++ events' ++ later' = out := follows.pushed.sent.symm.trans parts.pushed.sent
  rw [same, List.nil_append, List.append_nil, Nat.zero_add, total] at tallies
  rw [same', List.nil_append] at follows
  have response : call.streamResponse.1 = [call.newSseBuilder.messageStart] ++ (out ++
      messageEnd before.sse (mapStopReason (finishReasonOf upstream.chunks)) outputTokens) := by
    rw [streamResponse_of_responds responds, parts.yielded]
    rfl
  refine ⟨out, before, parts.blocks, ?_, fun block => ?_, tallies, follows⟩
  · rw [response, toolStarts_append, toolStarts_append]
    show [] ++ (toolStarts out ++ []) = _
    rw [List.append_nil, List.nil_append]
  · rw [response, blockView_append, blockView_append]
    show [] ++ (blockView block out ++ []) = _
    rw [List.append_nil, List.nil_append]

/-- **One call is put together from its fragments** exactly when it is sent as a whole: for every
stream in which the calls have indexes of their own, and every tool that is neither `Task` nor has
aliases, whose id is not by chance a new one. -/
theorem reassembles_iff {upstream : Upstream} {final : ChatState} {index : Int}
    (responds : Responds call upstream final)
    (found : call.detectedCalls ⟨{}, { ids := upstream.ids }⟩ upstream.chunks = .ok detected)
    (indexes : ∀ tc ∈ upstream.chunks.flatMap ChatChunk.toolCalls, 0 ≤ tc.index.getD 0)
    (plain : upstream.callPart ToolCallDelta.nameFragment index ≠ "Task" ∧
      ((upstream.aliases.get? (upstream.callPart ToolCallDelta.nameFragment index)).getD
        ∅).entries = [])
    (unguessed : ∀ number, "tool_" ++ call.toolUuid number ≠
      upstream.callPart ToolCallDelta.idFragment index) :
    Reassembled call.streamResponse.1 final detected index
        (upstream.callPart ToolCallDelta.idFragment index)
        (upstream.callPart ToolCallDelta.nameFragment index)
        (upstream.callPart ToolCallDelta.argumentFragment index) ↔
      SentWhole (upstream.callDeltas index) := by
  obtain ⟨out, last, blocks, starts, views, tallied, followed⟩ :=
    followed_of_responds responds found plain indexes index
  have calls : ∀ other, final.callAt other = last.callAt other := fun other => by
    rw [ChatState.callAt, blocks]
    rfl
  have started : final.startedCalls = last.startedCalls :=
    ChatState.startedCalls_same fun other => by rw [calls]
  constructor
  · intro shown
    rcases followed.calls with waits | ⟨before, naming, after, start, number, pieces, speaks⟩
    · have isStarted := shown.started
      rw [calls] at isStarted
      exact absurd (waits.unstarted.symm.trans isStarted) Bool.false_ne_true
    · obtain ⟨event, one, starts'⟩ := shown.one
      rw [toolStarts_at, views, calls, speaks.told, toolStarts,
        List.filter_cons_of_pos speaks.startsToolUse] at one
      obtain ⟨rfl, -⟩ := List.cons.inj one
      have ids := speaks.starts.2.2.1.symm.trans starts'.2.2.1
      have names := speaks.starts.2.2.2.symm.trans starts'.2.2.2
      rw [Json.str.injEq] at ids names
      have split : upstream.callDeltas index = before ++ naming :: after := speaks.split
      rw [Upstream.callPart, split] at names
      have known : lastId (before ++ [naming]) ≠ "" := by
        intro unknown
        rw [shownId, if_pos unknown] at ids
        exact unguessed number ids
      rw [shownId, if_neg known, Upstream.callPart, split] at ids
      rw [split]
      exact sentWhole_of_shown speaks.names names known ids
  · rintro ⟨before, naming, after, split, names, stripped, alone, early, identifying, rest, whole,
      brings, quiet⟩
    have fullName : upstream.callPart ToolCallDelta.nameFragment index = naming.nameFragment := by
      rw [Upstream.callPart, split, assembled_alone alone]
    have namedWhole : NamedWhole (upstream.callPart ToolCallDelta.nameFragment index)
        (upstream.callDeltas index) := by
      rw [fullName, split]
      refine ⟨names, fun tc inside => ?_⟩
      rcases List.mem_append.mp inside with isBefore | isBehind
      · exact Or.inl (alone tc (List.mem_append_left _ isBefore))
      · rcases List.mem_cons.mp isBehind with rfl | isAfter
        · exact Or.inr rfl
        · exact Or.inl (alone tc (List.mem_append_right _ isAfter))
    have nameless : ∀ tc ∈ before, ¬ tc.NamesCall := by
      intro tc inside
      rw [ToolCallDelta.NamesCall, alone tc (List.mem_append_left _ inside), not_not]
      decide
    have fullId : upstream.callPart ToolCallDelta.idFragment index = identifying.idFragment := by
      have ordered : upstream.callDeltas index = early ++ identifying :: (rest ++ after) := by
        rw [split, ← List.singleton_append, ← List.append_assoc, whole, List.append_assoc,
          List.cons_append]
      rw [Upstream.callPart, ordered, assembled_alone quiet]
    rcases followed.calls with waits | ⟨before', naming', after', start, number, pieces, speaks⟩
    · refine absurd names (waits.nameless naming ?_)
      show naming ∈ upstream.callDeltas index
      rw [split]
      exact List.mem_append_right _ List.mem_cons_self
    · obtain ⟨rfl, rfl, rfl⟩ := naming_unique (speaks.split.symm.trans split) speaks.nameless
        speaks.names nameless names
      have known : lastId (before' ++ [naming']) = identifying.idFragment := by
        rw [whole, lastId_of_split brings fun other inside => quiet other
          (List.mem_append_right _ (List.mem_append_left _ inside))]
      refine ⟨?_, ⟨start, ?_, ?_⟩, ?_, fun other away isStarted same => ?_, ?_⟩
      · rw [calls]
        exact speaks.started
      · rw [toolStarts_at, views, calls, speaks.told, toolStarts,
          List.filter_cons_of_pos speaks.startsToolUse]
        exact congrArg _ (toolStarts_pieces _ pieces)
      · have startsTool := speaks.starts
        rw [known, shownId, if_neg brings, stripped] at startsTool
        rw [calls, fullName, fullId]
        exact startsTool
      · rw [calls, inputJson, ← inputPieces_blockView, views, speaks.told,
          inputPieces_told speaks.startsToolUse]
        exact (speaks.whole namedWhole).2.2
      · rw [calls] at isStarted same
        rw [calls] at same
        exact away (followed.placed.apart other index isStarted speaks.started same)
      · rw [starts, tallied.counted, started]

/-- One call, in the order of these deltas, each in a chunk of its own. -/
def fragmentScript (fragments : List (Option String × Option String × Option String)) :
    List ChatChunk :=
  fragments.map (fun fragment => ⟨[⟨some { toolCalls :=
      [⟨some 0, fragment.1, some ⟨fragment.2.1, fragment.2.2⟩, none⟩] }, none⟩], none⟩) ++
    [⟨[⟨some {}, some "tool_calls"⟩], none⟩]

/-- A name in two fragments: the block is started under the first one. -/
def splitName : List ChatChunk :=
  fragmentScript [(some "call_1", some "Re", none), (none, some "ad", some "\x7b\x7d")]

/-- The id and some arguments first, then the name, then the rest. -/
def lateName : List ChatChunk :=
  fragmentScript [(some "call_1", none, some "\x7b"), (none, some "Read", none),
    (none, none, some "\x7d")]

theorem splitName_is_cut : (∃ final, Responds (scripted splitName) ⟨splitName, ∅, 0⟩ final) ∧
    Upstream.callPart ⟨splitName, ∅, 0⟩ ToolCallDelta.nameFragment 0 = "Read" ∧
    ∀ final detected toolId args,
      ¬ Reassembled (scripted splitName).streamResponse.1 final detected 0 toolId "Read" args := by
  refine ⟨scripted_responds (by decide +kernel), by decide +kernel,
    fun final detected toolId args shown => ?_⟩
  obtain ⟨start, one, -, -, -, name⟩ := shown.one
  have only : toolStarts (scripted splitName).streamResponse.1 =
      [contentBlockStart 0 (SseBuilder.toolUseBlock "call_1" "Re" none)] := by
    decide +kernel
  have inside : start ∈ toolStarts (scripted splitName).streamResponse.1 :=
    List.mem_of_mem_filter (by rw [one]; exact List.mem_singleton.mpr rfl)
  rw [only, List.mem_singleton] at inside
  rw [inside] at name
  exact absurd name (by decide)

theorem lateName_is_reassembled : ∃ final,
    Reassembled (scripted lateName).streamResponse.1 final 0 0 "call_1" "Read" "\x7b\x7d" := by
  obtain ⟨final, responds⟩ := @scripted_responds lateName (by decide +kernel)
  have found : (scripted lateName).detectedCalls ⟨{}, {}⟩ lateName = .ok 0 := rfl
  have parts : Upstream.callPart ⟨lateName, ∅, 0⟩ ToolCallDelta.idFragment 0 = "call_1" ∧
      Upstream.callPart ⟨lateName, ∅, 0⟩ ToolCallDelta.nameFragment 0 = "Read" ∧
      Upstream.callPart ⟨lateName, ∅, 0⟩ ToolCallDelta.argumentFragment 0 = "\x7b\x7d" := by
    decide +kernel
  have shown := (@reassembles_iff _ 0 ⟨lateName, ∅, 0⟩ final 0 responds found (by decide)
    (by rw [parts.2.1]; exact ⟨by decide, rfl⟩)
    (fun _ => by rw [parts.1]; exact (by decide : "tool_" ++ "1" ≠ "call_1"))).mpr
    ⟨[⟨some 0, some "call_1", some ⟨none, some "\x7b"⟩, none⟩],
      ⟨some 0, none, some ⟨some "Read", none⟩, none⟩,
      [⟨some 0, none, some ⟨none, some "\x7d"⟩, none⟩], rfl, by decide, by decide +kernel, by decide,
      [], ⟨some 0, some "call_1", some ⟨none, some "\x7b"⟩, none⟩,
      [⟨some 0, none, some ⟨some "Read", none⟩, none⟩], rfl, by decide, by decide⟩
  rw [parts.1, parts.2.1, parts.2.2] at shown
  exact ⟨final, shown⟩

end OpenaiCall

end ClaudeProxy
