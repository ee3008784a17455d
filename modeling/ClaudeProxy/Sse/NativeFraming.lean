/-
**The text of native events** (`core/anthropic/native_sse_block_policy.py`).

`format_native_sse_event` and `parse_native_sse_event` both cut their text with `str.splitlines`, and
`transform_native_sse_block_event` reads a frame with the one and writes frames with the other.

* `rendered_transform` — on a frame that is read as its event, the policy on texts does what the policy
  on events does, and a frame it rewrites has the event's payload with another index;
* **`reframes_iff`** — a frame is read as its event exactly when the data has no line boundary of
  `str.splitlines` in it.
-/

import ClaudeProxy.Sse.BlockPolicy
import ClaudeProxy.Sse.Framing

namespace ClaudeProxy

open Json (getKey setKey)

/-! ### Frames -/

/-- `format_native_sse_event`. -/
def formatNativeSseEvent (eventName : Option String) (dataText : String) : String :=
  let named := match eventName with
    | some name => if name = "" then [] else ["event: " ++ name]
    | none => []
  Py.join "\n" (named ++ (Py.splitlines dataText).map fun line => "data: " ++ line) ++ "\n\n"

/-- One line of `parse_native_sse_event`: the event name and the data lines so far. -/
def readNativeLine (read : Option String × List String) (line : String) :
    Option String × List String :=
  if Py.startsWith line "event:" then (some (Py.strip (Py.drop line 6)), read.2)
  else if Py.startsWith line "data:" then (read.1, read.2 ++ [Py.lstrip (Py.drop line 5)])
  else read

/-- `parse_native_sse_event`. -/
def parseNativeSseEvent (event : String) : Option String × String :=
  let read := (Py.splitlines (Py.strip event)).foldl readNativeLine (none, [])
  (read.1, Py.join "\n" read.2)

/-! ### The policy on texts -/

section Texts

variable (runtime : Runtime)

/-- An event of the proxy, written. -/
def frameText (event : SseEvent) : String :=
  formatNativeSseEvent (some event.event) (runtime.dumps (.obj event.fields))

/-- What a call returns: the text to yield (`none` drops the frame), and the new state. -/
abbrev PolicyText := Option String × NativeSseBlockPolicyState

/-- The `content_block_start` branch. -/
def transformStartText (event eventName : String) (payload : List (String × Json))
    (state : NativeSseBlockPolicyState) (thinkingEnabled : Bool) : PolicyText :=
  match getKey payload "content_block", (getKey payload "index").asInt? with
  | .obj block, some upstreamIndex =>
    let blockType := getKey block "type"
    if shouldDropBlockType blockType thinkingEnabled then
      (none, { state with droppedIndexes := insert upstreamIndex state.droppedIndexes })
    else
      match blockType with
      | .str blockType =>
        let (closed, state) := syntheticCloseOtherOpenBlocks state upstreamIndex
        let (newIdx, state) := allocateNewSegment state upstreamIndex blockType (some block)
        (some (Py.join "" (closed.map (frameText runtime)) ++ formatNativeSseEvent (some eventName)
          (runtime.dumps (.obj (setKey payload "index" (.int newIdx))))), state)
      | _ => (some event, state)
  | _, _ => (some event, state)

/-- A segment is started under a delta. -/
def openSegmentText (eventName : String) (payload : List (String × Json)) (upstreamIndex : Int)
    (blockKind : String) (lastStartBlock : Option (List (String × Json)))
    (startBlock : List (String × Json)) (state : NativeSseBlockPolicyState) : PolicyText :=
  let (newIdx, state) := allocateNewSegment state upstreamIndex blockKind lastStartBlock
  (some (frameText runtime (contentBlockStart newIdx startBlock) ++
    formatNativeSseEvent (some eventName)
      (runtime.dumps (.obj (setKey payload "index" (.int newIdx))))), state)

/-- The `content_block_delta` branch. -/
def transformDeltaText (event eventName : String) (payload : List (String × Json))
    (state : NativeSseBlockPolicyState) (thinkingEnabled : Bool) : PolicyText :=
  match getKey payload "delta", (getKey payload "index").asInt? with
  | .obj delta, some upstreamIndex =>
    let deltaType := getKey delta "type"
    if upstreamIndex ∈ state.droppedIndexes then (none, state)
    else if shouldDropBlockType deltaType thinkingEnabled then (none, state)
    else
      match deltaTypeToBlockKind deltaType with
      | none => (some event, state)
      | some blockKind =>
        match state.byUpstream.get? upstreamIndex with
        | some seg =>
          if seg.isOpen then
            (some (formatNativeSseEvent (some eventName)
              (runtime.dumps (.obj (setKey payload "index" (.int seg.downIndex))))), state)
          else
            openSegmentText runtime eventName payload upstreamIndex blockKind seg.lastStartBlock
              (syntheticStartContentBlock blockKind upstreamIndex
                (storedTool seg.lastStartBlock))
              { state with
                pendingSuppressedStops := state.pendingSuppressedStops.erase upstreamIndex }
        | none =>
          if blockKind = "text" ∨ blockKind = "tool_use" then
            let syntheticBlock := syntheticStartContentBlock blockKind upstreamIndex none
            openSegmentText runtime eventName payload upstreamIndex blockKind (some syntheticBlock)
              syntheticBlock state
          else (some event, state)
  | _, _ => (some event, state)

/-- The `content_block_stop` branch. -/
def transformStopText (event eventName : String) (payload : List (String × Json))
    (state : NativeSseBlockPolicyState) (thinkingEnabled : Bool) : PolicyText :=
  match (getKey payload "index").asInt? with
  | none => (some event, state)
  | some upstreamIndex =>
    if upstreamIndex ∈ state.droppedIndexes then (none, state)
    else if upstreamIndex ∈ state.pendingSuppressedStops then
      (none, { state with
        pendingSuppressedStops := state.pendingSuppressedStops.erase upstreamIndex })
    else
      match state.byUpstream.get? upstreamIndex with
      | some seg =>
        if seg.isOpen then
          (some (formatNativeSseEvent (some eventName)
              (runtime.dumps (.obj (setKey payload "index" (.int seg.downIndex))))),
            { state with
              byUpstream := state.byUpstream.set upstreamIndex { seg with isOpen := false } })
        else (none, state)
      | none => if !thinkingEnabled then (none, state) else (some event, state)

/-- `transform_native_sse_block_event`. -/
def transformNativeSseBlockText (event : String) (state : NativeSseBlockPolicyState)
    (thinkingEnabled : Bool) : Except PyError PolicyText :=
  let (eventName, dataText) := parseNativeSseEvent event
  let eventName := eventName.getD ""
  if eventName = "" ∨ dataText = "" then .ok (some event, state)
  else
    match runtime.loads dataText with
    | .error (.jsonDecodeError _) => .ok (some event, state)
    | .error error => .error error
    | .ok payload =>
      let branch := fun transform : List (String × Json) → PolicyText =>
        match payload with
        | .obj payload => .ok (transform payload)
        | _ => .error (PyError.attributeError "object has no attribute 'get'")
      if eventName = "content_block_start" then
        branch fun payload =>
          transformStartText runtime event eventName payload state thinkingEnabled
      else if eventName = "content_block_delta" then
        branch fun payload =>
          transformDeltaText runtime event eventName payload state thinkingEnabled
      else if eventName = "content_block_stop" then
        branch fun payload =>
          transformStopText runtime event eventName payload state thinkingEnabled
      else .ok (some event, state)

end Texts

/-! ### Texts and events -/

section Rendered

variable {runtime : Runtime} {frame name : String} {payload : List (String × Json)}
  {state : NativeSseBlockPolicyState} {thinkingEnabled : Bool}

/-- The event with another index. -/
def remapped (name : String) (payload : List (String × Json)) (index : Int) : SseEvent :=
  formatSseEvent name (setKey payload "index" (.int index))

/-- The text that is yielded is that of the events: nothing, the frame itself, or further frames and
that of the event, whose payload has another index and is otherwise kept. -/
def Rendered (runtime : Runtime) (frame name : String) (payload : List (String × Json))
    (text : PolicyText) (events : PolicyResult) : Prop :=
  text.2 = events.2 ∧
    ((text.1 = none ∧ events.1 = none) ∨
      (text.1 = some frame ∧ events.1 = some [formatSseEvent name payload]) ∨
      ∃ before index, events.1 = some (before ++ [remapped name payload index]) ∧
        text.1 = some (Py.join ""
          ((before ++ [remapped name payload index]).map (frameText runtime))))

theorem rendered_drops (state : NativeSseBlockPolicyState) :
    Rendered runtime frame name payload (none, state) (none, state) :=
  ⟨rfl, Or.inl ⟨rfl, rfl⟩⟩

theorem rendered_passes (state : NativeSseBlockPolicyState) :
    Rendered runtime frame name payload (some frame, state)
      (some [formatSseEvent name payload], state) :=
  ⟨rfl, Or.inr (Or.inl ⟨rfl, rfl⟩)⟩

theorem rendered_rewrites (before : List SseEvent) (index : Int)
    (state : NativeSseBlockPolicyState) :
    Rendered runtime frame name payload
      (some (Py.join "" (before.map (frameText runtime)) ++ formatNativeSseEvent (some name)
        (runtime.dumps (.obj (setKey payload "index" (.int index))))), state)
      (some (before ++ [remapped name payload index]), state) := by
  refine ⟨rfl, Or.inr (Or.inr ⟨before, index, rfl, ?_⟩)⟩
  rw [List.map_append, Py.join_append, List.map_singleton, Py.join_singleton]
  rfl

theorem rendered_remaps (index : Int) (state : NativeSseBlockPolicyState) :
    Rendered runtime frame name payload
      (some (formatNativeSseEvent (some name)
        (runtime.dumps (.obj (setKey payload "index" (.int index))))), state)
      (some [remapped name payload index], state) := by
  have alone := @rendered_rewrites runtime frame name payload [] index state
  rwa [List.map_nil, Py.join_nil, String.empty_append, List.nil_append] at alone

theorem rendered_start : Rendered runtime frame name payload
    (transformStartText runtime frame name payload state thinkingEnabled)
    (transformStart (formatSseEvent name payload) payload state thinkingEnabled) := by
  unfold transformStartText transformStart
  cases getKey payload "content_block" with
  | obj block =>
    cases (getKey payload "index").asInt? with
    | none => exact rendered_passes _
    | some upstreamIndex =>
      dsimp only
      by_cases drops : shouldDropBlockType (getKey block "type") thinkingEnabled = true
      · rw [if_pos drops, if_pos drops]
        exact rendered_drops _
      · rw [if_neg drops, if_neg drops]
        cases getKey block "type" with
        | str blockType => exact rendered_rewrites _ _ _
        | _ => exact rendered_passes _
  | _ => exact rendered_passes _

theorem rendered_openSegment (upstreamIndex : Int) (blockKind : String)
    (lastStartBlock : Option (List (String × Json))) (startBlock : List (String × Json))
    (state : NativeSseBlockPolicyState) : Rendered runtime frame name payload
      (openSegmentText runtime name payload upstreamIndex blockKind lastStartBlock startBlock state)
      (openSegment (formatSseEvent name payload) payload upstreamIndex blockKind lastStartBlock
        startBlock state) := by
  have opened := @rendered_rewrites runtime frame name payload
    [contentBlockStart (allocateNewSegment state upstreamIndex blockKind lastStartBlock).1 startBlock]
    (allocateNewSegment state upstreamIndex blockKind lastStartBlock).1
    (allocateNewSegment state upstreamIndex blockKind lastStartBlock).2
  rwa [List.map_singleton, Py.join_singleton] at opened

theorem rendered_delta : Rendered runtime frame name payload
    (transformDeltaText runtime frame name payload state thinkingEnabled)
    (transformDelta (formatSseEvent name payload) payload state thinkingEnabled) := by
  unfold transformDeltaText transformDelta
  cases getKey payload "delta" with
  | obj delta =>
    cases (getKey payload "index").asInt? with
    | none => exact rendered_passes _
    | some upstreamIndex =>
      dsimp only
      by_cases dropped : upstreamIndex ∈ state.droppedIndexes
      · rw [if_pos dropped, if_pos dropped]
        exact rendered_drops _
      · rw [if_neg dropped, if_neg dropped]
        by_cases drops : shouldDropBlockType (getKey delta "type") thinkingEnabled = true
        · rw [if_pos drops, if_pos drops]
          exact rendered_drops _
        · rw [if_neg drops, if_neg drops]
          cases deltaTypeToBlockKind (getKey delta "type") with
          | none => exact rendered_passes _
          | some blockKind =>
            dsimp only
            cases state.byUpstream.get? upstreamIndex with
            | some seg =>
              dsimp only
              by_cases isOpen : seg.isOpen = true
              · rw [if_pos isOpen, if_pos isOpen]
                exact rendered_remaps _ _
              · rw [if_neg isOpen, if_neg isOpen]
                exact rendered_openSegment _ _ _ _ _
            | none =>
              dsimp only
              by_cases starts : blockKind = "text" ∨ blockKind = "tool_use"
              · rw [if_pos starts, if_pos starts]
                exact rendered_openSegment _ _ _ _ _
              · rw [if_neg starts, if_neg starts]
                exact rendered_passes _
  | _ => exact rendered_passes _

theorem rendered_stop : Rendered runtime frame name payload
    (transformStopText runtime frame name payload state thinkingEnabled)
    (transformStop (formatSseEvent name payload) payload state thinkingEnabled) := by
  unfold transformStopText transformStop
  cases (getKey payload "index").asInt? with
  | none => exact rendered_passes _
  | some upstreamIndex =>
    dsimp only
    by_cases dropped : upstreamIndex ∈ state.droppedIndexes
    · rw [if_pos dropped, if_pos dropped]
      exact rendered_drops _
    · rw [if_neg dropped, if_neg dropped]
      by_cases suppressed : upstreamIndex ∈ state.pendingSuppressedStops
      · rw [if_pos suppressed, if_pos suppressed]
        exact rendered_drops _
      · rw [if_neg suppressed, if_neg suppressed]
        cases state.byUpstream.get? upstreamIndex with
        | some seg =>
          dsimp only
          by_cases isOpen : seg.isOpen = true
          · rw [if_pos isOpen, if_pos isOpen]
            exact rendered_remaps _ _
          · rw [if_neg isOpen, if_neg isOpen]
            exact rendered_drops _
        | none =>
          dsimp only
          cases thinkingEnabled with
          | true => exact rendered_passes _
          | false => exact rendered_drops _

/-- **On a frame that is read as its event**, the policy on texts does what the policy on events does. -/
theorem rendered_transform (named : name ≠ "") {dataText : String} (some : dataText ≠ "")
    (read : parseNativeSseEvent frame = (.some name, dataText))
    (loaded : runtime.loads dataText = .ok (.obj payload)) :
    ∃ text events,
      transformNativeSseBlockText runtime frame state thinkingEnabled = .ok text ∧
      transformNativeSseBlockEvent (formatSseEvent name payload) state thinkingEnabled = .ok events ∧
      Rendered runtime frame name payload text events := by
  have asked : ¬ (name = "" ∨ dataText = "") := not_or.mpr ⟨named, some⟩
  unfold transformNativeSseBlockText
  rw [read]
  dsimp only
  rw [Option.getD_some, if_neg asked, loaded]
  dsimp only
  by_cases starts : name = "content_block_start"
  · rw [if_pos starts]
    exact ⟨_, _, rfl, transform_start starts rfl, rendered_start⟩
  · rw [if_neg starts]
    by_cases grows : name = "content_block_delta"
    · rw [if_pos grows]
      exact ⟨_, _, rfl, transform_delta grows rfl, rendered_delta⟩
    · rw [if_neg grows]
      by_cases stops : name = "content_block_stop"
      · rw [if_pos stops]
        exact ⟨_, _, rfl, transform_stop stops rfl, rendered_stop⟩
      · rw [if_neg stops]
        have other : (formatSseEvent name payload).isBlockEvent = false := by
          simp [SseEvent.isBlockEvent, starts, grows, stops]
        exact ⟨_, _, rfl, transform_other other, rendered_passes _⟩

end Rendered

/-! ### Reading a frame back -/

/-- A JSON object that is serialised on one line: text between braces without CR and LF. -/
def OneLineObject (dataText : String) : Prop :=
  (∃ inner, dataText.toList = '\x7b' :: (inner ++ ['\x7d'])) ∧ '\n' ∉ dataText.toList ∧
    '\r' ∉ dataText.toList

/-- A frame is read as its event, and the policy rewrites nothing of its payload but the index. -/
def Reframes (name dataText : String) : Prop :=
  parseNativeSseEvent (formatNativeSseEvent (some name) dataText) = (some name, dataText) ∧
    ∀ (runtime : Runtime) (payload : List (String × Json)) (state : NativeSseBlockPolicyState)
      (thinkingEnabled : Bool), runtime.loads dataText = .ok (.obj payload) →
      ∃ text events,
        transformNativeSseBlockText runtime (formatNativeSseEvent (some name) dataText) state
          thinkingEnabled = .ok text ∧
        transformNativeSseBlockEvent (formatSseEvent name payload) state thinkingEnabled =
          .ok events ∧
        Rendered runtime (formatNativeSseEvent (some name) dataText) name payload text events

section Reframe

variable {name dataText : String}

/-- What the reader makes of the line of a name. -/
theorem name_read (named : name ∈ anthropicEventNames) :
    name ≠ "" ∧ Py.startsWith ("event: " ++ name) "event:" = true ∧
      Py.strip (Py.drop ("event: " ++ name) 6) = name ∧
      ∀ char ∈ ("event: " ++ name).toList, Py.isLineBreak char = false := by
  have all : ∀ name ∈ anthropicEventNames,
      name ≠ "" ∧ Py.startsWith ("event: " ++ name) "event:" = true ∧
        Py.strip (Py.drop ("event: " ++ name) 6) = name ∧
        ("event: " ++ name).toList.Forall (Py.isLineBreak · = false) := by
    decide +kernel
  obtain ⟨some, isEvent, isName, plain⟩ := all _ named
  exact ⟨some, isEvent, isName, List.forall_iff_forall_mem.mp plain⟩

/-- What it makes of a line of data. -/
theorem readNativeLine_data (read : Option String × List String) (line : String) :
    readNativeLine read ("data: " ++ line) = (read.1, read.2 ++ [Py.lstrip line]) := by
  have chars : ("data: " ++ line).toList = "data: ".toList ++ line.toList := String.toList_append
  have notEvent : Py.startsWith ("data: " ++ line) "event:" = false := by
    rw [Py.startsWith, chars]
    exact decide_eq_false (by simp)
  have isData : Py.startsWith ("data: " ++ line) "data:" = true := by
    rw [Py.startsWith, chars]
    exact decide_eq_true (by simp)
  have behind : Py.lstrip (Py.drop ("data: " ++ line) 5) = Py.lstrip line := by
    rw [Py.lstrip, Py.drop, String.toList_ofList, chars, Py.lstrip]
    simp [Py.isSpace]
  rw [readNativeLine, notEvent, isData, behind]
  rfl

theorem foldl_readNativeLine (read : Option String × List String) (lines : List String) :
    (lines.map fun line => "data: " ++ line).foldl readNativeLine read =
      (read.1, read.2 ++ lines.map Py.lstrip) := by
  induction lines generalizing read with
  | nil => simp
  | cons line lines ih =>
    rw [List.map_cons, List.foldl_cons, readNativeLine_data, ih]
    simp

/-- **What is read of a frame**: the lines of the data, joined by line feeds. -/
theorem parseNativeSseEvent_format (named : name ∈ anthropicEventNames)
    (object : OneLineObject dataText) :
    parseNativeSseEvent (formatNativeSseEvent (some name) dataText) =
      (some name, Py.join "\n" ((Py.splitlines dataText).map Py.lstrip)) := by
  obtain ⟨some, isEvent, stripped, plainName⟩ := name_read named
  obtain ⟨⟨inner, braces⟩, -, -⟩ := object
  set lines := ("event: " ++ name) :: (Py.splitlines dataText).map fun line => "data: " ++ line
    with isLines
  -- the last line ends with the closing brace
  obtain ⟨earlier, before, split, -⟩ := Py.linesFrom_snoc (by decide : Py.isLineBreak '\x7d' = false)
    [] ('\x7b' :: inner)
  have pieces : Py.splitlines dataText = earlier.map String.ofList ++
      [String.ofList (before ++ ['\x7d'])] := by
    rw [Py.splitlines, braces, ← List.cons_append, split]
    simp
  have plain : ∀ line ∈ lines, ∀ char ∈ line.toList, Py.isLineBreak char = false := by
    intro line member char inside
    rcases List.mem_cons.mp member with rfl | data
    · exact plainName char inside
    · obtain ⟨piece, isPiece, rfl⟩ := List.mem_map.mp data
      obtain ⟨chars, fromData, rfl⟩ := List.mem_map.mp isPiece
      rw [String.toList_append, List.mem_append] at inside
      rcases inside with label | inside
      · have all : ∀ char ∈ "data: ".toList, Py.isLineBreak char = false :=
          List.forall_iff_forall_mem.mp (by decide)
        exact all char label
      · rw [String.toList_ofList] at inside
        exact Py.plain_of_mem_linesFrom (by simp) fromData char inside
  have visible : ∀ line ∈ lines, line ≠ "" := by
    intro line member empty
    rcases List.mem_cons.mp member with rfl | data
    · exact absurd (String.append_eq_empty_iff.mp empty).1 (by decide)
    · obtain ⟨piece, -, rfl⟩ := List.mem_map.mp data
      exact absurd (String.append_eq_empty_iff.mp empty).1 (by decide)
  -- so nothing of the frame is stripped but the line feeds behind it
  have framed : formatNativeSseEvent (Option.some name) dataText = Py.join "\n" lines ++ "\n\n" := by
    rw [formatNativeSseEvent]
    rw [if_neg some]
    rfl
  obtain ⟨body, isBody⟩ : ∃ body, (Py.join "\n" lines).toList = 'e' :: (body ++ ['\x7d']) := by
    rw [isLines, pieces, List.map_append, ← List.cons_append, List.map_singleton, Py.join,
      String.intercalate_append_of_ne_nil (List.cons_ne_nil _ _) (List.cons_ne_nil _ _),
      String.intercalate_singleton, String.toList_append, String.toList_append,
      String.toList_append, String.toList_ofList]
    obtain ⟨rest, begins⟩ : ∃ rest, (String.intercalate "\n" (("event: " ++ name) ::
        List.map (fun line => "data: " ++ line) (List.map String.ofList earlier))).toList =
        'e' :: rest := by
      cases earlier with
      | nil => exact ⟨_, by rw [List.map_nil, List.map_nil, String.intercalate_singleton,
          String.toList_append]; rfl⟩
      | cons first others =>
        exact ⟨_, by rw [List.map_cons, List.map_cons, String.intercalate_cons_cons,
          String.toList_append, String.toList_append, String.toList_append, List.append_assoc]; rfl⟩
    rw [begins]
    exact ⟨rest ++ "\n".toList ++ ("data: ".toList ++ before), by simp⟩
  have strips : Py.strip (Py.join "\n" lines ++ "\n\n") = Py.join "\n" lines := by
    have whole : Py.join "\n" lines ++ "\n\n" =
        String.ofList ('e' :: (body ++ '\x7d' :: ['\n', '\n'])) := by
      apply String.toList_injective
      rw [String.toList_append, isBody, String.toList_ofList]
      simp
    rw [whole, Py.strip_visible_append (by decide) (by decide)
      (List.forall_iff_forall_mem.mp (by decide)), ← isBody,
      String.ofList_toList]
  have first : readNativeLine (none, []) ("event: " ++ name) = (Option.some name, []) := by
    rw [readNativeLine, if_pos isEvent, stripped]
  rw [parseNativeSseEvent, framed, strips, Py.splitlines_join plain visible, isLines,
    List.foldl_cons, first, foldl_readNativeLine]
  rfl

/-- **A frame is read as its event** exactly when no character of the data is a line boundary of
`str.splitlines`. -/
theorem reframes_iff (named : name ∈ anthropicEventNames) (object : OneLineObject dataText) :
    Reframes name dataText ↔ ∀ char ∈ dataText.toList, Py.isLineBreak char = false := by
  have read := parseNativeSseEvent_format named object
  obtain ⟨⟨inner, braces⟩, noFeed, -⟩ := object
  constructor
  · intro reframes char member
    by_contra isBreak
    have same := reframes.1
    rw [read, Prod.mk.injEq] at same
    obtain ⟨earlier, before, split, breaks⟩ :=
      Py.linesFrom_snoc (by decide : Py.isLineBreak '\x7d' = false) [] ('\x7b' :: inner)
    have inside : ∃ char ∈ '\x7b' :: inner, Py.isLineBreak char = true := by
      rw [braces, ← List.cons_append, List.mem_append, List.mem_singleton] at member
      rcases member with front | rfl
      · exact ⟨char, front, (Bool.not_eq_false _).mp isBreak⟩
      · exact absurd (by decide) isBreak
    obtain ⟨first, others, rfl⟩ := List.exists_cons_of_ne_nil (breaks inside)
    apply noFeed
    rw [← same.2, Py.splitlines, braces, ← List.cons_append, split, List.map_map, List.cons_append,
      List.map_cons, Py.join]
    cases others with
    | nil => simp [String.intercalate_cons_cons]
    | cons second others => simp [String.intercalate_cons_cons]
  · intro plain
    have whole : Py.splitlines dataText = [dataText] := by
      rw [Py.splitlines, Py.linesFrom_last plain (by rw [braces]; simp)]
      simp
    have kept : Py.lstrip dataText = dataText := by
      apply String.toList_injective
      rw [Py.lstrip, String.toList_ofList, braces]
      exact List.dropWhile_cons_of_neg (by decide)
    have parses : parseNativeSseEvent (formatNativeSseEvent (some name) dataText) =
        (some name, dataText) := by
      rw [read, whole, List.map_singleton, kept, Py.join_singleton]
    have some : dataText ≠ "" := by
      intro empty
      rw [empty] at braces
      exact absurd braces (by simp)
    exact ⟨parses, fun _ _ _ _ loaded =>
      rendered_transform (name_read named).1 some parses loaded⟩

end Reframe

/-- Data with a line separator in a string. -/
def separatedData : String := "\x7b\"index\": 0, \"text\": \"a\u2028b\"\x7d"

/-- It is cut: the reader finds two lines of data. -/
theorem separatedData_is_cut :
    OneLineObject separatedData ∧ ¬ Reframes "content_block_delta" separatedData := by
  have object : OneLineObject separatedData :=
    ⟨⟨"\"index\": 0, \"text\": \"a\u2028b\"".toList, by decide⟩, by decide, by decide⟩
  refine ⟨object, fun reframes => ?_⟩
  have read : (parseNativeSseEvent (formatNativeSseEvent (some "content_block_delta")
      separatedData)).2 = "\x7b\"index\": 0, \"text\": \"a\nb\"\x7d" := by
    decide +kernel
  rw [reframes.1] at read
  exact absurd read (by decide)

/-- Data without a line boundary is read back. -/
theorem plainData_reframes : Reframes "ping" "\x7b\"type\": \"ping\"\x7d" :=
  (reframes_iff (by decide) ⟨⟨"\"type\": \"ping\"".toList, by decide⟩, by decide, by decide⟩).mpr
    (List.forall_iff_forall_mem.mp (by decide))

end ClaudeProxy
