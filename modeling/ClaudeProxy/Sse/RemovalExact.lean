/-
**Thinking disabled: an unclean frame is never made up for.**

`removal_step` leaves a frame that is answered as the reference has it, or one that departs. What
comes later does not repair a departure.

* `over_first` — after a block of which the policy knows nothing, neither its delta nor its stop is the
  next event sent.
* `owed_differs` — nor does the policy catch up with a delta that it has dropped: what it owes of the
  block's deltas stays behind.
* `misdropped_le` — and it starts no more blocks of the types that it takes for thinking.
* `departs_differs`, and by induction over the frames **`thinking_removal_iff`**.
-/

import ClaudeProxy.Sse.ThinkingRemoval

namespace ClaudeProxy

open Json (getKey)

/-! ### What is sent, frame by frame -/

section Run

variable {thinkingEnabled : Bool} {state last : NativeSseBlockPolicyState} {frame : NativeFrame}
  {rest : List NativeFrame}

theorem sent_cons {answers : List (Option (List SseEvent))}
    (ran : transformNativeSseFrames thinkingEnabled state (frame :: rest) = .ok (answers, last)) :
    ∃ answer middle later, transformNativeSseFrame frame state thinkingEnabled = .ok (answer, middle) ∧
      transformNativeSseFrames thinkingEnabled middle rest = .ok (later, last) ∧
      sentEvents answers = answer.getD [] ++ sentEvents later := by
  rw [transformNativeSseFrames] at ran
  split at ran
  · cases ran
  · rename_i answer middle ranFrame
    split at ran
    · cases ran
    · rename_i later last' ranRest
      obtain ⟨rfl, rfl⟩ := Prod.mk.inj (Except.ok.inj ran)
      exact ⟨answer, middle, later, ranFrame, ranRest, rfl⟩

theorem sent_nil {answers : List (Option (List SseEvent))}
    (ran : transformNativeSseFrames thinkingEnabled state [] = .ok (answers, last)) :
    sentEvents answers = [] := by
  rw [← (Prod.mk.inj (Except.ok.inj ran)).1]
  rfl

end Run

/-! ### One event too many -/

/-- Behind a dropped block the reference goes on with an event of no block, or starts another one. -/
theorem removeThinking_of_dropped {numbering : Numbering} (dropped : numbering.kept = false)
    {events rest : List SseEvent} {first : SseEvent}
    (reference : removeThinking numbering events = first :: rest) :
    first.mark?.isSome = true →
      ∃ index, first.mark? = some (.start index) ∧ isThinkingType first.blockType = false := by
  induction events generalizing numbering with
  | nil => cases reference
  | cons event events ih =>
    rw [removeThinking, Numbering.renumber, Numbering.step] at reference
    cases read : event.mark? with
    | none =>
      rw [read] at reference
      rw [← (List.cons.inj reference).1, read]
      exact nofun
    | some mark =>
      rw [read] at reference
      cases mark with
      | start index =>
        dsimp only at reference
        split_ifs at reference with thinking
        · exact ih rfl reference
        · rw [← (List.cons.inj reference).1]
          refine fun _ => ⟨_, mark?_reindex_start read _, ?_⟩
          rw [blockType_reindex]
          exact Bool.eq_false_iff.mpr thinking
      | delta index =>
        rw [dropped] at reference
        exact ih dropped reference
      | stop index =>
        rw [dropped] at reference
        exact ih dropped reference

/-! ### A start too few -/

/-- The start of a block that the policy drops, though it is no thinking block. -/
def isMisdropped (event : SseEvent) : Bool :=
  event.event = "content_block_start" && shouldDropBlockType event.blockType false &&
    !isThinkingType event.blockType

section Misdropped

variable {event : SseEvent} {state : NativeSseBlockPolicyState} {upstream : Int}

theorem misdropped_reindex (event : SseEvent) (down : Int) :
    isMisdropped (event.reindex down) = isMisdropped event := by
  unfold isMisdropped
  rw [blockType_reindex]
  rfl

theorem not_misdropped_of_name (name : event.event ≠ "content_block_start") :
    isMisdropped event = false := by
  unfold isMisdropped
  rw [decide_eq_false name]
  rfl

theorem not_misdropped_of_kept (keeps : shouldDropBlockType event.blockType false = false) :
    isMisdropped event = false := by
  unfold isMisdropped
  rw [keeps, Bool.and_false]
  rfl

/-- The policy's own starts are of types that it keeps, or of thinking blocks. -/
theorem not_misdropped_synthetic (index : Int) (kind : String)
    (stored : Option (List (String × Json))) :
    isMisdropped (contentBlockStart index (syntheticStartContentBlock kind upstream stored)) = false := by
  have typed : (contentBlockStart index (syntheticStartContentBlock kind upstream stored)).blockType =
      getKey (syntheticStartContentBlock kind upstream stored) "type" := rfl
  unfold isMisdropped
  rw [typed]
  unfold syntheticStartContentBlock
  split_ifs
  · cases stored with
    | none => rfl
    | some block =>
      dsimp only
      split_ifs <;> rfl
  · rfl
  · rfl

theorem countP_openSegment {payload : List (String × Json)} {kind : String}
    {stored : Option (List (String × Json))} {carried : Option (List (String × Json))}
    (name : event.event ≠ "content_block_start") :
    ((openSegment event payload upstream kind carried
      (syntheticStartContentBlock kind upstream stored) state).1.getD []).countP isMisdropped = 0 := by
  rw [List.countP_eq_zero]
  intro sent member
  rcases List.mem_cons.mp member with rfl | member
  · rw [not_misdropped_synthetic]
    exact Bool.false_ne_true
  · have silent : isMisdropped sent = false := by
      rw [List.mem_singleton.mp member]
      exact not_misdropped_of_name name
    rw [silent]
    exact Bool.false_ne_true

theorem countP_single (silent : isMisdropped event = false) : [event].countP isMisdropped = 0 := by
  rw [List.countP_singleton, silent]
  rfl

/-- A decoded delta starts no such block. -/
theorem countP_delta (read : event.mark? = some (.delta upstream)) {delta : List (String × Json)}
    (isDelta : event.delta = .obj delta) {answer : Option (List SseEvent)}
    {state' : NativeSseBlockPolicyState}
    (ran : transformNativeSseBlockEvent event state false = .ok (answer, state')) :
    (answer.getD []).countP isMisdropped = 0 := by
  have name : event.event ≠ "content_block_start" := by
    obtain ⟨_, _, ⟨-, same⟩ | ⟨name, -⟩ | ⟨-, same⟩⟩ := event_of_mark? read
    · cases same
    · rw [name]
      decide
    · cases same
  have silent := not_misdropped_of_name name
  obtain ⟨payload, -, result⟩ := @transform_of_delta _ state false _ read _ isDelta
  rw [result] at ran
  have answered : _ = answer := congrArg Prod.fst (Except.ok.inj ran)
  rw [← answered]
  split_ifs
  · rfl
  · rfl
  · cases deltaTypeToBlockKind event.deltaType with
    | none => exact countP_single silent
    | some kind =>
      cases state.byUpstream.get? upstream with
      | none =>
        simp only [Option.elim_some, Option.elim_none]
        split_ifs
        · exact countP_openSegment name
        · exact countP_single silent
      | some seg =>
        simp only [Option.elim_some]
        split_ifs
        · exact countP_single ((misdropped_reindex event _).trans silent)
        · exact countP_openSegment name

/-- Nor does a decoded stop. -/
theorem countP_stop (read : event.mark? = some (.stop upstream)) {answer : Option (List SseEvent)}
    {state' : NativeSseBlockPolicyState}
    (ran : transformNativeSseBlockEvent event state false = .ok (answer, state')) :
    (answer.getD []).countP isMisdropped = 0 := by
  have silent : isMisdropped event = false := by
    obtain ⟨_, _, ⟨-, same⟩ | ⟨-, same⟩ | ⟨name, -⟩⟩ := event_of_mark? read
    · cases same
    · cases same
    · refine not_misdropped_of_name ?_
      rw [name]
      decide
  rw [transform_of_stop read, if_pos (rfl : false = false)] at ran
  have answered : _ = answer := congrArg Prod.fst (Except.ok.inj ran)
  rw [← answered]
  split_ifs
  · rfl
  · rfl
  · cases state.byUpstream.get? upstream with
    | none => rfl
    | some seg =>
      simp only [Option.elim_some]
      split_ifs
      · exact countP_single ((misdropped_reindex event _).trans silent)
      · rfl

/-- Nor a decoded start. -/
theorem countP_start (read : event.mark? = some (.start upstream)) {block : List (String × Json)}
    {blockType : String} (isBlock : event.contentBlock = .obj block)
    (typed : getKey block "type" = .str blockType) {answer : Option (List SseEvent)}
    {state' : NativeSseBlockPolicyState}
    (ran : transformNativeSseBlockEvent event state false = .ok (answer, state')) :
    (answer.getD []).countP isMisdropped = 0 := by
  cases drops : shouldDropBlockType event.blockType false with
  | true =>
    rw [transform_droppedStart read isBlock drops] at ran
    rw [← (Prod.mk.inj (Except.ok.inj ran)).1]
    rfl
  | false =>
    rw [transform_keptStart read isBlock typed drops] at ran
    rw [← (Prod.mk.inj (Except.ok.inj ran)).1, Option.getD_some, List.countP_append,
      countP_single ((misdropped_reindex event _).trans (not_misdropped_of_kept drops)),
      List.countP_eq_zero.mpr]
    intro sent member
    obtain ⟨entry, -, rfl⟩ := List.mem_map.mp member
    rw [not_misdropped_of_name (show ("content_block_stop" : String) ≠ _ by decide)]
    exact Bool.false_ne_true

end Misdropped

/-- The reference keeps such a start. -/
theorem countP_renumber (numbering : Numbering) (event : SseEvent) {up up' : Nest Int}
    (begins : Begins up event up') :
    [event].countP isMisdropped ≤ (numbering.renumber event).countP isMisdropped := by
  unfold Numbering.renumber
  cases begins with
  | other unread =>
    rw [unread]
  | start read =>
    rw [read]
    dsimp only
    split_ifs with thinking
    · rw [countP_single]
      · exact Nat.zero_le _
      · unfold isMisdropped
        rw [thinking, Bool.not_true, Bool.and_false]
    · rw [List.countP_singleton, List.countP_singleton, misdropped_reindex]
  | delta read =>
    obtain ⟨_, _, ⟨-, same⟩ | ⟨name, -⟩ | ⟨-, same⟩⟩ := event_of_mark? read
    · cases same
    · rw [countP_single (not_misdropped_of_name (by rw [name]; decide))]
      exact Nat.zero_le _
    · cases same
  | stop read =>
    obtain ⟨_, _, ⟨-, same⟩ | ⟨-, same⟩ | ⟨name, -⟩⟩ := event_of_mark? read
    · cases same
    · cases same
    · rw [countP_single (not_misdropped_of_name (by rw [name]; decide))]
      exact Nat.zero_le _

/-- **No more of them are sent than the reference has.** -/
theorem misdropped_le {frames : List NativeFrame} {up : Nest Int}
    (sequential : SequentialFrom up (frames.map NativeFrame.event))
    {state last : NativeSseBlockPolicyState} {answers : List (Option (List SseEvent))}
    (ran : transformNativeSseFrames false state frames = .ok (answers, last)) (numbering : Numbering) :
    (sentEvents answers).countP isMisdropped ≤
      (removeThinking numbering (frames.map NativeFrame.event)).countP isMisdropped := by
  induction frames generalizing up state answers numbering with
  | nil =>
    rw [sent_nil ran]
    exact Nat.zero_le _
  | cons frame rest ih =>
    obtain ⟨up', begins, onward⟩ := SequentialFrom.cons sequential
    obtain ⟨answer, middle, later, ranFrame, ranRest, sent⟩ := sent_cons ran
    rw [sent, List.map_cons, removeThinking, List.countP_append, List.countP_append]
    refine Nat.add_le_add ?_ (ih onward ranRest _)
    unfold transformNativeSseFrame at ranFrame
    split_ifs at ranFrame with decoded
    · cases begins with
      | other unread noBlock =>
        rw [transform_other noBlock] at ranFrame
        rw [← (Prod.mk.inj (Except.ok.inj ranFrame)).1]
        exact countP_renumber numbering frame.event (Begins.other unread noBlock : Begins up frame.event up)
      | start read index isBlock typed =>
        rw [countP_start read isBlock typed ranFrame]
        exact Nat.zero_le _
      | delta read index isDelta =>
        rw [countP_delta read isDelta ranFrame]
        exact Nat.zero_le _
      | stop read =>
        rw [countP_stop read ranFrame]
        exact Nat.zero_le _
    · rw [← (Prod.mk.inj (Except.ok.inj ranFrame)).1]
      exact countP_renumber numbering frame.event begins

/-! ### A delta or a stop too few -/

/-- **Behind a block of which the policy knows nothing**, the next event is no delta and no stop of it. -/
theorem over_first {frames : List NativeFrame} {up : Nest Int}
    (sequential : SequentialFrom up (frames.map NativeFrame.event))
    {state last : NativeSseBlockPolicyState} {answers : List (Option (List SseEvent))}
    (ran : transformNativeSseFrames false state frames = .ok (answers, last)) {number : Int}
    (ended : BlockOver up state number) {first : SseEvent} {rest : List SseEvent}
    (sent : sentEvents answers = first :: rest) :
    first.mark? ≠ some (.delta number) ∧ first.mark? ≠ some (.stop number) := by
  induction frames generalizing up state answers with
  | nil =>
    rw [sent_nil ran] at sent
    cases sent
  | cons frame frames ih =>
    obtain ⟨up', begins, onward⟩ := SequentialFrom.cons sequential
    obtain ⟨answer, middle, later, ranFrame, ranRest, split⟩ := sent_cons ran
    rw [split] at sent
    have head : ∀ event, answer = some [event] → first = event := by
      rintro event rfl
      exact (List.cons.inj sent).1.symm
    -- an event of a block that is open is of another one
    have other : ∀ upstream, up.opened = {upstream} → upstream ≠ number := by
      rintro upstream alone rfl
      exact ended.gone (alone ▸ Finset.mem_singleton_self _)
    have hidden : ∀ upstream, up.opened = {upstream} → upstream ∈ state.droppedIndexes :=
      fun upstream alone => ended.hidden upstream (alone ▸ Finset.mem_singleton_self _)
    have onwards : answer = none → middle = state → BlockOver up' state number →
        first.mark? ≠ some (.delta number) ∧ first.mark? ≠ some (.stop number) := by
      rintro rfl rfl ended'
      exact ih onward ranRest ended' sent
    unfold transformNativeSseFrame at ranFrame
    split_ifs at ranFrame with decoded
    · cases begins with
      | other unread noBlock =>
        rw [transform_other noBlock] at ranFrame
        rw [head _ (Prod.mk.inj (Except.ok.inj ranFrame)).1.symm, unread]
        exact ⟨nofun, nofun⟩
      | @start upstream block blockType read index isBlock typed fresh nothing =>
        have different : upstream ≠ number := fun same => fresh (same ▸ ended.seen)
        cases drops : shouldDropBlockType frame.event.blockType false with
        | true =>
          rw [transform_droppedStart read isBlock drops] at ranFrame
          obtain ⟨rfl, rfl⟩ := Prod.mk.inj (Except.ok.inj ranFrame)
          refine ih onward ranRest ⟨Finset.mem_insert_of_mem ended.seen, fun member => ?_,
            fun another member => ?_, ended.others⟩ sent
          · exact different (only_open_of_start nothing member).symm
          · rw [only_open_of_start nothing member]
            exact Finset.mem_insert_self _ _
        | false =>
          rw [transform_keptStart read isBlock typed drops] at ranFrame
          obtain ⟨rfl, rfl⟩ := Prod.mk.inj (Except.ok.inj ranFrame)
          rw [Option.getD_some] at sent
          by_cases missed : ∃ another seg, state.byUpstream.get? another = some seg ∧
              another ≠ upstream ∧ seg.isOpen = true
          · obtain ⟨another, seg, found, apart, isOpen⟩ := missed
            obtain ⟨_, closing, closings, closingFound, -, closingOpen, closed⟩ :=
              syntheticClose_of_open found apart isOpen
            rw [closed, List.cons_append] at sent
            rw [← (List.cons.inj sent).1, mark?_contentBlockStop]
            refine ⟨nofun, fun same => ended.others _ _ closingFound closingOpen ?_⟩
            exact Mark.stop.inj (Option.some.inj same)
          · have idle : syntheticCloseOtherOpenBlocks state upstream = ([], state) :=
              syntheticClose_of_others fun another seg found apart => by
                by_contra isOpen
                exact missed ⟨another, seg, found, apart, (Bool.not_eq_false _).mp isOpen⟩
            rw [idle] at sent
            rw [← (List.cons.inj sent).1, mark?_reindex_start read]
            exact ⟨nofun, nofun⟩
      | @delta upstream delta read index isDelta alone =>
        rw [transform_hiddenDelta read isDelta (hidden upstream alone)] at ranFrame
        obtain ⟨rfl, rfl⟩ := Prod.mk.inj (Except.ok.inj ranFrame)
        exact onwards rfl rfl ended
      | @stop upstream read index alone =>
        rw [transform_hiddenStop read (hidden upstream alone)] at ranFrame
        obtain ⟨rfl, rfl⟩ := Prod.mk.inj (Except.ok.inj ranFrame)
        have closed := nothing_open_of_stop alone
        refine onwards rfl rfl ⟨ended.seen, closed ▸ Finset.notMem_empty _, fun another member => ?_,
          ended.others⟩
        exact absurd (closed ▸ member) (Finset.notMem_empty _)
    · rw [head _ (Prod.mk.inj (Except.ok.inj ranFrame)).1.symm]
      cases begins with
      | other unread =>
        rw [unread]
        exact ⟨nofun, nofun⟩
      | start read =>
        rw [read]
        exact ⟨nofun, nofun⟩
      | @delta upstream _ read _ _ alone =>
        rw [read]
        exact ⟨fun same => other upstream alone (Mark.delta.inj (Option.some.inj same)), nofun⟩
      | @stop upstream read _ alone =>
        rw [read]
        exact ⟨nofun, fun same => other upstream alone (Mark.stop.inj (Option.some.inj same))⟩

/-- A delta of a type that the policy keeps begins with an event of that type, or with a start. -/
theorem keptDelta_first {event : SseEvent} {state : NativeSseBlockPolicyState} {upstream : Int}
    (read : event.mark? = some (.delta upstream)) {delta : List (String × Json)}
    (isDelta : event.delta = .obj delta) (shown : upstream ∉ state.droppedIndexes)
    (keeps : shouldDropBlockType event.deltaType false = false) :
    ∃ first rest state', transformNativeSseBlockEvent event state false = .ok (some (first :: rest), state') ∧
      (first.deltaType = event.deltaType ∨ ∃ index, first.mark? = some (.start index)) := by
  rcases mapped : deltaTypeToBlockKind event.deltaType with _ | kind
  · exact ⟨_, _, _, transform_unmappedDelta read isDelta shown keeps mapped, .inl rfl⟩
  · rcases found : state.byUpstream.get? upstream with _ | seg
    · by_cases thinking : kind = "thinking"
      · exact ⟨_, _, _, transform_thinkingDelta read isDelta shown keeps mapped found thinking, .inl rfl⟩
      · obtain ⟨block, state', answer⟩ :=
          transform_startingDelta read isDelta shown keeps mapped found thinking
        exact ⟨_, _, _, answer, .inr ⟨_, mark?_contentBlockStart _ _⟩⟩
    · cases isOpen : seg.isOpen with
      | true =>
        exact ⟨_, _, _, transform_openDelta read isDelta shown keeps mapped found isOpen,
          .inl (deltaType_reindex event _)⟩
      | false =>
        exact ⟨_, _, _, transform_reopeningDelta read isDelta shown keeps mapped found isOpen,
          .inr ⟨_, mark?_contentBlockStart _ _⟩⟩

/-- A delta of the current block that the policy drops. -/
structure IsOwed (number : Int) (event : SseEvent) : Prop where
  read : event.mark? = some (.delta number)
  drops : shouldDropBlockType event.deltaType false = true

theorem isOwed_reindex {event : SseEvent} {upstream : Int}
    (read : event.mark? = some (.delta upstream))
    (drops : shouldDropBlockType event.deltaType false = true) (number : Int) :
    IsOwed number (event.reindex number) :=
  ⟨mark?_reindex_delta read number, by rwa [deltaType_reindex]⟩

/-- **What is owed stays behind**: the deltas dropped so far in the block that is open. -/
theorem owed_differs {frames : List NativeFrame} {up : Nest Int} {removal : Removal}
    {state last : NativeSseBlockPolicyState} {upstream : Int} (agrees : Agrees up state removal)
    (kept : removal.kept = true) (alone : up.opened = {upstream})
    (sequential : SequentialFrom up (frames.map NativeFrame.event))
    {answers : List (Option (List SseEvent))}
    (ran : transformNativeSseFrames false state frames = .ok (answers, last)) {owed : SseEvent}
    {others : List SseEvent} (each : ∀ event ∈ owed :: others, IsOwed (removal.next - 1) event) :
    sentEvents answers ≠ owed :: others ++
      removeThinking removal.toNumbering (frames.map NativeFrame.event) := by
  induction frames generalizing answers owed others with
  | nil =>
    rw [sent_nil ran]
    exact nofun
  | cons frame frames ih =>
    obtain ⟨up', begins, onward⟩ := SequentialFrom.cons sequential
    obtain ⟨answer, middle, later, ranFrame, ranRest, split⟩ := sent_cons ran
    have isOpen : upstream ∈ up.opened := alone ▸ Finset.mem_singleton_self _
    have shows := agrees.keptOpen kept upstream isOpen
    have first := each owed List.mem_cons_self
    -- an event that is sent first is the owed one
    have head : ∀ {event : SseEvent} {more : List SseEvent} {reference : List SseEvent},
        event :: more = owed :: others ++ reference → event.mark? = some (.delta (removal.next - 1)) ∧
          shouldDropBlockType event.deltaType false = true := by
      intro event more reference same
      rw [(List.cons.inj same).1]
      exact ⟨first.read, first.drops⟩
    rw [split, List.map_cons, removeThinking]
    unfold transformNativeSseFrame at ranFrame
    cases begins with
    | other unread noBlock =>
      have passed : answer = some [frame.event] := by
        split_ifs at ranFrame
        · rw [transform_other noBlock] at ranFrame
          exact (Prod.mk.inj (Except.ok.inj ranFrame)).1.symm
        · exact (Prod.mk.inj (Except.ok.inj ranFrame)).1.symm
      subst passed
      intro same
      have marks := (head same).1
      rw [unread] at marks
      cases marks
    | start _ _ _ _ _ nothing =>
      rw [nothing] at isOpen
      exact absurd isOpen (Finset.notMem_empty _)
    | @delta current delta read index isDelta one =>
      obtain rfl : current = upstream := Finset.singleton_injective (one.symm.trans alone)
      rw [← List.append_assoc, Numbering.renumber, Numbering.step, read, kept]
      dsimp only
      -- the reference's delta joins those that are owed
      have joined : shouldDropBlockType frame.event.deltaType false = true →
          ∀ event ∈ others ++ [frame.event.reindex (removal.next - 1)],
            IsOwed (removal.next - 1) event := by
        intro drops event member
        rcases List.mem_append.mp member with earlier | new
        · exact each event (List.mem_cons_of_mem _ earlier)
        · rw [List.mem_singleton.mp new]
          exact isOwed_reindex read drops _
      split_ifs at ranFrame with decoded
      · cases drops : shouldDropBlockType frame.event.deltaType false with
        | true =>
          rw [transform_droppedDelta read isDelta drops] at ranFrame
          obtain ⟨rfl, rfl⟩ := Prod.mk.inj (Except.ok.inj ranFrame)
          refine ih onward ranRest fun event member => ?_
          rcases List.mem_cons.mp member with rfl | member
          · exact first
          · exact joined drops event member
        | false =>
          obtain ⟨sentFirst, rest, state', ranDelta, shape⟩ :=
            keptDelta_first read isDelta shows.shown drops
          rw [ranDelta] at ranFrame
          obtain ⟨rfl, rfl⟩ := Prod.mk.inj (Except.ok.inj ranFrame)
          rw [List.append_assoc]
          intro same
          obtain ⟨marks, types⟩ := head same
          rcases shape with kind | ⟨index, start⟩
          · rw [kind, drops] at types
            cases types
          · rw [start] at marks
            cases marks
      · obtain ⟨rfl, rfl⟩ := Prod.mk.inj (Except.ok.inj ranFrame)
        rw [Option.getD_some, List.append_assoc]
        intro same
        have drops := (head same).2
        have equal : sentEvents later = (others ++ [frame.event.reindex (removal.next - 1)]) ++
            removeThinking removal.toNumbering (frames.map NativeFrame.event) := by
          rw [List.append_assoc]
          exact (List.cons.inj same).2
        have owes := joined drops
        rcases shape : others ++ [frame.event.reindex (removal.next - 1)] with _ | ⟨next, more⟩
        · exact List.append_ne_nil_of_right_ne_nil _ (List.cons_ne_nil _ _) shape
        · rw [shape] at owes equal
          exact ih onward ranRest owes equal
    | @stop current read index one =>
      obtain rfl : current = upstream := Finset.singleton_injective (one.symm.trans alone)
      have stops : ∀ down, (frame.event.reindex down).mark? ≠ some (.delta (removal.next - 1)) := by
        intro down same
        rw [mark?_reindex_stop read] at same
        cases same
      split_ifs at ranFrame with decoded
      · have due : current ∉ state.pendingSuppressedStops :=
          agrees.unsuppressed ▸ Finset.notMem_empty _
        cases sighted : removal.sighted with
        | true =>
          obtain ⟨seg, found, segOpen, -⟩ := shows.known sighted
          rw [transform_openStop read shows.shown due found segOpen] at ranFrame
          obtain ⟨rfl, rfl⟩ := Prod.mk.inj (Except.ok.inj ranFrame)
          exact fun same => stops _ (head same).1
        | false =>
          rw [transform_unknownStop read shows.shown due (shows.unknown sighted).1] at ranFrame
          obtain ⟨rfl, rfl⟩ := Prod.mk.inj (Except.ok.inj ranFrame)
          have ended := blockOver_of_unseen agrees kept sighted alone
          intro same
          exact (over_first onward ranRest ended same).1 first.read
      · obtain ⟨rfl, rfl⟩ := Prod.mk.inj (Except.ok.inj ranFrame)
        intro same
        have marks := (head same).1
        rw [read] at marks
        cases marks

/-! ### The run -/

/-- **A departure is not made up for.** -/
theorem departs_differs {frame : NativeFrame} {frames : List NativeFrame} {up' : Nest Int}
    {state' last : NativeSseBlockPolicyState} {removal : Removal} {out : List SseEvent}
    (departs : Departs up' state' removal frame out)
    (sequential : SequentialFrom up' (frames.map NativeFrame.event))
    {answers : List (Option (List SseEvent))}
    (ran : transformNativeSseFrames false state' frames = .ok (answers, last)) :
    out ++ sentEvents answers ≠ removal.renumber frame.event ++
      removeThinking (removal.step frame).toNumbering (frames.map NativeFrame.event) := by
  intro same
  cases departs with
  | heads different reference =>
    rw [reference] at same
    exact different (List.cons.inj same).1
  | extra nothing dropped block thinking =>
    rw [nothing, List.nil_append] at same
    obtain ⟨index, read, kept⟩ := removeThinking_of_dropped dropped same.symm block
    rw [thinking index read] at kept
    cases kept
  | @lostStart upstream read drops keeps =>
    have fewer := misdropped_le sequential ran (removal.step frame).toNumbering
    have counts := congrArg (List.countP isMisdropped) same
    rw [Removal.renumber_start read, keeps, if_neg Bool.false_ne_true, List.nil_append,
      List.countP_append, List.countP_singleton, misdropped_reindex] at counts
    have isStart : isMisdropped frame.event = true := by
      obtain ⟨_, _, ⟨name, -⟩ | ⟨-, other⟩ | ⟨-, other⟩⟩ := event_of_mark? read
      · unfold isMisdropped
        rw [name, drops, keeps]
        rfl
      · cases other
      · cases other
    rw [if_pos isStart] at counts
    omega
  | lostDelta read kept drops alone agrees =>
    rw [Removal.renumber_delta read, Removal.step_delta read, kept, if_pos rfl] at same
    refine owed_differs agrees kept alone sequential ran (fun event member => ?_) same
    rw [List.mem_singleton.mp member]
    exact isOwed_reindex read drops _
  | lostStop read kept ended =>
    rw [Removal.renumber_stop read, kept, if_pos rfl] at same
    exact (over_first sequential ran ended same).2 (mark?_reindex_stop read _)

/-- Along the frames. -/
theorem removal_run {frames : List NativeFrame} {up : Nest Int} {removal : Removal}
    {state last : NativeSseBlockPolicyState} (agrees : Agrees up state removal)
    (sequential : SequentialFrom up (frames.map NativeFrame.event))
    {answers : List (Option (List SseEvent))}
    (ran : transformNativeSseFrames false state frames = .ok (answers, last)) :
    sentEvents answers = removeThinking removal.toNumbering (frames.map NativeFrame.event) ↔
      RenumbersCleanly removal frames := by
  induction frames generalizing up removal state answers with
  | nil =>
    rw [sent_nil ran]
    exact ⟨fun _ => trivial, fun _ => rfl⟩
  | cons frame rest ih =>
    obtain ⟨up', begins, onward⟩ := SequentialFrom.cons sequential
    obtain ⟨answer, middle, later, ranFrame, ranRest, split⟩ := sent_cons ran
    obtain ⟨answer', middle', ranFrame', outcome⟩ := removal_step agrees begins
    obtain ⟨rfl, rfl⟩ := Prod.mk.inj (Except.ok.inj (ranFrame.symm.trans ranFrame'))
    rw [split, List.map_cons, removeThinking, RenumbersCleanly]
    rcases outcome with ⟨clean, out, agrees'⟩ | ⟨unclean, departs⟩
    · rw [out, List.append_cancel_left_eq]
      exact (ih agrees' onward ranRest).trans (and_iff_right clean).symm
    · refine iff_of_false ?_ fun both => unclean both.1
      exact departs_differs departs onward ranRest

/-- **Thinking removal is a clean renumbering exactly on the clean frames.** -/
theorem thinking_removal_iff {runtime : Runtime} {frames : List NativeFrame}
    (fits : ∀ frame ∈ frames, frame.Fits runtime)
    (sequential : SequentialBlocks (frames.map NativeFrame.event)) :
    ∃ out, Answered runtime false frames out ∧
      (out = removeThinking startRemoval.toNumbering (frames.map NativeFrame.event) ↔
        RenumbersCleanly startRemoval frames) := by
  obtain ⟨_, answers, state, -, ran, -⟩ := @texts_of_frames runtime false {} frames fits
  exact ⟨sentEvents answers, answered_of_frames fits ran,
    removal_run agrees_init sequential.sequentialFrom ran⟩

/-! ### Samples -/

/-- The event has the shape that `SequentialBlocks` asks for. -/
def isTypedEvent (event : SseEvent) : Bool :=
  (!event.isBlockEvent ||
      getKey event.fields "index" = .int ((getKey event.fields "index").asInt?.getD 0)) &&
    (event.event ≠ "content_block_start" ||
      event.contentBlock.asObj?.elim false fun block => (getKey block "type").asStr?.isSome) &&
    (event.event ≠ "content_block_delta" || event.delta.asObj?.isSome)

/-- Blocks one at a time, read off the events. -/
def isSequential (events : List SseEvent) : Bool :=
  WellNested events &&
    (events.inits.all fun first =>
      (Nest.empty.run (marks first)).elim true fun nest => nest.opened.card ≤ 1) &&
    events.all isTypedEvent

theorem sequentialBlocks_of_isSequential {events : List SseEvent} (checks : isSequential events = true) :
    SequentialBlocks events := by
  unfold isSequential at checks
  rw [Bool.and_eq_true, Bool.and_eq_true, decide_eq_true_eq, List.all_eq_true, List.all_eq_true] at checks
  obtain ⟨⟨nested, single⟩, shaped⟩ := checks
  refine ⟨nested, fun first before nest ran => ?_, fun event member block => ?_,
    fun event member name => ?_, fun event member name => ?_⟩
  · have few := single first ((List.mem_inits _ _).mpr before)
    rw [ran] at few
    exact of_decide_eq_true few
  · have shape := shaped event member
    simp only [isTypedEvent, block, Bool.not_true, Bool.false_or, Bool.and_eq_true,
      decide_eq_true_eq] at shape
    exact ⟨_, shape.1.1⟩
  · have shape := shaped event member
    simp only [isTypedEvent, name, ne_eq, not_true_eq_false, decide_false, Bool.false_or,
      Bool.and_eq_true] at shape
    have typed := shape.1.2
    cases isBlock : event.contentBlock with
    | obj block =>
      rw [isBlock] at typed
      cases isType : getKey block "type" with
      | str blockType => exact ⟨block, blockType, rfl, isType⟩
      | _ =>
        simp only [Json.asObj?, Option.elim_some, isType, Json.asStr?] at typed
        cases typed
    | _ =>
      rw [isBlock] at typed
      cases typed
  · have shape := shaped event member
    simp only [isTypedEvent, name, ne_eq, not_true_eq_false, decide_false, Bool.false_or,
      Bool.and_eq_true] at shape
    have extended := shape.2
    cases isDelta : event.delta with
    | obj delta => exact ⟨delta, rfl⟩
    | _ =>
      rw [isDelta] at extended
      cases extended

/-- A thinking block, then a text block with a citation. -/
def thoughtThenCitation : List NativeSample :=
  [⟨contentBlockStart 0 [("type", .str "thinking"), ("thinking", .str "")], none⟩,
    ⟨contentBlockStop 0, none⟩,
    ⟨contentBlockStart 1 [("type", .str "text"), ("text", .str "")], none⟩,
    ⟨contentBlockDelta 1 [("type", .str "citations_delta"), ("citation", .obj [])], none⟩,
    ⟨contentBlockStop 1, none⟩]

theorem thoughtThenCitation_sequential :
    SequentialBlocks ((thoughtThenCitation.map NativeSample.frame).map NativeFrame.event) :=
  sequentialBlocks_of_isSequential (by decide +kernel)

theorem thoughtThenCitation_unclean :
    ¬ RenumbersCleanly startRemoval (thoughtThenCitation.map NativeSample.frame) := by
  decide +kernel

/-- The citation keeps the upstream index `1`, whose block is now `0`. -/
theorem thoughtThenCitation_leaks :
    (∀ frame ∈ thoughtThenCitation.map NativeSample.frame,
        frame.Fits (NativeSample.runtime thoughtThenCitation)) ∧
      SequentialBlocks ((thoughtThenCitation.map NativeSample.frame).map NativeFrame.event) ∧
      ¬ Answered (NativeSample.runtime thoughtThenCitation) false
        (thoughtThenCitation.map NativeSample.frame)
        (removeThinking startRemoval.toNumbering
          ((thoughtThenCitation.map NativeSample.frame).map NativeFrame.event)) := by
  refine ⟨NativeSample.fits (by decide +kernel), thoughtThenCitation_sequential, ?_⟩
  rintro ⟨texts, answers, state, -, ran, -, sent⟩
  exact thoughtThenCitation_unclean
    ((removal_run agrees_init thoughtThenCitation_sequential.sequentialFrom ran).mp sent)

/-- A text block whose delta is not decoded, a thinking block, and a second text block. -/
def answerThoughtAnswer : List NativeSample :=
  [⟨contentBlockStart 0 [("type", .str "text"), ("text", .str "")], none⟩,
    ⟨contentBlockDelta 0 [("type", .str "text_delta"), ("text", .str "a\u2028b")],
      some ("\x7b\"type\": \"content_block_delta\", \"index\": 0, \"delta\": \x7b" ++
        "\"type\": \"text_delta\", \"text\": \"a\u2028b\"\x7d\x7d")⟩,
    ⟨contentBlockStop 0, none⟩,
    ⟨contentBlockStart 1 [("type", .str "thinking"), ("thinking", .str "")], none⟩,
    ⟨contentBlockDelta 1 [("type", .str "thinking_delta"), ("thinking", .str "hm")], none⟩,
    ⟨contentBlockStop 1, none⟩,
    ⟨contentBlockStart 2 [("type", .str "text"), ("text", .str "")], none⟩,
    ⟨contentBlockDelta 2 [("type", .str "text_delta"), ("text", .str "c")], none⟩,
    ⟨contentBlockStop 2, none⟩]

theorem answerThoughtAnswer_clean :
    RenumbersCleanly startRemoval (answerThoughtAnswer.map NativeSample.frame) := by
  decide +kernel

theorem answerThoughtAnswer_renumbered :
    Answered (NativeSample.runtime answerThoughtAnswer) false (answerThoughtAnswer.map NativeSample.frame)
      (removeThinking startRemoval.toNumbering
        ((answerThoughtAnswer.map NativeSample.frame).map NativeFrame.event)) := by
  have fits := @NativeSample.fits answerThoughtAnswer (by decide +kernel)
  obtain ⟨out, answered, exactly⟩ :=
    thinking_removal_iff fits (sequentialBlocks_of_isSequential (by decide +kernel))
  obtain rfl := exactly.mpr answerThoughtAnswer_clean
  exact answered

end ClaudeProxy
