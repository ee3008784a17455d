/-
**Native events as frames.**

The policy reads the text of a frame with `parse_native_sse_event` and `json.loads`, and passes a text
on that it cannot decode. A `NativeFrame` is a text, the event that it stands for upstream, and whether
the policy decodes it; data with a raw U+0085, U+2028 or U+2029 in a string is not decoded.

* `NativeFrame.Fits` — the text is read as the event, or not at all; **`writtenFrame_decoded_iff`** —
  which frames are decoded.
* `transformNativeSseFrame` — the policy on a frame; **`rendered_frame`** — it is the policy on its text.
* `Answered` — what is sent of a whole stream, as events and as texts; `texts_of_frames`,
  **`answered_of_stream`**.
-/

import ClaudeProxy.Sse.NativeFraming

namespace ClaudeProxy

/-! ### Frames -/

/-- The policy reads the text as this event. -/
def ReadAs (runtime : Runtime) (text : String) (event : SseEvent) : Prop :=
  ∃ name dataText payload, name ≠ "" ∧ dataText ≠ "" ∧
    parseNativeSseEvent text = (some name, dataText) ∧ runtime.loads dataText = .ok (.obj payload) ∧
    event = formatSseEvent name payload

/-- The policy finds no event in the text: it has no name or no data, or the data is no JSON. -/
def Undecoded (runtime : Runtime) (text : String) : Prop :=
  (parseNativeSseEvent text).1.getD "" = "" ∨ (parseNativeSseEvent text).2 = "" ∨
    ∃ message, runtime.loads (parseNativeSseEvent text).2 = .error (.jsonDecodeError message)

/-- A frame of upstream: its text, the event that it stands for, and whether the policy decodes it. -/
structure NativeFrame where
  text : String
  event : SseEvent
  decoded : Bool

namespace NativeFrame

/-- The text is read as the event, or not at all. -/
structure Fits (runtime : Runtime) (frame : NativeFrame) : Prop where
  read : frame.decoded = true → ReadAs runtime frame.text frame.event
  undecoded : frame.decoded = false → Undecoded runtime frame.text

/-- The text that goes out is that of the events: nothing, the frame's own, or that of new frames. -/
def Renders (runtime : Runtime) (frame : NativeFrame) (text : Option String)
    (events : Option (List SseEvent)) : Prop :=
  text = none ∧ events = none ∨ text = some frame.text ∧ events = some [frame.event] ∨
    ∃ sent, events = some sent ∧ text = some (Py.join "" (sent.map (frameText runtime)))

end NativeFrame

/-- `transform_native_sse_block_event` on a frame: one that it cannot decode is passed on. -/
def transformNativeSseFrame (frame : NativeFrame) (state : NativeSseBlockPolicyState)
    (thinkingEnabled : Bool) : Except PyError PolicyResult :=
  if frame.decoded then transformNativeSseBlockEvent frame.event state thinkingEnabled
  else .ok (some [frame.event], state)

section Frames

variable {runtime : Runtime} {thinkingEnabled : Bool} {state : NativeSseBlockPolicyState}

/-- A text that is not decoded is passed on. -/
theorem transformText_of_undecoded {text : String} (undecoded : Undecoded runtime text) :
    transformNativeSseBlockText runtime text state thinkingEnabled = .ok (some text, state) := by
  unfold transformNativeSseBlockText
  rcases read : parseNativeSseEvent text with ⟨name, dataText⟩
  rw [Undecoded, read] at undecoded
  dsimp only at undecoded ⊢
  by_cases missing : name.getD "" = "" ∨ dataText = ""
  · rw [if_pos missing]
  · obtain ⟨message, broken⟩ :=
      (undecoded.resolve_left fun none => missing (.inl none)).resolve_left fun none =>
        missing (.inr none)
    rw [if_neg missing, broken]

/-- **On the text of a frame the policy does what it does on the frame.** -/
theorem rendered_frame {frame : NativeFrame} (fits : frame.Fits runtime) :
    ∃ text events state',
      transformNativeSseBlockText runtime frame.text state thinkingEnabled = .ok (text, state') ∧
      transformNativeSseFrame frame state thinkingEnabled = .ok (events, state') ∧
      frame.Renders runtime text events := by
  unfold transformNativeSseFrame
  split_ifs with decoded
  · obtain ⟨name, dataText, payload, named, some, parsed, loaded, isEvent⟩ := fits.read decoded
    obtain ⟨⟨text, state'⟩, ⟨events, -⟩, ran, answer, rfl, renders⟩ :=
      @rendered_transform runtime frame.text name payload state thinkingEnabled named _ some parsed
        loaded
    rw [isEvent]
    refine ⟨text, events, _, ran, answer, ?_⟩
    rw [← isEvent] at renders
    rcases renders with dropped | passed | ⟨before, index, sent, rewritten⟩
    · exact .inl dropped
    · exact .inr (.inl passed)
    · exact .inr (.inr ⟨_, sent, rewritten⟩)
  · have undecoded := fits.undecoded (Bool.eq_false_iff.mpr decoded)
    exact ⟨_, _, _, transformText_of_undecoded undecoded, rfl, .inr (.inl ⟨rfl, rfl⟩)⟩

end Frames

/-! ### Whole streams -/

/-- The texts of a whole stream, and the state they leave. -/
def transformNativeSseTexts (runtime : Runtime) (thinkingEnabled : Bool) :
    NativeSseBlockPolicyState → List String →
      Except PyError (List (Option String) × NativeSseBlockPolicyState)
  | state, [] => .ok ([], state)
  | state, text :: rest =>
    match transformNativeSseBlockText runtime text state thinkingEnabled with
    | .error error => .error error
    | .ok (answer, state) =>
      match transformNativeSseTexts runtime thinkingEnabled state rest with
      | .error error => .error error
      | .ok (later, state) => .ok (answer :: later, state)

/-- The same of the frames. -/
def transformNativeSseFrames (thinkingEnabled : Bool) :
    NativeSseBlockPolicyState → List NativeFrame →
      Except PyError (List (Option (List SseEvent)) × NativeSseBlockPolicyState)
  | state, [] => .ok ([], state)
  | state, frame :: rest =>
    match transformNativeSseFrame frame state thinkingEnabled with
    | .error error => .error error
    | .ok (answer, state) =>
      match transformNativeSseFrames thinkingEnabled state rest with
      | .error error => .error error
      | .ok (later, state) => .ok (answer :: later, state)

/-- The events of all answers. -/
def sentEvents (answers : List (Option (List SseEvent))) : List SseEvent :=
  answers.flatMap fun answer => answer.getD []

/-- Answer by answer, the texts are those of the events. -/
inductive RendersAll (runtime : Runtime) :
    List NativeFrame → List (Option String) → List (Option (List SseEvent)) → Prop
  | nil : RendersAll runtime [] [] []
  | cons {frame : NativeFrame} {frames : List NativeFrame} {text : Option String}
      {texts : List (Option String)} {events : Option (List SseEvent)}
      {answers : List (Option (List SseEvent))} (first : frame.Renders runtime text events)
      (rest : RendersAll runtime frames texts answers) :
      RendersAll runtime (frame :: frames) (text :: texts) (events :: answers)

/-- **The answer to a stream of texts**: the texts that go out are those of these events. -/
def Answered (runtime : Runtime) (thinkingEnabled : Bool) (frames : List NativeFrame)
    (out : List SseEvent) : Prop :=
  ∃ texts answers state,
    transformNativeSseTexts runtime thinkingEnabled {} (frames.map NativeFrame.text) =
      .ok (texts, state) ∧
    transformNativeSseFrames thinkingEnabled {} frames = .ok (answers, state) ∧
    RendersAll runtime frames texts answers ∧ sentEvents answers = out

section Streams

variable {runtime : Runtime} {thinkingEnabled : Bool} {state : NativeSseBlockPolicyState}
  {frames : List NativeFrame}

/-- On frames the policy always answers. -/
theorem texts_of_frames (fits : ∀ frame ∈ frames, frame.Fits runtime) :
    ∃ texts answers state',
      transformNativeSseTexts runtime thinkingEnabled state (frames.map NativeFrame.text) =
        .ok (texts, state') ∧
      transformNativeSseFrames thinkingEnabled state frames = .ok (answers, state') ∧
      RendersAll runtime frames texts answers := by
  induction frames generalizing state with
  | nil => exact ⟨[], [], state, rfl, rfl, .nil⟩
  | cons frame rest ih =>
    obtain ⟨text, events, middle, ranText, ranFrame, renders⟩ :=
      @rendered_frame runtime thinkingEnabled state frame (fits frame List.mem_cons_self)
    obtain ⟨texts, answers, last, ranTexts, ranFrames, rendersRest⟩ :=
      @ih middle fun other inside => fits other (List.mem_cons_of_mem _ inside)
    refine ⟨text :: texts, events :: answers, last, ?_, ?_, .cons renders rendersRest⟩
    · rw [List.map_cons, transformNativeSseTexts, ranText]
      dsimp only
      rw [ranTexts]
    · rw [transformNativeSseFrames, ranFrame]
      dsimp only
      rw [ranFrames]

theorem answered_of_frames (fits : ∀ frame ∈ frames, frame.Fits runtime)
    {answers : List (Option (List SseEvent))} {last : NativeSseBlockPolicyState}
    (ran : transformNativeSseFrames thinkingEnabled {} frames = .ok (answers, last)) :
    Answered runtime thinkingEnabled frames (sentEvents answers) := by
  obtain ⟨texts, others, state', ranTexts, ranFrames, renders⟩ :=
    @texts_of_frames runtime thinkingEnabled {} frames fits
  obtain ⟨rfl, rfl⟩ := Prod.mk.inj (Except.ok.inj (ran.symm.trans ranFrames))
  exact ⟨texts, answers, last, ranTexts, ran, renders, rfl⟩

/-- A stream whose block events are decoded, with the answers apart. -/
theorem frames_of_stream (decoded : ∀ frame ∈ frames, frame.event.isBlockEvent = true → frame.decoded = true)
    {out : List SseEvent} {last : NativeSseBlockPolicyState}
    (ran : transformNativeSseStream thinkingEnabled state (frames.map NativeFrame.event) =
      .ok (out, last)) :
    ∃ answers, transformNativeSseFrames thinkingEnabled state frames = .ok (answers, last) ∧
      sentEvents answers = out := by
  induction frames generalizing state out with
  | nil =>
    obtain ⟨rfl, rfl⟩ := Prod.mk.inj (Except.ok.inj ran)
    exact ⟨[], rfl, rfl⟩
  | cons frame rest ih =>
    have same : transformNativeSseFrame frame state thinkingEnabled =
        transformNativeSseBlockEvent frame.event state thinkingEnabled := by
      unfold transformNativeSseFrame
      split_ifs with isDecoded
      · rfl
      · refine (transform_other ?_).symm
        exact Bool.eq_false_iff.mpr fun block => isDecoded (decoded frame List.mem_cons_self block)
    rw [List.map_cons, transformNativeSseStream, ← same] at ran
    split at ran
    · exact nomatch ran
    · rename_i answer middle ranFrame
      split at ran
      · exact nomatch ran
      · rename_i later last' ranRest
        obtain ⟨rfl, rfl⟩ := Prod.mk.inj (Except.ok.inj ran)
        obtain ⟨answers, ranFrames, sent⟩ :=
          ih (fun other inside => decoded other (List.mem_cons_of_mem _ inside)) ranRest
        refine ⟨answer :: answers, ?_, ?_⟩
        · rw [transformNativeSseFrames, ranFrame]
          dsimp only
          rw [ranFrames]
        · rw [← sent]
          rfl

/-- **The answer to a stream of frames whose block events are decoded** is the answer to its events. -/
theorem answered_of_stream (fits : ∀ frame ∈ frames, frame.Fits runtime)
    (decoded : ∀ frame ∈ frames, frame.event.isBlockEvent = true → frame.decoded = true)
    {out : List SseEvent} {last : NativeSseBlockPolicyState}
    (ran : transformNativeSseStream thinkingEnabled {} (frames.map NativeFrame.event) =
      .ok (out, last)) : Answered runtime thinkingEnabled frames out := by
  obtain ⟨answers, ranFrames, sent⟩ := frames_of_stream decoded ran
  exact sent ▸ answered_of_frames fits ranFrames

end Streams

/-! ### Which frames are decoded -/

/-- A frame as a server writes it: the name, and the data on one line. -/
def writtenFrame (name dataText : String) (payload : List (String × Json)) : NativeFrame where
  text := "event: " ++ name ++ "\ndata: " ++ dataText ++ "\n\n"
  event := formatSseEvent name payload
  decoded := parseNativeSseEvent ("event: " ++ name ++ "\ndata: " ++ dataText ++ "\n\n") =
    (some name, dataText)

/-- The text has no line boundary of `str.splitlines`. -/
def OneLine (text : String) : Prop := ∀ char ∈ text.toList, Py.isLineBreak char = false

/-- A line of data is a part of a line. -/
theorem readNativeLine_plain {read : Option String × List String} {line : String} (plain : OneLine line)
    (before : ∀ data ∈ read.2, OneLine data) : ∀ data ∈ (readNativeLine read line).2, OneLine data := by
  unfold readNativeLine
  split_ifs
  · exact before
  · intro data member
    rcases List.mem_append.mp member with earlier | here
    · exact before data earlier
    · rw [List.mem_singleton.mp here]
      intro char inside
      rw [Py.lstrip, String.toList_ofList, Py.drop, String.toList_ofList] at inside
      exact plain char (List.mem_of_mem_drop ((List.dropWhile_suffix _).subset inside))
  · exact before

theorem foldl_readNativeLine_plain {lines : List String} (plain : ∀ line ∈ lines, OneLine line)
    {read : Option String × List String} (before : ∀ data ∈ read.2, OneLine data) :
    ∀ data ∈ (lines.foldl readNativeLine read).2, OneLine data := by
  induction lines generalizing read with
  | nil => exact before
  | cons line lines ih =>
    exact ih (fun other inside => plain other (List.mem_cons_of_mem _ inside))
      (readNativeLine_plain (plain line List.mem_cons_self) before)

/-- Lines, joined by line feeds. -/
theorem plain_join {lines : List String} (plain : ∀ line ∈ lines, OneLine line) :
    ∀ char ∈ (Py.join "\n" lines).toList, char = '\n' ∨ Py.isLineBreak char = false := by
  induction lines with
  | nil => exact fun _ none => absurd none List.not_mem_nil
  | cons line lines ih =>
    intro char inside
    cases lines with
    | nil =>
      rw [Py.join_singleton] at inside
      exact .inr (plain line List.mem_cons_self char inside)
    | cons second others =>
      rw [Py.join, String.intercalate_cons_cons, String.toList_append, String.toList_append,
        List.mem_append, List.mem_append] at inside
      rcases inside with (here | between) | later
      · exact .inr (plain line List.mem_cons_self char here)
      · exact .inl (List.mem_singleton.mp between)
      · exact ih (fun other member => plain other (List.mem_cons_of_mem _ member)) char later

theorem parseNativeSseEvent_data (text : String) : (parseNativeSseEvent text).2 =
    Py.join "\n" ((Py.splitlines (Py.strip text)).foldl readNativeLine (none, [])).2 := by
  unfold parseNativeSseEvent
  dsimp only

/-- What the reader finds as data has no line boundary but the line feeds between its lines. -/
theorem plain_data (text : String) :
    ∀ char ∈ (parseNativeSseEvent text).2.toList, char = '\n' ∨ Py.isLineBreak char = false := by
  have lines : ∀ line ∈ Py.splitlines (Py.strip text), OneLine line := by
    intro line member char isChar
    obtain ⟨chars, inside, rfl⟩ := List.mem_map.mp member
    rw [String.toList_ofList] at isChar
    exact Py.plain_of_mem_linesFrom (by simp) inside char isChar
  rw [parseNativeSseEvent_data]
  exact plain_join (foldl_readNativeLine_plain lines fun _ none => absurd none List.not_mem_nil)

/-- Data on one line is read back. -/
theorem parse_written {name dataText : String} (named : name ∈ anthropicEventNames)
    (object : OneLineObject dataText) (plain : OneLine dataText) :
    parseNativeSseEvent ("event: " ++ name ++ "\ndata: " ++ dataText ++ "\n\n") =
      (some name, dataText) := by
  obtain ⟨⟨inner, braces⟩, -⟩ := id object
  have alone : Py.splitlines dataText = [dataText] := by
    rw [Py.splitlines, Py.linesFrom_last plain (by rw [braces]; simp)]
    simp
  have format : formatNativeSseEvent (some name) dataText =
      "event: " ++ name ++ "\ndata: " ++ dataText ++ "\n\n" := by
    rw [formatNativeSseEvent, alone, if_neg (name_read named).1, List.map_singleton]
    show Py.join "\n" ["event: " ++ name, "data: " ++ dataText] ++ "\n\n" = _
    rw [Py.join, String.intercalate_cons_cons, String.intercalate_singleton]
    apply String.toList_injective
    simp
  rw [← format]
  exact ((reframes_iff named object).mpr plain).1

/-- **A written frame is decoded** exactly when no character of its data is a line boundary of
`str.splitlines`. -/
theorem writtenFrame_decoded_iff {name dataText : String} (payload : List (String × Json))
    (named : name ∈ anthropicEventNames) (object : OneLineObject dataText) :
    (writtenFrame name dataText payload).decoded = true ↔ OneLine dataText := by
  unfold writtenFrame
  rw [decide_eq_true_eq]
  constructor
  · intro parsed char inside
    have plain := plain_data ("event: " ++ name ++ "\ndata: " ++ dataText ++ "\n\n") char
    rw [parsed] at plain
    refine (plain inside).resolve_left ?_
    rintro rfl
    exact object.2.1 inside
  · exact parse_written named object

/-- The text of an object is one line between its braces. -/
theorem oneLine_of_printable {fields : List (String × Json)}
    (printable : Json.isPrintable (.obj fields) = true) :
    OneLine (String.ofList (Json.dumps (.obj fields))) ∧
      OneLineObject (String.ofList (Json.dumps (.obj fields))) := by
  have plain : ∀ char ∈ Json.dumps (.obj fields), Json.isPlain char = true :=
    Json.plain_dumps _ printable
  unfold OneLine OneLineObject
  rw [String.toList_ofList]
  refine ⟨fun char member => ?_, Json.dumps_obj fields, fun member => ?_, fun member => ?_⟩
  · have ascii := plain char member
    simp only [Json.isPlain, Bool.and_eq_true, decide_eq_true_eq] at ascii
    unfold Py.isLineBreak
    simp only [Bool.or_eq_false_iff, Bool.and_eq_false_iff, decide_eq_false_iff_not, beq_eq_false_iff_ne]
    omega
  · exact absurd (plain _ member) (by decide)
  · exact absurd (plain _ member) (by decide)

/-! ### Samples -/

/-- An event as a server writes it: with the data of `json.dumps`, or with data of its own that the
policy cannot decode. -/
structure NativeSample where
  event : SseEvent
  own : Option String := none

namespace NativeSample

def dataText (sample : NativeSample) : String :=
  sample.own.getD (String.ofList (Json.dumps (.obj sample.event.fields)))

def frame (sample : NativeSample) : NativeFrame where
  text := "event: " ++ sample.event.event ++ "\ndata: " ++ sample.dataText ++ "\n\n"
  event := formatSseEvent sample.event.event sample.event.fields
  decoded := sample.own.isNone

/-- A decoder of the data of these samples, with the writer of `json.dumps`. -/
def runtime (samples : List NativeSample) : Runtime where
  loads text :=
    match samples.find? fun sample => sample.dataText = text with
    | some sample => .ok (.obj sample.event.fields)
    | none => .error (.jsonDecodeError "Expecting value")
  dumps value := String.ofList (Json.dumps value)
  checkSchema _ _ := .valid

/-- The event can be written, and what is found of data of its own is no sample's. -/
def isSound (samples : List NativeSample) (sample : NativeSample) : Bool :=
  sample.event.event ∈ anthropicEventNames && Json.isPrintable (.obj sample.event.fields) &&
    sample.own.all fun text => (text.toList.any Py.isLineBreak) &&
      (samples.find? fun other =>
        other.dataText = (parseNativeSseEvent sample.frame.text).2).isNone

section Sound

variable {samples : List NativeSample} {sample : NativeSample}
  (sound : ∀ each ∈ samples, isSound samples each = true) (member : sample ∈ samples)
include sound member

theorem printable_of_sound : Json.isPrintable (.obj sample.event.fields) = true := by
  have checks := sound sample member
  unfold isSound at checks
  rw [Bool.and_eq_true, Bool.and_eq_true] at checks
  exact checks.1.2

/-- Two samples with the text of `json.dumps` for data are of the same fields. -/
theorem loads_dataText (written : sample.own = none) :
    (runtime samples).loads sample.dataText = .ok (.obj sample.event.fields) := by
  have text : sample.dataText = String.ofList (Json.dumps (.obj sample.event.fields)) := by
    rw [dataText, written]
    rfl
  unfold runtime
  dsimp only
  cases found : samples.find? fun other => other.dataText = sample.dataText with
  | none =>
    have all := List.find?_eq_none.mp found sample member
    exact absurd (decide_eq_true rfl) all
  | some other =>
    have same : other.dataText = sample.dataText := by simpa using List.find?_some found
    have inside := List.mem_of_find?_eq_some found
    have checks := sound other inside
    unfold isSound at checks
    rw [Bool.and_eq_true] at checks
    rw [text] at same
    cases own : other.own with
    | some data =>
      -- its data has a line boundary
      rw [dataText, own, Option.getD_some] at same
      have apart := checks.2
      rw [own, Option.all_some, Bool.and_eq_true, List.any_eq_true] at apart
      obtain ⟨⟨char, isChar, breaks⟩, -⟩ := apart
      have plain := (oneLine_of_printable (printable_of_sound sound member)).1 char (same ▸ isChar)
      rw [breaks] at plain
      cases plain
    | none =>
      rw [dataText, own, Option.getD_none] at same
      have chars := String.ofList_injective same
      have ends : Json.Ends [] := nofun
      have values := Json.dumps_inj _ _ (printable_of_sound sound inside)
        (printable_of_sound sound member) ends ends (congrArg (· ++ []) chars)
      dsimp only
      rw [values.1]

theorem readAs_of_sound (written : sample.own = none) :
    ReadAs (runtime samples) sample.frame.text sample.frame.event := by
  have checks := sound sample member
  unfold isSound at checks
  rw [Bool.and_eq_true, Bool.and_eq_true, decide_eq_true_eq] at checks
  obtain ⟨⟨named, printable⟩, -⟩ := checks
  have text : sample.dataText = String.ofList (Json.dumps (.obj sample.event.fields)) := by
    rw [dataText, written]
    rfl
  obtain ⟨plain, object⟩ := oneLine_of_printable printable
  rw [← text] at plain object
  refine ⟨sample.event.event, sample.dataText, sample.event.fields, (name_read named).1, ?_,
    parse_written named object plain, loads_dataText sound member written, rfl⟩
  intro empty
  obtain ⟨⟨inner, braces⟩, -⟩ := object
  rw [empty, String.toList_empty] at braces
  cases braces

theorem undecoded_of_sound {text : String} (own : sample.own = some text) :
    Undecoded (runtime samples) sample.frame.text := by
  have checks := sound sample member
  unfold isSound at checks
  rw [Bool.and_eq_true] at checks
  have apart := checks.2
  rw [own, Option.all_some, Bool.and_eq_true, Option.isNone_iff_eq_none] at apart
  have broken : (runtime samples).loads (parseNativeSseEvent sample.frame.text).2 =
      .error (.jsonDecodeError "Expecting value") := by
    unfold runtime
    dsimp only
    rw [apart.2]
  exact .inr (.inr ⟨_, broken⟩)

theorem fits_of_sound : sample.frame.Fits (runtime samples) where
  read decoded := readAs_of_sound sound member (Option.isNone_iff_eq_none.mp decoded)
  undecoded missed := by
    obtain ⟨text, own⟩ := Option.isSome_iff_exists.mp (Option.isNone_eq_false_iff.mp missed)
    exact undecoded_of_sound sound member own

end Sound

theorem fits {samples : List NativeSample} (sound : samples.all (isSound samples) = true) :
    ∀ each ∈ samples.map frame, each.Fits (runtime samples) := by
  intro each member
  obtain ⟨sample, inside, rfl⟩ := List.mem_map.mp member
  exact fits_of_sound (List.all_eq_true.mp sound) inside

end NativeSample

end ClaudeProxy
