/-
**The text of server-sent events, and its two readers.**

`format_sse_event` writes an event as a frame of text. `EmittedNativeSseTracker.feed` reads frames out
of a text that arrives in chunks; `parse_sse_text` (`core/anthropic/stream_contracts.py`) reads a whole
text by its lines.

* `parseSseLines_frame`, `parseSseLines_text` — the lines of frames are read as their events;
* `foldlM_feed` — the chunks do not matter to the first reader;
* **`framing_chunk_independent`** — both readers recover the events that were written.
-/

import ClaudeProxy.Library.Framing
import ClaudeProxy.Library.JsonText
import ClaudeProxy.Sse.EmittedTracker

namespace ClaudeProxy

/-! ### The writer -/

/-- An event to be written: its name and the members of its data. -/
structure SsePayload where
  event : String
  data : List (String × Json)

namespace SsePayload

/-- The line that names the event. -/
def eventLine (payload : SsePayload) : String := "event: " ++ payload.event

/-- `json.dumps(data)`. -/
def dataText (payload : SsePayload) : String := String.ofList (Json.dumps (.obj payload.data))

/-- The line of the data. -/
def dataLine (payload : SsePayload) : String := "data: " ++ payload.dataText

/-- The frame without the blank line behind it. -/
def raw (payload : SsePayload) : String := payload.eventLine ++ "\n" ++ payload.dataLine

/-- `format_sse_event`. -/
def text (payload : SsePayload) : String := payload.raw ++ "\n\n"

/-- The event that is read of it. -/
def toSseEvent (payload : SsePayload) : SseEvent := formatSseEvent payload.event payload.data

end SsePayload

/-! ### The readers -/

section Readers

variable (loads : String → Except PyError Json)

/-- `SSEEvent`. -/
structure ParsedSseEvent where
  event : String
  data : List (String × Json)
  raw : String
  deriving DecidableEq

/-- What `parse_sse_lines` has collected of an event. -/
structure PendingSseEvent where
  currentEvent : String := ""
  dataParts : List String := []
  rawParts : List String := []

/-- The data of an event: an object, or a value or a text under a name for it. -/
def parsedData (dataText : String) : Except PyError (List (String × Json)) :=
  if dataText = "" then .ok []
  else
    match loads dataText with
    | .ok (.obj fields) => .ok fields
    | .ok value => .ok [("value", value)]
    | .error (.jsonDecodeError _) => .ok [("raw", .str dataText)]
    | .error error => .error error

/-- `_append_event`. -/
def appendEvent (pending : PendingSseEvent) : Except PyError (List ParsedSseEvent) :=
  if pending.currentEvent = "" ∧ pending.dataParts = [] then .ok []
  else
    (parsedData loads (Py.join "\n" pending.dataParts)).map fun data =>
      [⟨pending.currentEvent, data, Py.join "\n" pending.rawParts⟩]

/-- A line that is not blank. -/
def PendingSseEvent.addLine (pending : PendingSseEvent) (stripped : String) : PendingSseEvent :=
  let pending := { pending with rawParts := pending.rawParts ++ [stripped] }
  if Py.startsWith stripped "event:" then
    { pending with currentEvent := Py.strip (Py.behind ':' stripped) }
  else if Py.startsWith stripped "data:" then
    { pending with dataParts := pending.dataParts ++ [Py.strip (Py.behind ':' stripped)] }
  else pending

/-- The loop of `parse_sse_lines`. -/
def parseSseLinesFrom (pending : PendingSseEvent) :
    List String → Except PyError (List ParsedSseEvent)
  | [] => appendEvent loads pending
  | line :: lines =>
    let stripped := Py.rstripOf ['\r', '\n'] line
    if stripped = "" then do
      let events ← appendEvent loads pending
      let later ← parseSseLinesFrom {} lines
      .ok (events ++ later)
    else parseSseLinesFrom (pending.addLine stripped) lines

/-- `parse_sse_lines`. -/
def parseSseLines (lines : List String) : Except PyError (List ParsedSseEvent) :=
  parseSseLinesFrom loads {} lines

/-- `parse_sse_text`. -/
def parseSseText (text : String) : Except PyError (List ParsedSseEvent) :=
  parseSseLines loads (Py.splitlines text)

/-- The tracker with its `_buf`. -/
structure FedTracker where
  buf : String := ""
  tracker : EmittedNativeSseTracker := {}

/-- The separator of frames. -/
def blankLine : List Char := ['\n', '\n']

/-- One frame of `feed`. -/
def observeFrame (tracker : EmittedNativeSseTracker) (frame : List Char) :
    Except PyError EmittedNativeSseTracker :=
  if Py.strip (String.ofList frame) = "" then .ok tracker
  else
    (parseSseLines loads (Py.splitlines (String.ofList frame))).map fun events =>
      tracker.observeAll (events.map fun event => formatSseEvent event.event event.data)

/-- `feed`: the frames that the chunk completes, one after another. -/
def feed (state : FedTracker) (chunk : String) : Except PyError FedTracker :=
  let drained := Framing.drain (Framing.cut blankLine) (state.buf ++ chunk).toList
  (drained.1.foldlM (observeFrame loads) state.tracker).map fun tracker =>
    ⟨String.ofList drained.2, tracker⟩

end Readers

/-! ### What is written -/

/-- The names of the events of an Anthropic stream. -/
def anthropicEventNames : List String :=
  ["message_start", "content_block_start", "content_block_delta", "content_block_stop",
    "message_delta", "message_stop", "ping", "error"]

namespace SsePayload

variable {payload : SsePayload}

/-- An Anthropic event whose data is read back. -/
structure Writable (loads : String → Except PyError Json) (payload : SsePayload) : Prop where
  named : payload.event ∈ anthropicEventNames
  printable : Json.isPrintable (.obj payload.data) = true
  readsBack : loads payload.dataText = .ok (.obj payload.data)

/-- The event as `parse_sse_lines` returns it. -/
def parsed (payload : SsePayload) : ParsedSseEvent := ⟨payload.event, payload.data, payload.raw⟩

/-- What the readers make of the line of a name. -/
theorem eventLine_read (named : payload.event ∈ anthropicEventNames) :
    Py.rstripOf ['\r', '\n'] payload.eventLine = payload.eventLine ∧
      Py.startsWith payload.eventLine "event:" = true ∧
      Py.strip (Py.behind ':' payload.eventLine) = payload.event ∧
      ∀ char ∈ payload.eventLine.toList, Py.isLineBreak char = false := by
  have all : ∀ name ∈ anthropicEventNames,
      Py.rstripOf ['\r', '\n'] ("event: " ++ name) = "event: " ++ name ∧
        Py.startsWith ("event: " ++ name) "event:" = true ∧
        Py.strip (Py.behind ':' ("event: " ++ name)) = name ∧
        ("event: " ++ name).toList.Forall (Py.isLineBreak · = false) := by
    decide +kernel
  obtain ⟨stripped, isEvent, isName, plain⟩ := all _ named
  exact ⟨stripped, isEvent, isName, List.forall_iff_forall_mem.mp plain⟩

theorem event_ne_empty (named : payload.event ∈ anthropicEventNames) : payload.event ≠ "" := by
  have all : ∀ name ∈ anthropicEventNames, name ≠ "" := by decide
  exact all _ named

/-- Printable text has no line breaks. -/
theorem isLineBreak_of_plain {char : Char} (plain : Json.isPlain char = true) :
    Py.isLineBreak char = false := by
  simp only [Json.isPlain, Bool.and_eq_true, decide_eq_true_eq] at plain
  simp only [Py.isLineBreak, Bool.or_eq_false_iff, Bool.and_eq_false_iff, decide_eq_false_iff_not,
    beq_eq_false_iff_ne]
  omega

theorem dataText_braces (payload : SsePayload) :
    ∃ inner, payload.dataText = String.ofList ('\x7b' :: (inner ++ ['\x7d'])) := by
  obtain ⟨inner, same⟩ := Json.dumps_obj payload.data
  exact ⟨inner, congrArg String.ofList same⟩

/-- What they make of the line of the data. -/
theorem dataLine_read (printable : Json.isPrintable (.obj payload.data) = true) :
    Py.rstripOf ['\r', '\n'] payload.dataLine = payload.dataLine ∧
      Py.startsWith payload.dataLine "event:" = false ∧
      Py.startsWith payload.dataLine "data:" = true ∧
      Py.strip (Py.behind ':' payload.dataLine) = payload.dataText ∧
      ∀ char ∈ payload.dataLine.toList, Py.isLineBreak char = false := by
  obtain ⟨inner, braces⟩ := payload.dataText_braces
  have chars : payload.dataLine.toList = "data: ".toList ++ ('\x7b' :: (inner ++ ['\x7d'])) := by
    rw [dataLine, braces, String.toList_append]
    exact congrArg _ String.toList_ofList
  refine ⟨?_, ?_, ?_, ?_, fun char member => ?_⟩
  · apply String.toList_injective
    rw [Py.rstripOf, String.toList_ofList, chars]
    simp
  · rw [Py.startsWith, chars]
    exact decide_eq_false (by simp)
  · rw [Py.startsWith, chars]
    exact decide_eq_true (by simp)
  · have text : Py.behind ':' payload.dataLine = " " ++ payload.dataText := by
      apply String.toList_injective
      rw [Py.behind, String.toList_ofList, chars, braces, String.toList_append,
        String.toList_ofList]
      simp
    rw [text, Py.strip_append_of_blank (by decide), braces,
      Py.strip_of_visible (by decide) (by decide)]
  · rw [dataLine, String.toList_append, List.mem_append] at member
    rcases member with label | inside
    · have all : ∀ char ∈ "data: ".toList, Py.isLineBreak char = false :=
          List.forall_iff_forall_mem.mp (by decide)
      exact all char label
    · rw [dataText, String.toList_ofList] at inside
      exact isLineBreak_of_plain (Json.plain_dumps _ printable char inside)

end SsePayload

/-! ### What is read -/

section Read

variable {loads : String → Except PyError Json} {payload : SsePayload}

/-- A written event behind its two lines. -/
theorem appendEvent_written (writable : payload.Writable loads) :
    appendEvent loads (({} : PendingSseEvent).addLine payload.eventLine |>.addLine payload.dataLine) =
      .ok [payload.parsed] := by
  obtain ⟨-, isEvent, name, -⟩ := SsePayload.eventLine_read writable.named
  obtain ⟨-, notEvent, isData, text, -⟩ := SsePayload.dataLine_read writable.printable
  have pending : (({} : PendingSseEvent).addLine payload.eventLine).addLine payload.dataLine =
      ⟨payload.event, [payload.dataText], [payload.eventLine, payload.dataLine]⟩ := by
    simp [PendingSseEvent.addLine, isEvent, notEvent, isData, name, text]
  obtain ⟨inner, braces⟩ := payload.dataText_braces
  have some : payload.dataText ≠ "" := by
    rw [braces]
    simp [← String.toList_inj]
  have data : parsedData loads (Py.join "\n" [payload.dataText]) = .ok payload.data := by
    rw [Py.join_singleton, parsedData, if_neg some, writable.readsBack]
  rw [pending, appendEvent, if_neg (fun empty => SsePayload.event_ne_empty writable.named empty.1),
    data]
  rfl

/-- The lines of one written event, and what is read of the lines behind it. -/
theorem parseSseLinesFrom_written (writable : payload.Writable loads) (lines : List String) :
    parseSseLinesFrom loads {} (payload.eventLine :: payload.dataLine :: lines) =
      parseSseLinesFrom loads
        (({} : PendingSseEvent).addLine payload.eventLine |>.addLine payload.dataLine) lines := by
  obtain ⟨keepsEvent, isEvent, -, -⟩ := SsePayload.eventLine_read writable.named
  obtain ⟨keepsData, -, isData, -, -⟩ := SsePayload.dataLine_read writable.printable
  have someEvent : payload.eventLine ≠ "" := by
    intro empty
    rw [empty] at isEvent
    exact absurd isEvent (by decide)
  have someData : payload.dataLine ≠ "" := by
    intro empty
    rw [empty] at isData
    exact absurd isData (by decide)
  rw [parseSseLinesFrom, keepsEvent, if_neg someEvent, parseSseLinesFrom, keepsData, if_neg someData]

/-- **The lines of a frame** are its event. -/
theorem parseSseLines_frame (writable : payload.Writable loads) :
    parseSseLines loads [payload.eventLine, payload.dataLine] = .ok [payload.parsed] := by
  rw [parseSseLines, parseSseLinesFrom_written writable, parseSseLinesFrom,
    appendEvent_written writable]

/-- **The lines of a text** of frames, each with the blank line behind it. -/
theorem parseSseLines_text {payloads : List SsePayload}
    (writable : ∀ payload ∈ payloads, payload.Writable loads) :
    parseSseLines loads (payloads.flatMap fun payload =>
      [payload.eventLine, payload.dataLine, ""]) = .ok (payloads.map SsePayload.parsed) := by
  induction payloads with
  | nil => rfl
  | cons payload payloads ih =>
    have first := writable payload List.mem_cons_self
    have rest := ih fun other inside => writable other (List.mem_cons_of_mem _ inside)
    have blank : Py.rstripOf ['\r', '\n'] "" = "" := by decide
    rw [parseSseLines] at rest
    rw [List.flatMap_cons, List.cons_append, List.cons_append, parseSseLines,
      parseSseLinesFrom_written first, List.singleton_append, parseSseLinesFrom, blank,
      if_pos rfl, appendEvent_written first, rest]
    rfl

theorem raw_chars (payload : SsePayload) :
    payload.raw.toList = payload.eventLine.toList ++ '\n' :: payload.dataLine.toList := by
  rw [SsePayload.raw, String.toList_append, String.toList_append, List.append_assoc]
  rfl

theorem text_chars (payload : SsePayload) : payload.text.toList = payload.raw.toList ++ blankLine := by
  rw [SsePayload.text, String.toList_append]
  rfl

/-- The lines of a frame. -/
theorem splitlines_raw (writable : payload.Writable loads) :
    Py.splitlines (String.ofList payload.raw.toList) = [payload.eventLine, payload.dataLine] := by
  obtain ⟨-, -, -, plainEvent⟩ := SsePayload.eventLine_read writable.named
  obtain ⟨-, -, isData, -, plainData⟩ := SsePayload.dataLine_read writable.printable
  have some : payload.dataLine.toList ≠ [] := by
    intro empty
    rw [Py.startsWith, empty] at isData
    exact absurd isData (by decide)
  rw [Py.splitlines, String.toList_ofList, raw_chars, Py.linesFrom_append plainEvent,
    Py.linesFrom_last plainData some]
  simp

/-- The lines of a text of frames. -/
theorem splitlines_text {payloads : List SsePayload}
    (writable : ∀ payload ∈ payloads, payload.Writable loads) :
    (Py.linesFrom [] (payloads.flatMap fun payload => payload.text.toList)).map String.ofList =
      payloads.flatMap fun payload => [payload.eventLine, payload.dataLine, ""] := by
  induction payloads with
  | nil => rfl
  | cons payload payloads ih =>
    have first := writable payload List.mem_cons_self
    have rest := ih fun other inside => writable other (List.mem_cons_of_mem _ inside)
    obtain ⟨-, -, -, plainEvent⟩ := SsePayload.eventLine_read first.named
    obtain ⟨-, -, -, -, plainData⟩ := SsePayload.dataLine_read first.printable
    have chars : payload.text.toList ++ (payloads.flatMap fun payload => payload.text.toList) =
        payload.eventLine.toList ++ '\n' :: (payload.dataLine.toList ++ '\n' ::
          ([] ++ '\n' :: (payloads.flatMap fun payload => payload.text.toList))) := by
      rw [text_chars, raw_chars, blankLine]
      simp
    rw [List.flatMap_cons, chars, Py.linesFrom_append plainEvent, Py.linesFrom_append plainData,
      Py.linesFrom_append (by simp), List.map_cons, List.map_cons, List.map_cons, rest]
    simp

/-- **A whole text** is read as its events. -/
theorem parseSseText_written {payloads : List SsePayload}
    (writable : ∀ payload ∈ payloads, payload.Writable loads) {text : String}
    (written : text.toList = payloads.flatMap fun payload => payload.text.toList) :
    parseSseText loads text = .ok (payloads.map SsePayload.parsed) := by
  rw [parseSseText, Py.splitlines, written, splitlines_text writable, parseSseLines_text writable]

/-! ### Chunks -/

/-- The separator ends each frame, and does not occur before. -/
theorem cut_raw (writable : payload.Writable loads) :
    Framing.cut blankLine (payload.raw.toList ++ blankLine) = some (payload.raw.toList, []) := by
  obtain ⟨-, -, -, plainEvent⟩ := SsePayload.eventLine_read writable.named
  obtain ⟨-, -, isData, -, plainData⟩ := SsePayload.dataLine_read writable.printable
  have absentEvent : '\n' ∉ payload.eventLine.toList := fun member =>
    absurd (plainEvent _ member) (by decide)
  have absentData : '\n' ∉ payload.dataLine.toList := fun member =>
    absurd (plainData _ member) (by decide)
  have apart : ¬ blankLine <+: '\n' :: (payload.dataLine.toList ++ blankLine) := by
    intro early
    obtain ⟨rest, data⟩ := of_decide_eq_true isData
    rw [← data] at early
    simp [blankLine, List.cons_prefix_cons] at early
  have last := @Framing.cut_separator Char _ '\n' ['\n'] []
  rw [List.append_nil] at last
  rw [raw_chars, List.append_assoc, List.cons_append, blankLine,
    Framing.cut_append_of_notMem absentEvent, Framing.cut, ← blankLine, if_neg apart, blankLine,
    Framing.cut_append_of_notMem absentData, last]
  simp

/-- One frame is one event. -/
theorem observeFrame_raw (writable : payload.Writable loads) (tracker : EmittedNativeSseTracker) :
    observeFrame loads tracker payload.raw.toList = .ok (tracker.observe payload.toSseEvent) := by
  have visible : Py.strip (String.ofList payload.raw.toList) ≠ "" := by
    intro blank
    have all := Py.strip_eq_empty_iff.mp blank
    obtain ⟨-, isEvent, -, -⟩ := SsePayload.eventLine_read writable.named
    obtain ⟨rest, event⟩ := of_decide_eq_true isEvent
    rw [String.toList_ofList, raw_chars, ← event] at all
    exact absurd (all 'e' (by simp)) (by decide)
  rw [observeFrame, if_neg visible, splitlines_raw writable, parseSseLines_frame writable]
  rfl

theorem foldlM_observeFrame {payloads : List SsePayload}
    (writable : ∀ payload ∈ payloads, payload.Writable loads) (tracker : EmittedNativeSseTracker) :
    (payloads.map fun payload => payload.raw.toList).foldlM (observeFrame loads) tracker =
      .ok (tracker.observeAll (payloads.map SsePayload.toSseEvent)) := by
  induction payloads generalizing tracker with
  | nil => rfl
  | cons payload payloads ih =>
    have rest := ih (fun other inside => writable other (List.mem_cons_of_mem _ inside))
      (tracker.observe payload.toSseEvent)
    rw [List.map_cons, List.foldlM_cons, observeFrame_raw (writable payload List.mem_cons_self)]
    exact rest

/-- **The chunks do not matter**: the frames that all of them complete are observed. -/
theorem foldlM_feed (chunks : List String) {state : FedTracker}
    (waits : Framing.cut blankLine state.buf.toList = none) :
    chunks.foldlM (feed loads) state =
      ((Framing.drain (Framing.cut blankLine) (state.buf ++ Py.join "" chunks).toList).1.foldlM
        (observeFrame loads) state.tracker).map fun tracker => ⟨String.ofList
          (Framing.drain (Framing.cut blankLine) (state.buf ++ Py.join "" chunks).toList).2,
          tracker⟩ := by
  have shrinks : Framing.Shrinks (Framing.cut blankLine) := Framing.cut_shrinks (by decide)
  induction chunks generalizing state with
  | nil =>
    rw [Py.join_nil, String.append_empty, Framing.drain_of_none waits]
    simp only [String.ofList_toList]
    rfl
  | cons chunk chunks ih =>
    set first := Framing.drain (Framing.cut blankLine) (state.buf ++ chunk).toList with isFirst
    have whole : (state.buf ++ Py.join "" (chunk :: chunks)).toList =
        (state.buf ++ chunk).toList ++ (Py.join "" chunks).toList := by
      rw [← List.singleton_append, Py.join_append, Py.join_singleton, ← String.append_assoc,
        String.toList_append]
    have parts := Framing.drain_append shrinks Framing.cut_stable (state.buf ++ chunk).toList
      (Py.join "" chunks).toList
    rw [← isFirst] at parts
    have waiting : Framing.cut blankLine (String.ofList first.2).toList = none := by
      rw [String.toList_ofList, isFirst]
      exact Framing.step_drain shrinks _
    rw [List.foldlM_cons, whole, parts, List.foldlM_append]
    cases observed : first.1.foldlM (observeFrame loads) state.tracker with
    | error error =>
      have fed : feed loads state chunk = .error error := by
        rw [feed, ← isFirst, observed]
        rfl
      rw [fed]
      rfl
    | ok tracker =>
      have fed : feed loads state chunk = .ok ⟨String.ofList first.2, tracker⟩ := by
        rw [feed, ← isFirst, observed]
        rfl
      have rest := @ih ⟨String.ofList first.2, tracker⟩ waiting
      rw [String.toList_append, String.toList_ofList] at rest
      rw [fed]
      exact rest

end Read

/-- **Framing does not depend on the chunks**: the tracker ends as if it had observed the events one
after another, with nothing left in its buffer, and the reader of the whole text returns them. -/
theorem framing_chunk_independent (loads : String → Except PyError Json) (payloads : List SsePayload)
    (writable : ∀ payload ∈ payloads, payload.Writable loads) (chunks : List String)
    (split : Py.join "" chunks = Py.join "" (payloads.map SsePayload.text))
    (tracker : EmittedNativeSseTracker) :
    chunks.foldlM (feed loads) ⟨"", tracker⟩ =
        .ok ⟨"", tracker.observeAll (payloads.map SsePayload.toSseEvent)⟩ ∧
      parseSseText loads (Py.join "" (payloads.map SsePayload.text)) =
        .ok (payloads.map SsePayload.parsed) := by
  have chars : ∀ payloads : List SsePayload, (Py.join "" (payloads.map SsePayload.text)).toList =
      payloads.flatMap fun payload => payload.text.toList := by
    intro payloads
    induction payloads with
    | nil => rfl
    | cons payload payloads ih =>
      rw [List.map_cons, ← List.singleton_append, Py.join_append, Py.join_singleton,
        String.toList_append, ih, List.flatMap_cons]
  refine ⟨?_, parseSseText_written writable (chars payloads)⟩
  have frames : (payloads.flatMap fun payload => payload.text.toList) =
      (payloads.map fun payload => payload.raw.toList).flatMap fun frame => frame ++ blankLine := by
    rw [List.flatMap_map]
    exact List.flatMap_congr fun payload _ => text_chars payload
  have drained := @Framing.drain_frames Char _ blankLine (by decide)
    (payloads.map fun payload => payload.raw.toList) (by
      intro frame member
      obtain ⟨payload, inside, rfl⟩ := List.mem_map.mp member
      exact cut_raw (writable payload inside))
  rw [foldlM_feed chunks rfl, String.empty_append, split, chars, frames, drained,
    foldlM_observeFrame writable]
  rfl

/-- The last event of a message. -/
def stopPayload : SsePayload := ⟨"message_stop", [("type", .str "message_stop")]⟩

/-- Its text, cut inside the name and between the two line feeds of the separator. -/
theorem stopPayload_fed :
    ["event: mess", "age_stop\ndata: \x7b\"type\": \"message_stop\"\x7d\n", "\n"].foldlM
        (feed fun text => if text = "\x7b\"type\": \"message_stop\"\x7d" then
          .ok (.obj [("type", .str "message_stop")]) else .error (.jsonDecodeError "Expecting value"))
        ⟨"", {}⟩ =
      .ok ⟨"", { messageStopped := true }⟩ :=
  (framing_chunk_independent _ [stopPayload]
    (by
      intro payload inside
      rw [List.mem_singleton.mp inside]
      exact ⟨by decide, by decide, by decide +kernel⟩)
    _ (by decide +kernel) {}).1

end ClaudeProxy
