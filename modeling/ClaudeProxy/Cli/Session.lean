/-
**A session of the Claude CLI** (`cli/session.py`).

A task runs the CLI as a process and gives out an event for each line that the process prints.

* `handleLine` — one line: its event, behind the session's id if the line is the first that has one.
* `readStdout`, `drainStderrBounded`, `startTask` — the loops over what the two pipes give.
* `ownEvent?`, `lineError?`, `lineId?` — the event of a line by itself, the exception that it leads
  to, and its id.
* **`startTask_by_lines`** — however the pipes are cut, the task gives out the events of the lines in
  order, up to a line that raises, and the first id once, before the event that has it.
-/

import ClaudeProxy.Library.Framing
import ClaudeProxy.Messaging.CliEvents

namespace ClaudeProxy

namespace CliSession

/-! ### The process -/

/-- What the session asks of Python: `bytes.decode` with replacement and `json.loads`. -/
structure CliRuntime extends CliText where
  decode : List UInt8 → String
  loads : String → Except PyError Json

/-- A process, by what the reads of its pipes return before their end, and its exit code. -/
structure CliProcess where
  stdout : List (List UInt8)
  stderr : List (List UInt8)
  returnCode : Int

variable (runtime : CliRuntime)

/-! ### Lines -/

/-- The id of a session among these members. -/
def idIn (fields : List (String × Json)) : Option Json :=
  match Assoc.get? "session_id" fields with
  | some id => some id
  | none => Assoc.get? "sessionId" fields

/-- `_extract_session_id`. -/
def extractSessionId : Json → Json
  | .obj fields =>
    match idIn fields with
    | some id => id
    | none =>
      match ["init", "system", "result", "metadata"].findSome? fun key =>
          match Assoc.get? key fields with
          | some (.obj nested) => idIn nested
          | _ => none with
      | some id => id
      | none =>
        match Assoc.get? "conversation" fields with
        | some (.obj conversation) => (Assoc.get? "id" conversation).getD .null
        | _ => .null
  | _ => .null

/-- The type of a value, in the text of an exception. -/
def typeName : Json → String
  | .null => "NoneType"
  | .bool _ => "bool"
  | .int _ => "int"
  | .float _ => "float"
  | .str _ => "str"
  | .arr _ => "list"
  | .obj _ => "dict"

def sessionInfo (id : Json) : Json := .obj [("type", .str "session_info"), ("session_id", id)]

def rawEvent (line : String) : Json := .obj [("type", .str "raw"), ("content", .str line)]

/-- `event.get("type") == "session_info"`, of an object. -/
def isSessionInfo : Json → Bool
  | .obj fields => decide (Json.getKey fields "type" = .str "session_info")
  | _ => false

/-- The locals of `start_task`, and what it has given out. -/
structure Reading where
  sessionIdExtracted : Bool := false
  currentSessionId : Json := .null
  yielded : List Json := []
  raised : Option PyError := none

/-- An event is looked at and given out. -/
def Reading.give (reading : Reading) (event : Json) : Reading :=
  match event with
  | .obj _ =>
    { reading with
      sessionIdExtracted := reading.sessionIdExtracted || isSessionInfo event
      yielded := reading.yielded ++ [event] }
  | other =>
    { reading with
      raised := some (.attributeError ("'" ++ typeName other ++ "' object has no attribute 'get'")) }

/-- `_handle_line_gen`, with the loop over its events. -/
def Reading.handleLine (reading : Reading) (bytes : List UInt8) : Reading :=
  if reading.raised.isSome then reading
  else
    let lineStr := Py.strip (runtime.decode bytes)
    if lineStr = "" then reading
    else
      match runtime.loads lineStr with
      | .ok event =>
        let extractedId := extractSessionId event
        if reading.sessionIdExtracted = false ∧ runtime.truthy extractedId = true then
          let found := { reading with currentSessionId := extractedId }
          (found.give (sessionInfo extractedId)).give event
        else reading.give event
      | .error (.jsonDecodeError _) => reading.give (rawEvent lineStr)
      | .error other => { reading with raised := some other }

/-! ### The pipes -/

/-- The loop over the chunks of stdout. An exception ends it, and so does an empty chunk: the end. -/
def readStdout (reading : Reading) (buffer : List UInt8) : List (List UInt8) → Reading
  | [] => if buffer = [] then reading else reading.handleLine runtime buffer
  | chunk :: rest =>
    if chunk = [] then (if buffer = [] then reading else reading.handleLine runtime buffer)
    else
      let drained := Framing.drain (Framing.cut [10]) (buffer ++ chunk)
      let read := drained.1.foldl (·.handleLine runtime) reading
      if read.raised.isSome then read else readStdout read drained.2 rest

/-- `_drain_stderr_bounded`. -/
def drainStderrBounded (maxBytes : Nat) (kept : List UInt8) : List (List UInt8) → List UInt8
  | [] => kept
  | chunk :: rest =>
    if chunk = [] then kept
    else if kept.length < maxBytes then
      drainStderrBounded maxBytes (kept ++ chunk.take (maxBytes - kept.length)) rest
    else drainStderrBounded maxBytes kept rest

/-- `_MAX_STDERR_CAPTURE_BYTES`. -/
def maxStderrCaptureBytes : Nat := 256 * 1024

def exitEvent (code : Int) (stderr : Json) : Json :=
  .obj [("type", .str "exit"), ("code", .int code), ("stderr", stderr)]

def errorEvent (message : String) : Json :=
  .obj [("type", .str "error"), ("error", .obj [("message", .str message)])]

/-- What is given out behind stdout. -/
def closingEvents (stderr : List UInt8) (returnCode : Int) : List Json :=
  let stderrText := if stderr = [] then none else some (Py.strip (runtime.decode stderr))
  (match stderrText with
    | some text => if text = "" then [] else [errorEvent text]
    | none => []) ++
    [exitEvent returnCode (match stderrText with
      | some text => .str text
      | none => .null)]

/-- `start_task`, of a process that has been started. -/
def startTask (currentSessionId : Json) (process : CliProcess) : Reading :=
  let read := readStdout runtime { currentSessionId := currentSessionId } [] process.stdout
  if read.raised.isSome then read
  else
    let stderr := drainStderrBounded maxStderrCaptureBytes [] process.stderr
    { read with yielded := read.yielded ++ closingEvents runtime stderr process.returnCode }

/-! ### What is asked -/

/-- The lines of all that was printed. -/
def stdoutLines (bytes : List UInt8) : List (List UInt8) :=
  let drained := Framing.drain (Framing.cut [10]) bytes
  drained.1 ++ (if drained.2 = [] then [] else [drained.2])

/-- The event of a line by itself. -/
def ownEvent? (bytes : List UInt8) : Option Json :=
  let lineStr := Py.strip (runtime.decode bytes)
  if lineStr = "" then none
  else
    match runtime.loads lineStr with
    | .ok (.obj fields) => some (.obj fields)
    | .error (.jsonDecodeError _) => some (rawEvent lineStr)
    | _ => none

/-- The exception that a line leads to: its JSON is no object, or too deep. -/
def lineError? (bytes : List UInt8) : Option PyError :=
  let lineStr := Py.strip (runtime.decode bytes)
  if lineStr = "" then none
  else
    match runtime.loads lineStr with
    | .ok (.obj _) => none
    | .ok other => some (.attributeError ("'" ++ typeName other ++ "' object has no attribute 'get'"))
    | .error (.jsonDecodeError _) => none
    | .error other => some other

/-- The id that a line has. -/
def lineId? (bytes : List UInt8) : Option Json :=
  let lineStr := Py.strip (runtime.decode bytes)
  if lineStr = "" then none
  else
    match runtime.loads lineStr with
    | .ok event => some (extractSessionId event) |>.filter fun id => runtime.truthy id
    | .error _ => none

/-- The lines before the first one that raises. -/
def readable (lines : List (List UInt8)) : List (List UInt8) :=
  lines.takeWhile fun line => (lineError? runtime line).isNone

/-- The line settles whether an id is announced: it has one, or its event is an announcement. -/
def settles (bytes : List UInt8) : Bool :=
  (lineId? runtime bytes).isSome || (ownEvent? runtime bytes).any isSessionInfo

/-- The lines before the one that settles the id. -/
def unsettled (lines : List (List UInt8)) : List (List UInt8) :=
  lines.takeWhile fun line => !settles runtime line

/-- That line, and those behind it. -/
def settled (lines : List (List UInt8)) : List (List UInt8) :=
  lines.dropWhile fun line => !settles runtime line

/-- The id that is announced. -/
def announced? (lines : List (List UInt8)) : Option Json :=
  (settled runtime lines).head?.bind (lineId? runtime)

/-! ### The loops -/

section Loops

variable {runtime}

/-- Behind an exception nothing is read. -/
theorem foldl_handleLine_of_raised {reading : Reading} (raised : reading.raised.isSome = true)
    (lines : List (List UInt8)) : lines.foldl (·.handleLine runtime) reading = reading := by
  induction lines with
  | nil => rfl
  | cons line lines ih =>
    have same : reading.handleLine runtime line = reading := by
      rw [Reading.handleLine, if_pos raised]
    rw [List.foldl_cons, same, ih]

/-- **The chunks of stdout do not matter**: its lines are handled one after another. -/
theorem readStdout_eq {chunks : List (List UInt8)} (full : ∀ chunk ∈ chunks, chunk ≠ [])
    (reading : Reading) {buffer : List UInt8} (waits : Framing.cut [10] buffer = none) :
    readStdout runtime reading buffer chunks =
      (stdoutLines (buffer ++ chunks.flatten)).foldl (·.handleLine runtime) reading := by
  have shrinks : Framing.Shrinks (Framing.cut [(10 : UInt8)]) := Framing.cut_shrinks (by decide)
  induction chunks generalizing reading buffer with
  | nil =>
    rw [readStdout, List.flatten_nil, List.append_nil, stdoutLines, Framing.drain_of_none waits]
    split_ifs <;> rfl
  | cons chunk chunks ih =>
    have parts := Framing.drain_append shrinks Framing.cut_stable (buffer ++ chunk) chunks.flatten
    have waiting := Framing.step_drain shrinks (buffer ++ chunk)
    have rest := ih (fun other inside => full other (List.mem_cons_of_mem _ inside))
      ((Framing.drain (Framing.cut [10]) (buffer ++ chunk)).1.foldl (·.handleLine runtime) reading)
      waiting
    have lines : stdoutLines (buffer ++ (chunk :: chunks).flatten) =
        (Framing.drain (Framing.cut [10]) (buffer ++ chunk)).1 ++
          stdoutLines ((Framing.drain (Framing.cut [10]) (buffer ++ chunk)).2 ++ chunks.flatten) := by
      rw [List.flatten_cons, ← List.append_assoc, stdoutLines, parts, stdoutLines]
      simp only [List.append_assoc]
    rw [readStdout, if_neg (full chunk List.mem_cons_self), lines, List.foldl_append]
    dsimp only
    split_ifs with raised
    · rw [foldl_handleLine_of_raised raised]
    · exact rest

/-- **Neither do the chunks of stderr**: its first bytes are kept. -/
theorem drainStderrBounded_eq {chunks : List (List UInt8)} (full : ∀ chunk ∈ chunks, chunk ≠ [])
    {maxBytes : Nat} {kept : List UInt8} (fits : kept.length ≤ maxBytes) :
    drainStderrBounded maxBytes kept chunks = (kept ++ chunks.flatten).take maxBytes := by
  induction chunks generalizing kept with
  | nil => rw [drainStderrBounded, List.flatten_nil, List.append_nil, List.take_of_length_le fits]
  | cons chunk chunks ih =>
    have later := fun other inside => full other (List.mem_cons_of_mem chunk inside)
    rw [drainStderrBounded, if_neg (full chunk List.mem_cons_self)]
    split_ifs with room
    · have shorter : (kept ++ chunk.take (maxBytes - kept.length)).length ≤ maxBytes := by
        rw [List.length_append, List.length_take]
        omega
      rw [ih later shorter, List.flatten_cons]
      by_cases whole : chunk.length ≤ maxBytes - kept.length
      · rw [List.take_of_length_le whole, List.append_assoc]
      · have filled : (kept ++ chunk.take (maxBytes - kept.length)).length = maxBytes := by
          rw [List.length_append, List.length_take]
          omega
        rw [List.take_append_of_le_length filled.ge, List.take_of_length_le filled.le,
          List.take_append, List.take_append, List.take_of_length_le fits]
        have none_left : maxBytes - kept.length - chunk.length = 0 := by omega
        rw [none_left, List.take_zero, List.append_nil]
    · have exactly : kept.length = maxBytes := by omega
      rw [ih later fits, List.take_append_of_le_length exactly.ge,
        List.take_append_of_le_length exactly.ge]

end Loops

/-! ### Lines, one after another -/

section Lines

variable {runtime}

/-- Only an object has an id. -/
theorem silent_of_lineError {bytes : List UInt8} {error : PyError}
    (raises : lineError? runtime bytes = some error) :
    lineId? runtime bytes = none ∧ ownEvent? runtime bytes = none := by
  unfold lineError? at raises
  unfold lineId? ownEvent?
  dsimp only at raises ⊢
  split_ifs at raises ⊢ with blank
  cases loaded : runtime.loads (Py.strip (runtime.decode bytes)) with
  | ok event =>
    rw [loaded] at raises
    cases event with
    | obj fields => cases raises
    | _ => exact ⟨rfl, rfl⟩
  | error reason =>
    rw [loaded] at raises
    cases reason with
    | jsonDecodeError message => cases raises
    | _ => exact ⟨rfl, rfl⟩

/-- **One line**: its event, behind its id if that is the first one, or its exception. -/
theorem handleLine_eq {reading : Reading} (calm : reading.raised = none) (bytes : List UInt8) :
    reading.handleLine runtime bytes =
      { sessionIdExtracted := reading.sessionIdExtracted || settles runtime bytes
        currentSessionId :=
          if reading.sessionIdExtracted then reading.currentSessionId
          else (lineId? runtime bytes).getD reading.currentSessionId
        yielded := reading.yielded ++
          ((if reading.sessionIdExtracted then []
            else (lineId? runtime bytes).toList.map sessionInfo) ++
            (ownEvent? runtime bytes).toList)
        raised := lineError? runtime bytes } := by
  obtain ⟨extracted, current, yielded, raised⟩ := reading
  obtain rfl : raised = none := calm
  unfold Reading.handleLine settles lineId? ownEvent? lineError?
  dsimp only
  by_cases blank : Py.strip (runtime.decode bytes) = ""
  · simp [blank]
  cases loaded : runtime.loads (Py.strip (runtime.decode bytes)) with
  | ok event =>
    cases event with
    | obj fields =>
      by_cases found : runtime.truthy (extractSessionId (.obj fields)) = true
      · cases extracted <;> simp [blank, found, Reading.give, sessionInfo, isSessionInfo, Json.getKey, Assoc.get?, Option.filter]
      · cases extracted <;> simp [blank, found, Reading.give, Option.filter]
    | _ => simp [blank, extractSessionId, CliText.truthy, Reading.give, Option.filter]
  | error reason =>
    cases reason <;> simp [blank, Reading.give, rawEvent]

/-- Lines behind the id. -/
theorem foldl_handleLine_of_extracted {reading : Reading} (calm : reading.raised = none)
    (extracted : reading.sessionIdExtracted = true) (lines : List (List UInt8)) :
    lines.foldl (·.handleLine runtime) reading =
      { sessionIdExtracted := true
        currentSessionId := reading.currentSessionId
        yielded := reading.yielded ++ (readable runtime lines).filterMap (ownEvent? runtime)
        raised := lines.findSome? (lineError? runtime) } := by
  induction lines generalizing reading with
  | nil =>
    obtain ⟨_, current, yielded, _⟩ := reading
    subst calm extracted
    simp [readable]
  | cons line lines ih =>
    rw [List.foldl_cons, handleLine_eq calm, extracted]
    cases fails : lineError? runtime line with
    | some error =>
      have silent := (silent_of_lineError fails).2
      rw [foldl_handleLine_of_raised rfl]
      simp [readable, fails, silent]
    | none =>
      rw [ih rfl rfl]
      cases own : ownEvent? runtime line <;> simp [readable, fails, own]

/-- Lines up to the id, and from there on. -/
theorem foldl_handleLine {reading : Reading} (calm : reading.raised = none)
    (fresh : reading.sessionIdExtracted = false) (lines : List (List UInt8)) :
    lines.foldl (·.handleLine runtime) reading =
      { sessionIdExtracted := (readable runtime lines).any (settles runtime)
        currentSessionId :=
          (announced? runtime (readable runtime lines)).getD reading.currentSessionId
        yielded := reading.yielded ++
          ((unsettled runtime (readable runtime lines)).filterMap (ownEvent? runtime) ++
            (announced? runtime (readable runtime lines)).toList.map sessionInfo ++
            (settled runtime (readable runtime lines)).filterMap (ownEvent? runtime))
        raised := lines.findSome? (lineError? runtime) } := by
  induction lines generalizing reading with
  | nil =>
    obtain ⟨_, current, yielded, _⟩ := reading
    subst calm fresh
    simp [readable, announced?, settled, unsettled]
  | cons line lines ih =>
    rw [List.foldl_cons, handleLine_eq calm, fresh]
    cases fails : lineError? runtime line with
    | some error =>
      obtain ⟨nameless, silent⟩ := silent_of_lineError fails
      rw [foldl_handleLine_of_raised rfl]
      simp [readable, fails, silent, nameless, settles, announced?, settled, unsettled]
    | none =>
      have head : readable runtime (line :: lines) = line :: readable runtime lines := by
        simp [readable, fails]
      cases settling : settles runtime line with
      | true =>
        rw [foldl_handleLine_of_extracted rfl rfl]
        cases own : ownEvent? runtime line <;>
          simp [head, fails, own, settling, announced?, settled, unsettled]
      | false =>
        have nameless : lineId? runtime line = none := by
          rw [settles, Bool.or_eq_false_iff] at settling
          exact Option.isNone_iff_eq_none.mp (by simpa using settling.1)
        rw [ih rfl rfl]
        cases own : ownEvent? runtime line <;>
          simp [head, fails, own, settling, nameless, announced?, settled, unsettled]

end Lines

/-! ### The task -/

/-- **A task, line by line.** However the pipes are cut, the events of the lines are given out in
order, the first id once and before its line; a line that is no object ends the task, and else what
stderr said, and the exit code, are behind them. -/
theorem startTask_by_lines (currentSessionId : Json) (process : CliProcess)
    (full : ∀ chunk ∈ process.stdout ++ process.stderr, chunk ≠ []) :
    let lines := stdoutLines process.stdout.flatten
    let shown := readable runtime lines
    let result := startTask runtime currentSessionId process
    result.raised = lines.findSome? (lineError? runtime) ∧
      result.currentSessionId = (announced? runtime shown).getD currentSessionId ∧
      result.yielded =
        (unsettled runtime shown).filterMap (ownEvent? runtime) ++
          (announced? runtime shown).toList.map sessionInfo ++
          (settled runtime shown).filterMap (ownEvent? runtime) ++
          (if result.raised.isSome then []
            else closingEvents runtime (process.stderr.flatten.take maxStderrCaptureBytes)
              process.returnCode) := by
  intro lines shown result
  have fullOut : ∀ chunk ∈ process.stdout, chunk ≠ [] := fun chunk inside =>
    full chunk (List.mem_append_left _ inside)
  have fullErr : ∀ chunk ∈ process.stderr, chunk ≠ [] := fun chunk inside =>
    full chunk (List.mem_append_right _ inside)
  have read := @readStdout_eq runtime _ fullOut { currentSessionId := currentSessionId } [] rfl
  have said := @drainStderrBounded_eq _ fullErr maxStderrCaptureBytes [] (Nat.zero_le _)
  rw [List.nil_append] at said
  rw [List.nil_append, foldl_handleLine rfl rfl, List.nil_append] at read
  have isResult : result = startTask runtime currentSessionId process := rfl
  rw [startTask, read, said] at isResult
  dsimp only at isResult
  split_ifs at isResult with raised
  · rw [isResult]
    refine ⟨rfl, rfl, ?_⟩
    simp only [if_pos raised, List.append_nil]
    rfl
  · rw [isResult]
    refine ⟨rfl, rfl, ?_⟩
    simp only [if_neg raised]
    rfl

/-- A line that is cut in two, and a second one that no line feed ends. -/
theorem startTask_by_lines_cut :
    let bytes (text : String) : List UInt8 := text.toList.map fun char => UInt8.ofNat char.toNat
    let runtime : CliRuntime :=
      { str := fun _ => ""
        isZero := fun _ => false
        decode := fun bytes => String.ofList (bytes.map fun byte => Char.ofNat byte.toNat)
        loads := fun line =>
          if line = "\x7b\x7d" then .ok (.obj [])
          else if line = "\x7b\"sessionId\":\"s\"\x7d" then .ok (.obj [("sessionId", .str "s")])
          else .error (.jsonDecodeError line) }
    (startTask runtime .null ⟨[bytes "\x7b\"sessionId\"", bytes ":\"s\"\x7d\n\x7b", bytes "\x7d"], [bytes " "], 0⟩).yielded =
      [sessionInfo (.str "s"), .obj [("sessionId", .str "s")], .obj [], exitEvent 0 (.str "")] := by
  intro bytes runtime
  exact (@startTask_by_lines runtime .null _ (by decide +kernel)).2.2.trans (by decide +kernel)

end CliSession

end ClaudeProxy
