/-
**The transcript buffer** (`TranscriptBuffer` of `messaging/transcript.py`).

* `TranscriptEvent` — what `apply` tells apart by `type`, with the fields that it reads; an index is what
  `int` has made of it.
* `TranscriptBuffer` — the segments, the blocks that are open by their index, the names of tools by their
  ids, and the two stacks of subagents, the top first. A reference to a segment is its place in the
  transcript; the `closed` of a tool call is read nowhere, so that an open tool is its index.
* `subagentPush`, `subagentPop` — the stacks.
* `apply` — one event.
-/

import ClaudeProxy.Messaging.CliEvents
import ClaudeProxy.Messaging.Transcript

namespace ClaudeProxy

namespace Transcript

open Json (getKey)

/-- What the transcript asks of Python besides `str()`: `str.lower`, and `_safe_json_dumps`. -/
structure TranscriptText extends CliText where
  lower : String → String
  safeJsonDumps : Json → String

inductive TranscriptEvent where
  | thinkingStart (index : Int)
  | thinking (index : Int) (text : Json)
  | thinkingStop (index : Int)
  | textStart (index : Int)
  | text (index : Int) (text : Json)
  | textStop (index : Int)
  | toolUseStart (index : Int) (id name input : Json)
  | toolUseDelta
  | toolUseStop (index : Int)
  | blockStop (index : Int)
  | toolUse (id name input : Json)
  | toolResult (toolUseId content isError : Json)
  | error (message : Json)
  | other

/-- `set_current_tool_call`. -/
def SubagentSegment.setCurrentToolCall (segment : SubagentSegment) (name : String) :
    SubagentSegment :=
  { segment with
    toolsUsed := if name ∈ segment.toolsUsed then segment.toolsUsed else segment.toolsUsed ++ [name]
    toolCalls := segment.toolCalls + 1
    currentTool := some ⟨name, 1⟩ }

structure TranscriptBuffer where
  showToolResults : Bool := true
  segments : List Segment := []
  openThinkingByIndex : Dict Int Nat := ∅
  openTextByIndex : Dict Int Nat := ∅
  openToolsByIndex : List Int := []
  toolNameById : Dict String String := ∅
  subagentStack : List String := []
  subagentSegments : List Nat := []

/-- `_ids_roughly_match`. -/
def idsRoughlyMatch (stackId resultId : String) : Bool :=
  if stackId = "" ∨ resultId = "" then false
  else if stackId = resultId then true
  else Py.startsWith stackId resultId || Py.startsWith resultId stackId

namespace TranscriptBuffer

/-! ### The stacks -/

/-- `_subagent_push`: a tool without an id is given one. -/
def subagentPush (buffer : TranscriptBuffer) (toolId : String) (place : Nat) : TranscriptBuffer :=
  let toolId := Py.strip toolId
  let toolId :=
    if toolId = "" then "__task_" ++ toString (buffer.subagentStack.length + 1) else toolId
  { buffer with
    subagentStack := toolId :: buffer.subagentStack
    subagentSegments := place :: buffer.subagentSegments }

/-- So many subagents are popped. -/
def popped (buffer : TranscriptBuffer) (count : Nat) : TranscriptBuffer :=
  { buffer with
    subagentStack := buffer.subagentStack.drop count
    subagentSegments := buffer.subagentSegments.drop count }

/-- `_subagent_pop`, and whether it has popped anything. -/
def subagentPop (buffer : TranscriptBuffer) (toolId : String) : TranscriptBuffer × Bool :=
  let toolId := Py.strip toolId
  match buffer.subagentStack with
  | [] => (buffer, false)
  | top :: _ =>
    if toolId ≠ "" then
      if idsRoughlyMatch top toolId then (buffer.popped 1, true)
      else
        match buffer.subagentStack.findIdx? (idsRoughlyMatch · toolId) with
        | none => (buffer, false)
        | some depth => (buffer.popped (depth + 1), true)
    else if Py.startsWith top "__task_" then (buffer.popped 1, true)
    else (buffer, false)

/-! ### The segments -/

def addSegment (buffer : TranscriptBuffer) (segment : Segment) : TranscriptBuffer :=
  { buffer with segments := buffer.segments ++ [segment] }

/-- A segment is changed where it stands. -/
def changeSegment (buffer : TranscriptBuffer) (place : Nat) (change : Segment → Segment) :
    TranscriptBuffer :=
  { buffer with segments := buffer.segments.modify place change }

/-- `seg.append(t)`. -/
def appendText (more : String) : Segment → Segment
  | .thinking text => .thinking (text ++ more)
  | .text text => .text (text ++ more)
  | segment => segment

/-- `parent.set_current_tool_call(tool_id, name)`. -/
def setCurrentTool (name : String) : Segment → Segment
  | .subagent segment => .subagent (segment.setCurrentToolCall name)
  | segment => segment

/-- A tool call, in the current subagent or in the transcript. -/
def showToolCall (buffer : TranscriptBuffer) (name : String) : TranscriptBuffer :=
  match buffer.subagentStack, buffer.subagentSegments with
  | _ :: _, place :: _ => buffer.changeSegment place (setCurrentTool name)
  | _, _ => buffer.addSegment (.toolCall ⟨name, 0⟩)

/-! ### Open blocks -/

def stopThinking (buffer : TranscriptBuffer) (index : Int) : TranscriptBuffer :=
  if 0 ≤ index then { buffer with openThinkingByIndex := buffer.openThinkingByIndex.erase index }
  else buffer

def stopText (buffer : TranscriptBuffer) (index : Int) : TranscriptBuffer :=
  if 0 ≤ index then { buffer with openTextByIndex := buffer.openTextByIndex.erase index } else buffer

def stopToolUse (buffer : TranscriptBuffer) (index : Int) : TranscriptBuffer :=
  { buffer with openToolsByIndex := buffer.openToolsByIndex.filter (· ≠ index) }

def stopBlock (buffer : TranscriptBuffer) (index : Int) : TranscriptBuffer :=
  if index ∈ buffer.openToolsByIndex then buffer.stopToolUse index
  else if (buffer.openThinkingByIndex.get? index).isSome then buffer.stopThinking index
  else if (buffer.openTextByIndex.get? index).isSome then buffer.stopText index
  else buffer

/-- A provider may use an index again without a stop. -/
def reuseIndex (buffer : TranscriptBuffer) (index : Int) : TranscriptBuffer :=
  if 0 ≤ index then buffer.stopBlock index else buffer

/-- `_ensure_thinking`, under its index. -/
def startThinking (buffer : TranscriptBuffer) (index : Int) : TranscriptBuffer :=
  let started := buffer.addSegment (.thinking "")
  if 0 ≤ index then
    { started with
      openThinkingByIndex := buffer.openThinkingByIndex.set index buffer.segments.length }
  else started

def addThinking (buffer : TranscriptBuffer) (index : Int) (more : String) : TranscriptBuffer :=
  match buffer.openThinkingByIndex.get? index with
  | some place => buffer.changeSegment place (appendText more)
  | none => (buffer.startThinking index).changeSegment buffer.segments.length (appendText more)

/-- `_ensure_text`, under its index. -/
def startText (buffer : TranscriptBuffer) (index : Int) : TranscriptBuffer :=
  let started := buffer.addSegment (.text "")
  if 0 ≤ index then
    { started with openTextByIndex := buffer.openTextByIndex.set index buffer.segments.length }
  else started

def addText (buffer : TranscriptBuffer) (index : Int) (more : String) : TranscriptBuffer :=
  match buffer.openTextByIndex.get? index with
  | some place => buffer.changeSegment place (appendText more)
  | none => (buffer.startText index).changeSegment buffer.segments.length (appendText more)

/-! ### Tools -/

variable (py : TranscriptText)

/-- `str(ev.get("name", "") or "tool")`. -/
def toolName (name : Json) : String := if py.truthy name then py.print name else "tool"

/-- `_task_heading_from_input`. -/
def taskHeadingFromInput : Json → String
  | .obj fields =>
    let desc := py.printId (getKey fields "description")
    let subagentType := py.printId (getKey fields "subagent_type")
    let typ := py.printId (getKey fields "type")
    if desc ≠ "" then desc
    else if subagentType ≠ "" then subagentType
    else if typ ≠ "" then typ
    else "Subagent"
  | _ => "Subagent"

/-- The name of a tool is kept for its result. -/
def nameTool (buffer : TranscriptBuffer) (toolId name : String) : TranscriptBuffer :=
  if toolId ≠ "" then { buffer with toolNameById := buffer.toolNameById.set toolId name } else buffer

/-- A `Task` begins a subagent. -/
def startSubagent (buffer : TranscriptBuffer) (toolId : String) (input : Json) : TranscriptBuffer :=
  (buffer.addSegment (.subagent { description := taskHeadingFromInput py input })).subagentPush toolId
    buffer.segments.length

def startToolUse (buffer : TranscriptBuffer) (index : Int) (id name input : Json) :
    TranscriptBuffer :=
  let buffer := buffer.reuseIndex index
  let toolId := py.printId id
  let buffer := buffer.nameTool toolId (toolName py name)
  if toolName py name = "Task" then startSubagent py buffer toolId input
  else
    let buffer := buffer.showToolCall (toolName py name)
    if 0 ≤ index ∧ index ∉ buffer.openToolsByIndex then
      { buffer with openToolsByIndex := buffer.openToolsByIndex ++ [index] }
    else buffer

def useTool (buffer : TranscriptBuffer) (id name input : Json) : TranscriptBuffer :=
  let toolId := py.printId id
  let buffer := buffer.nameTool toolId (toolName py name)
  if toolName py name = "Task" then startSubagent py buffer toolId input
  else buffer.showToolCall (toolName py name)

/-- A result closes its subagent; a synthetic top marker is also closed by a result that looks like a
Task's. -/
def closeSubagent (buffer : TranscriptBuffer) (toolId : String) : TranscriptBuffer :=
  match buffer.subagentStack with
  | [] => buffer
  | _ :: _ =>
    let name := buffer.toolNameById.get? toolId
    let (next, popped) := buffer.subagentPop toolId
    let top := next.subagentStack.head?.getD ""
    let looksLikeTaskId := Py.contains (py.lower toolId) "task"
    if ¬popped ∧ toolId ≠ "" ∧ Py.startsWith top "__task_" ∧ (name = none ∨ name = some "Task") ∧
        looksLikeTaskId then (next.subagentPop "").1
    else next

/-- The text of a result's content. -/
def contentText (content : Json) : String :=
  match content with
  | .str text => text
  | content => py.safeJsonDumps content

def showResult (buffer : TranscriptBuffer) (toolUseId content isError : Json) : TranscriptBuffer :=
  let toolId := py.printId toolUseId
  let name := buffer.toolNameById.get? toolId
  let buffer := closeSubagent py buffer toolId
  if buffer.showToolResults then
    buffer.addSegment (.toolResult name (contentText py content) (py.truthy isError))
  else buffer

/-- The message of an `ErrorSegment`. -/
def errorText (message : Json) : String :=
  if py.print message = "" then "Unknown error" else py.print message

/-- `apply`. Inside a subagent only tool calls and results are shown. -/
def apply (buffer : TranscriptBuffer) : TranscriptEvent → TranscriptBuffer
  | .thinkingStart index =>
    if buffer.subagentStack ≠ [] then buffer else (buffer.reuseIndex index).startThinking index
  | .thinking index text =>
    if buffer.subagentStack ≠ [] then buffer else buffer.addThinking index (py.print text)
  | .thinkingStop index => buffer.stopThinking index
  | .textStart index =>
    if buffer.subagentStack ≠ [] then buffer else (buffer.reuseIndex index).startText index
  | .text index text =>
    if buffer.subagentStack ≠ [] then buffer else buffer.addText index (py.print text)
  | .textStop index => buffer.stopText index
  | .toolUseStart index id name input => startToolUse py buffer index id name input
  | .toolUseDelta => buffer
  | .toolUseStop index => buffer.stopToolUse index
  | .blockStop index => buffer.stopBlock index
  | .toolUse id name input => useTool py buffer id name input
  | .toolResult toolUseId content isError => showResult py buffer toolUseId content isError
  | .error message => buffer.addSegment (.error (errorText py message))
  | .other => buffer

end TranscriptBuffer

end Transcript

end ClaudeProxy
