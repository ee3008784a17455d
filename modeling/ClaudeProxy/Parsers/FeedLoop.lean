/-
**The loop of the heuristic parser, case by case** (`core/anthropic/tools.py`).

`on` is the loop of `feed` on a text that has no web-tool call. What it does is said once for each way
a text may begin, and what is behind is again a case of these.

* `on_plain`, `on_bullet` — text, up to the next `●`.
* `on_call`, `on_short`, `on_release` — a `●`: a call begins, all is held back, or it is given out.
* `on_parameter`, `on_next`, `on_ends`, `on_waits` — in a call.
-/

import ClaudeProxy.Parsers.PlainText

namespace ClaudeProxy

namespace HeuristicToolParser

/-- What the loop of `feed` does with a text in the buffer. -/
def on (freshId : Nat → String) (parser : HeuristicToolParser) (text : List Char) :
    List Char × List HeuristicTool × HeuristicToolParser :=
  feedLoop freshId { parser with buffer := text }

/-- Something that was given out before. -/
def preceded (output : List Char) (tools : List HeuristicTool)
    (result : List Char × List HeuristicTool × HeuristicToolParser) :
    List Char × List HeuristicTool × HeuristicToolParser :=
  (output ++ result.1, tools ++ result.2.1, result.2.2)

/-- The text behind the parameters ends the call: it is no tag, and has no parameter. -/
def EndsCall (text : List Char) : Prop :=
  text ≠ [] ∧ (text.dropWhile Py.isSpace).head? ≠ some '<' ∧ ¬ "<parameter=".toList <:+: text

instance (text : List Char) : Decidable (EndsCall text) := inferInstanceAs (Decidable (_ ∧ _ ∧ _))

section On

variable {freshId : Nat → String} {parser : HeuristicToolParser} {text : List Char}

theorem feedLoop_of_goesOn (more : (parser.turn freshId).goesOn = true) :
    parser.feedLoop freshId = preceded (parser.turn freshId).output (parser.turn freshId).tools
      ((parser.turn freshId).parser.feedLoop freshId) := by
  rw [feedLoop, dif_pos more]
  rfl

theorem feedLoop_of_stops (stops : (parser.turn freshId).goesOn = false) :
    parser.feedLoop freshId =
      ((parser.turn freshId).output, (parser.turn freshId).tools, (parser.turn freshId).parser) := by
  rw [feedLoop, dif_neg (by rw [stops]; exact Bool.false_ne_true)]

/-- The loop depends on its first turn, output apart. -/
theorem feedLoop_of_turn {other : HeuristicToolParser} {output : List Char}
    (turn : parser.turn freshId = (other.turn freshId).behind output) :
    parser.feedLoop freshId = preceded output [] (other.feedLoop freshId) := by
  cases goes : (other.turn freshId).goesOn with
  | true =>
    rw [feedLoop_of_goesOn goes, feedLoop_of_goesOn (by rw [turn]; exact goes), turn]
    simp [preceded, FeedTurn.behind]
  | false =>
    rw [feedLoop_of_stops goes, feedLoop_of_stops (by rw [turn]; exact goes), turn]
    simp [preceded, FeedTurn.behind]

theorem feedLoop_congr {other : HeuristicToolParser} (same : parser.turn freshId = other.turn freshId) :
    parser.feedLoop freshId = other.feedLoop freshId := by
  cases goes : (other.turn freshId).goesOn with
  | true => rw [feedLoop_of_goesOn goes, feedLoop_of_goesOn (by rw [same]; exact goes), same]
  | false => rw [feedLoop_of_stops goes, feedLoop_of_stops (by rw [same]; exact goes), same]

theorem preceded_preceded (first second : List Char) (tools more : List HeuristicTool)
    (result : List Char × List HeuristicTool × HeuristicToolParser) :
    preceded first tools (preceded second more result) = preceded (first ++ second) (tools ++ more) result := by
  simp [preceded]

/-- The text in front of a `●`, and what is from there on. -/
theorem takeWhile_bullet {front rest : List Char} (plain : '●' ∉ front) :
    (front ++ '●' :: rest).takeWhile (· ≠ '●') = front ∧
      (front ++ '●' :: rest).dropWhile (· ≠ '●') = '●' :: rest := by
  have passed : ∀ char ∈ front, decide (char ≠ '●') = true := by
    intro char member
    rw [decide_eq_true_eq]
    rintro rfl
    exact plain member
  rw [List.takeWhile_append_of_pos passed, List.dropWhile_append_of_pos passed,
    List.takeWhile_cons_of_neg (by simp), List.dropWhile_cons_of_neg (by simp), List.append_nil]
  exact ⟨rfl, rfl⟩

/-- A text without `●`. -/
theorem on_plain (isText : parser.state = .text) (plain : '●' ∉ text) :
    ∃ output, parser.on freshId text = (output, [], { parser with buffer := tokenTail text }) ∧
      output ++ tokenTail text = text := by
  obtain ⟨output, turn, whole⟩ :=
    @turn_end freshId { parser with buffer := text } isText plain
  refine ⟨output, ?_, whole⟩
  rw [on, feedLoop_of_stops (by rw [turn]), turn]

/-- What is in front of a `●`. -/
theorem on_bullet (isText : parser.state = .text) {front rest : List Char} (plain : '●' ∉ front) :
    parser.on freshId (front ++ '●' :: rest) =
      preceded front [] (on freshId { parser with state := .matchingFunction } ('●' :: rest)) := by
  obtain ⟨taken, left⟩ := @takeWhile_bullet front rest plain
  refine feedLoop_of_turn ?_
  unfold turn
  simp only [isText]
  rw [if_pos (by simp), taken, left]

/-- A call begins. -/
def begun (freshId : Nat → String) (parser : HeuristicToolParser) (name : List Char) :
    HeuristicToolParser :=
  { parser with
    state := .parsingParameters
    currentToolId := "toolu_heuristic_" ++ freshId parser.ids
    currentFunctionName := Py.strip (String.ofList name)
    currentParameters := []
    ids := parser.ids + 1 }

theorem on_call (isMatching : parser.state = .matchingFunction) {name rest : List Char}
    (found : functionStart? text = some (name, rest)) :
    parser.on freshId text = on freshId (parser.begun freshId name) rest := by
  have turned : ({ parser with buffer := text } : HeuristicToolParser).turn freshId =
      ({ parser.begun freshId name with buffer := rest } : HeuristicToolParser).turn freshId := by
    rw [turn, turn]
    simp only [isMatching, matchingTurn, found, begun]
  exact feedLoop_congr turned

/-- What is no call yet. -/
theorem on_short (isMatching : parser.state = .matchingFunction) (none_ : functionStart? text = none)
    (short : text.length ≤ 100) : parser.on freshId text = ([], [], { parser with buffer := text }) := by
  have turned : ({ parser with buffer := text } : HeuristicToolParser).turn freshId =
      ⟨{ parser with buffer := text }, [], [], false⟩ := by
    rw [turn]
    simp only [isMatching, matchingTurn, none_, if_neg (Nat.not_lt.mpr short)]
  rw [on, feedLoop_of_stops (by rw [turned]), turned]

/-- A `●` that is given out. -/
theorem on_release (isMatching : parser.state = .matchingFunction) (none_ : functionStart? text = none)
    (long : 100 < text.length) :
    parser.on freshId text =
      preceded (text.take 1) [] (on freshId { parser with state := .text } text.tail) := by
  have turned : ({ parser with buffer := text } : HeuristicToolParser).turn freshId =
      ⟨{ parser with state := .text, buffer := text.tail }, text.take 1, [], true⟩ := by
    rw [turn]
    simp only [isMatching, matchingTurn, none_, if_pos long]
  rw [on, feedLoop_of_goesOn (by rw [turned]), turned]
  rfl

theorem turn_parsing (isParsing : parser.state = .parsingParameters) (text : List Char) :
    ({ parser with buffer := text } : HeuristicToolParser).turn freshId =
      ({ parser with buffer := text } : HeuristicToolParser).parsingTurn := by
  rw [turn]
  simp only [isParsing]

theorem parseParameters_incomplete (incomplete : Incomplete text) :
    ({ parser with buffer := text } : HeuristicToolParser).parseParameters =
      ([], { parser with buffer := text }) := by
  rw [parseParameters]
  split
  · rename_i found matched
    rw [if_neg (incomplete found matched)]
  · rfl

/-- A parameter is read. -/
def given (parser : HeuristicToolParser) (name value : List Char) : HeuristicToolParser :=
  { parser with
    currentParameters := Json.setKey parser.currentParameters (Py.strip (String.ofList name))
      (.str (Py.strip (String.ofList value))) }

theorem on_parameter (isParsing : parser.state = .parsingParameters)
    {front name value behind : List Char} (closed : Closed text front name value behind) :
    parser.on freshId text = preceded front [] (on freshId (parser.given name value) behind) := by
  have read : ({ parser with buffer := text } : HeuristicToolParser).parseParameters =
      (front ++ ({ parser.given name value with buffer := behind } : HeuristicToolParser).parseParameters.1,
        ({ parser.given name value with buffer := behind } : HeuristicToolParser).parseParameters.2) := by
    rw [parseParameters]
    split
    · rename_i found matched
      obtain rfl := Option.some.inj (matched.symm.trans (parameter?_of_closed closed))
      rw [if_pos ⟨"<parameter=".toList ++ name ++ '>' :: value, [], by simp⟩]
      rfl
    · rename_i missing
      cases missing.symm.trans (parameter?_of_closed closed)
  refine feedLoop_of_turn ?_
  have isParsing' : (parser.given name value).state = .parsingParameters := isParsing
  rw [turn_parsing isParsing, turn_parsing isParsing', parsingTurn, parsingTurn, read]
  dsimp only
  split_ifs <;> simp [FeedTurn.behind, finished]

/-- A call ends at a `●`. -/
theorem on_next (isParsing : parser.state = .parsingParameters) {front rest : List Char}
    (incomplete : Incomplete (front ++ '●' :: rest)) (plain : '●' ∉ front) :
    parser.on freshId (front ++ '●' :: rest) =
      preceded front [parser.currentTool]
        (on freshId { parser with state := .matchingFunction } ('●' :: rest)) := by
  obtain ⟨taken, left⟩ := @takeWhile_bullet front rest plain
  have turned : ({ parser with buffer := front ++ '●' :: rest } : HeuristicToolParser).turn freshId =
      ⟨{ parser with state := .text, buffer := '●' :: rest }, front, [parser.currentTool], true⟩ := by
    rw [turn_parsing isParsing, parsingTurn, parseParameters_incomplete incomplete]
    dsimp only
    rw [if_pos (by simp), taken, left]
    rfl
  have again : on freshId { parser with state := .text } ('●' :: rest) =
      on freshId { parser with state := .matchingFunction } ('●' :: rest) :=
    @on_bullet freshId { parser with state := .text } rfl [] rest List.not_mem_nil
  rw [on, feedLoop_of_goesOn (by rw [turned]), turned, ← again]
  rfl

/-- Or at a text that is no parameter. -/
theorem on_ends (isParsing : parser.state = .parsingParameters) (incomplete : Incomplete text)
    (plain : '●' ∉ text) (ends : EndsCall text) :
    parser.on freshId text = (text, [parser.currentTool], { parser with state := .text, buffer := [] }) := by
  have turned : ({ parser with buffer := text } : HeuristicToolParser).turn freshId =
      ⟨{ parser with state := .text, buffer := [] }, text, [parser.currentTool], true⟩ := by
    rw [turn_parsing isParsing, parsingTurn, parseParameters_incomplete incomplete]
    unfold EndsCall at ends
    dsimp only
    rw [if_neg plain, if_pos ends]
    rfl
  obtain ⟨output, rest, whole⟩ := @on_plain freshId { parser with state := .text } [] rfl List.not_mem_nil
  have nothing : output = [] := (List.append_eq_nil_iff.mp whole).1
  have rest : feedLoop freshId { parser with state := .text, buffer := [] } =
      (output, [], { parser with state := .text, buffer := [] }) := rest
  rw [on, feedLoop_of_goesOn (by rw [turned]), turned, rest, nothing, preceded, List.append_nil]
  rfl

/-- Otherwise it goes on. -/
theorem on_waits (isParsing : parser.state = .parsingParameters) (incomplete : Incomplete text)
    (plain : '●' ∉ text) (goesOn : ¬ EndsCall text) :
    parser.on freshId text = ([], [], { parser with buffer := text }) := by
  have turned : ({ parser with buffer := text } : HeuristicToolParser).turn freshId =
      ⟨{ parser with buffer := text }, [], [], false⟩ := by
    rw [turn_parsing isParsing, parsingTurn, parseParameters_incomplete incomplete]
    unfold EndsCall at goesOn
    dsimp only
    rw [if_neg plain, if_neg goesOn]
  rw [on, feedLoop_of_stops (by rw [turned]), turned]

end On

end HeuristicToolParser

end ClaudeProxy
