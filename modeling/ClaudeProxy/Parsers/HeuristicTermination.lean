/-
**The loops of `HeuristicToolParser.feed` end** (`core/anthropic/tools.py`).

* `parameterRound`, `outerRound` — one iteration of the inner loop and of the outer one; `none` where
  it breaks.
* `parameterRound_shorter` — the inner loop consumes something each time; the outer one does, or leaves
  `PARSING_PARAMETERS` (`turn_goesOn`).
* **`feed_terminates`** — both loops end, whatever the parser and the text.
-/

import ClaudeProxy.Library.Loop
import ClaudeProxy.Parsers.HeuristicTool

namespace ClaudeProxy

open Json (setKey)

namespace HeuristicToolParser

/-- One iteration of the loop over the complete parameters. -/
def parameterRound (parser : HeuristicToolParser) : Option HeuristicToolParser :=
  match parameter? parser.buffer with
  | some found =>
    if parameterEnd <:+: found.whole then
      let key := Py.strip (String.ofList found.name)
      let value := Py.strip (String.ofList found.value)
      some { parser with
        buffer := found.behind
        currentParameters := setKey parser.currentParameters key (.str value) }
    else none
  | none => none

/-- One iteration of the outer loop. -/
def outerRound (freshId : Nat → String) (parser : HeuristicToolParser) : Option HeuristicToolParser :=
  if (parser.turn freshId).goesOn then some (parser.turn freshId).parser else none

theorem parameterRound_shorter (parser next : HeuristicToolParser)
    (goes : parser.parameterRound = some next) : next.buffer.length < parser.buffer.length := by
  unfold parameterRound at goes
  split at goes
  · rename_i found matched
    obtain ⟨-, same⟩ := Option.ite_none_right_eq_some.mp goes
    obtain rfl := Option.some.inj same
    exact parameter?_shorter matched
  · cases goes

theorem outerRound_lighter (freshId : Nat → String) (parser next : HeuristicToolParser)
    (goes : parser.outerRound freshId = some next) : next.work < parser.work := by
  obtain ⟨more, same⟩ := Option.ite_none_right_eq_some.mp goes
  obtain rfl := Option.some.inj same
  exact turn_goesOn freshId more

/-- A round less of the inner loop leaves the parser that the loop ends with. -/
theorem parseParameters_round (parser next : HeuristicToolParser)
    (goes : parser.parameterRound = some next) :
    next.parseParameters.2 = parser.parseParameters.2 := by
  unfold parameterRound at goes
  split at goes
  · rename_i found matched
    obtain ⟨complete, same⟩ := Option.ite_none_right_eq_some.mp goes
    obtain rfl := Option.some.inj same
    rw [parseParameters.eq_def parser]
    split
    · rename_i other matched'
      obtain rfl := Option.some.inj (matched.symm.trans matched')
      rw [if_pos complete]
    · rename_i missing
      cases missing.symm.trans matched
  · cases goes

theorem parseParameters_breaks (parser : HeuristicToolParser) (breaks : parser.parameterRound = none) :
    parser.parseParameters.2 = parser := by
  unfold parameterRound at breaks
  rw [parseParameters.eq_def]
  split
  · rename_i found matched
    rw [matched] at breaks
    dsimp only at breaks
    split_ifs with complete
    · rw [if_pos complete] at breaks
      cases breaks
    · rfl
  · rfl

/-- So it is with the outer loop: its last turn leaves the parser. -/
theorem feedLoop_round (freshId : Nat → String) (parser next : HeuristicToolParser)
    (goes : parser.outerRound freshId = some next) :
    (next.feedLoop freshId).2.2 = (parser.feedLoop freshId).2.2 := by
  obtain ⟨more, same⟩ := Option.ite_none_right_eq_some.mp goes
  obtain rfl := Option.some.inj same
  rw [feedLoop.eq_def freshId parser, dif_pos more]

theorem feedLoop_breaks (freshId : Nat → String) (parser : HeuristicToolParser)
    (breaks : parser.outerRound freshId = none) :
    (parser.feedLoop freshId).2.2 = (parser.turn freshId).parser := by
  have stops : ¬ (parser.turn freshId).goesOn = true := fun more => by
    rw [outerRound, if_pos more] at breaks
    cases breaks
  rw [feedLoop.eq_def freshId parser, dif_neg stops]

variable (freshId : Nat → String) (isAlnum : Char → Bool) (runtime : Runtime)

/-- The inner loop ends: each of its rounds makes the buffer shorter. -/
theorem parameters_terminate (parser : HeuristicToolParser) :
    ∃ rounds last, rounds ≤ parser.buffer.length ∧
      Loop.Ends parameterRound parser rounds last ∧ parser.parseParameters.2 = last := by
  obtain ⟨rounds, last, few, ends⟩ :=
    Loop.ends_of_measure (fun parser => parser.buffer.length) parameterRound_shorter parser
  refine ⟨rounds, last, few, ends, ?_⟩
  have same := ends.result (fun parser => parser.parseParameters.2) parseParameters_round
  exact same.symm.trans (parseParameters_breaks last ends.breaks)

/-- The outer loop ends: each of its rounds takes work away. -/
theorem turns_terminate (parser : HeuristicToolParser) :
    ∃ rounds last, rounds ≤ parser.work ∧ Loop.Ends (outerRound freshId) parser rounds last ∧
      (parser.feedLoop freshId).2.2 = (last.turn freshId).parser := by
  obtain ⟨rounds, last, few, ends⟩ :=
    Loop.ends_of_measure work (outerRound_lighter freshId) parser
  refine ⟨rounds, last, few, ends, ?_⟩
  have same := ends.result (fun parser => (parser.feedLoop freshId).2.2) (feedLoop_round freshId)
  exact same.symm.trans (feedLoop_breaks freshId last ends.breaks)

/-- **`feed` terminates.** Whatever the parser and the text, `json.loads` raises before the loops, or the
outer loop ends after finitely many rounds, with the parser that `feed` leaves; and the inner loop ends
from wherever it begins, with the parser that the outer one goes on with. -/
theorem feed_terminates (parser : HeuristicToolParser) (text : String) :
    (match extractWebToolJsonCalls freshId isAlnum runtime
        { parser with buffer := stripControlTokens (parser.buffer ++ text.toList) } with
      | .error error => parser.feed freshId isAlnum runtime text = .error error
      | .ok (_, start) => ∃ rounds last, rounds ≤ start.work ∧
          Loop.Ends (outerRound freshId) start rounds last ∧
          (parser.feed freshId isAlnum runtime text).map (fun fed => fed.2.2) =
            .ok (last.turn freshId).parser) ∧
    ∀ begun : HeuristicToolParser, ∃ rounds last, rounds ≤ begun.buffer.length ∧
      Loop.Ends parameterRound begun rounds last ∧ begun.parseParameters.2 = last := by
  refine ⟨?_, parameters_terminate⟩
  unfold feed
  cases extractWebToolJsonCalls freshId isAlnum runtime
      { parser with buffer := stripControlTokens (parser.buffer ++ text.toList) } with
  | error error => rfl
  | ok extracted =>
    obtain ⟨rounds, last, few, ends, result⟩ := turns_terminate freshId extracted.2
    refine ⟨rounds, last, few, ends, ?_⟩
    rw [← result]
    rfl

end HeuristicToolParser

end ClaudeProxy
