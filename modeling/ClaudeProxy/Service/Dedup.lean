/-
**In-flight deduplication** (`core/reliability/dedup.py`) in front of the multiplexers.

* `Deduplicator` — the futures in `_in_flight`, one execution for each task of `_run_and_resolve`, and
  the requests at them. `dedupMachine` runs them with the streams in any order; the coroutine that
  `create_message` hands over returns as soon as it has made its multiplexer.
* `streams_are_multiplexers` — every stream is a reachable multiplexer.
* `Timely` — a request comes while its key is in flight, or while no stream for its key is produced.
* **`deduplicates_iff`** — one stream a key at any time, and every request attached to the stream that
  it finds, exactly when all requests are timely.
-/

import ClaudeProxy.Library.Dict
import ClaudeProxy.Service.Multiplexer

namespace ClaudeProxy

variable {κ χ ε : Type} [DecidableEq κ]

/-! ### The model -/

/-- A task of `_run_and_resolve`: its stream once the coroutine has returned and the future is
resolved; `released` behind its `finally`. -/
structure Execution (κ χ ε : Type) where
  key : κ
  stream : Option (Multiplexer χ ε) := none
  released : Bool := false

/-- Where a request is: at the future of an execution, or a reader of its stream. -/
inductive Attachment where
  | awaiting (execution : Nat)
  | reading (execution reader : Nat)
  deriving DecidableEq

structure Deduplicator (κ χ ε : Type) where
  inFlight : Dict κ Nat := {}
  executions : List (Execution κ χ ε) := []
  requests : List Attachment := []

inductive DedupAction (κ χ ε : Type) where
  | execute (key : κ)
  | resolve (execution : Nat)
  | release (execution : Nat)
  | attach (request : Nat)
  | stream (execution : Nat) (action : MultiplexerAction χ ε)

namespace Deduplicator

/-- A request under the lock: it takes the future in flight, or starts an execution. -/
def execute (dedup : Deduplicator κ χ ε) (key : κ) : Deduplicator κ χ ε :=
  match dedup.inFlight.get? key with
  | some future => { dedup with requests := dedup.requests ++ [.awaiting future] }
  | none =>
    { inFlight := dedup.inFlight.set key dedup.executions.length
      executions := dedup.executions ++ [{ key := key }]
      requests := dedup.requests ++ [.awaiting dedup.executions.length] }

/-- Gives an execution its next state. -/
def setExecution (dedup : Deduplicator κ χ ε) (number : Nat) (execution : Execution κ χ ε) :
    Deduplicator κ χ ε :=
  { dedup with executions := dedup.executions.set number execution }

/-- The coroutine returns its multiplexer, and the future is resolved. -/
def resolve (dedup : Deduplicator κ χ ε) (number : Nat) (execution : Execution κ χ ε) :
    Option (Deduplicator κ χ ε) :=
  match execution.stream with
  | none => some (dedup.setExecution number { execution with stream := some {} })
  | some _ => none

/-- The `finally` of `_run_and_resolve`. -/
def release (dedup : Deduplicator κ χ ε) (number : Nat) (execution : Execution κ χ ε) :
    Option (Deduplicator κ χ ε) :=
  match execution.stream, execution.released with
  | some _, false =>
    some { dedup.setExecution number { execution with released := true } with
      inFlight := if dedup.inFlight.get? execution.key = some number
        then dedup.inFlight.erase execution.key else dedup.inFlight }
  | _, _ => none

/-- A step of an execution's stream. -/
def moveStream (dedup : Deduplicator κ χ ε) (number : Nat) (action : MultiplexerAction χ ε) :
    Option (Deduplicator κ χ ε) := do
  let execution ← dedup.executions[number]?
  let mux ← execution.stream
  let next ← mux.step action
  return dedup.setExecution number { execution with stream := some next }

/-- A request whose future is resolved starts to read. -/
def attach (dedup : Deduplicator κ χ ε) (request : Nat) : Option (Deduplicator κ χ ε) :=
  match dedup.requests[request]? with
  | some (.awaiting number) => do
    let execution ← dedup.executions[number]?
    let mux ← execution.stream
    let next ← dedup.moveStream number .join
    return { next with requests := dedup.requests.set request (.reading number mux.readers.length) }
  | _ => none

def step (dedup : Deduplicator κ χ ε) (action : DedupAction κ χ ε) : Option (Deduplicator κ χ ε) :=
  match action with
  | .execute key => some (dedup.execute key)
  | .resolve number => dedup.executions[number]?.bind (dedup.resolve number)
  | .release number => dedup.executions[number]?.bind (dedup.release number)
  | .attach request => dedup.attach request
  | .stream _ .join => none
  | .stream number action => dedup.moveStream number action

end Deduplicator

/-- The deduplicator with its streams and requests. -/
def dedupMachine (κ χ ε : Type) [DecidableEq κ] :
    Machine (Deduplicator κ χ ε) (DedupAction κ χ ε) where
  init dedup := dedup = {}
  step := Deduplicator.step

/-! ### What is asked -/

/-- The execution's stream is being produced. -/
def Execution.Produces (execution : Execution κ χ ε) : Prop :=
  ∃ mux, execution.stream = some mux ∧ mux.done = false

/-- An execution under the key whose stream is being produced. -/
def Deduplicator.Produces (dedup : Deduplicator κ χ ε) (key : κ) (number : Nat) : Prop :=
  ∃ execution, dedup.executions[number]? = some execution ∧ execution.key = key ∧
    execution.Produces

/-- **At most one stream** is being produced for a key. -/
def OneStream (dedup : Deduplicator κ χ ε) : Prop :=
  ∀ key first second, dedup.Produces key first → dedup.Produces key second → first = second

/-- **A request attaches** to the stream that is being produced for its key. -/
def Attaches (dedup : Deduplicator κ χ ε) (action : DedupAction κ χ ε) : Prop :=
  match action with
  | .execute key => ∀ number, dedup.Produces key number →
      (dedup.execute key).requests = dedup.requests ++ [.awaiting number] ∧
      (dedup.execute key).executions = dedup.executions
  | _ => True

/-- A request comes while its key is in flight, or while no stream for its key is being produced. -/
def Timely (dedup : Deduplicator κ χ ε) (action : DedupAction κ χ ε) : Prop :=
  match action with
  | .execute key => (dedup.inFlight.get? key).isSome = true ∨ ∀ number, ¬ dedup.Produces key number
  | _ => True

/-! ### The steps -/

/-- What a step can do: an arrival, a stream that starts or moves, or a release. -/
theorem Deduplicator.step_cases {dedup next : Deduplicator κ χ ε} {action : DedupAction κ χ ε}
    (stepped : dedup.step action = some next) :
    (∃ key, action = .execute key ∧ next = dedup.execute key) ∨
    (∃ number execution mux, dedup.executions[number]? = some execution ∧
      (execution.stream = none ∧ mux = {} ∨
        ∃ before act, execution.stream = some before ∧ before.step act = some mux) ∧
      next.executions = dedup.executions.set number { execution with stream := some mux } ∧
      next.inFlight = dedup.inFlight) ∨
    (∃ number execution, dedup.executions[number]? = some execution ∧
      execution.stream.isSome = true ∧ execution.released = false ∧
      next.executions = dedup.executions.set number { execution with released := true } ∧
      next.inFlight = if dedup.inFlight.get? execution.key = some number
        then dedup.inFlight.erase execution.key else dedup.inFlight) := by
  have moves : ∀ {number act next}, dedup.moveStream number act = some next →
      ∃ execution mux, dedup.executions[number]? = some execution ∧
        (execution.stream = none ∧ mux = {} ∨
          ∃ before act, execution.stream = some before ∧ before.step act = some mux) ∧
        next.executions = dedup.executions.set number { execution with stream := some mux } ∧
        next.inFlight = dedup.inFlight := by
    intro number act next moved
    obtain ⟨execution, found, rest⟩ := Option.bind_eq_some_iff.mp moved
    obtain ⟨before, stream, rest⟩ := Option.bind_eq_some_iff.mp rest
    obtain ⟨mux, stepped, rest⟩ := Option.bind_eq_some_iff.mp rest
    obtain rfl := Option.some.inj rest
    exact ⟨execution, mux, found, .inr ⟨before, act, stream, stepped⟩, rfl, rfl⟩
  cases action with
  | execute key => exact .inl ⟨key, rfl, (Option.some.inj stepped).symm⟩
  | resolve number =>
    obtain ⟨execution, found, resolved⟩ := Option.bind_eq_some_iff.mp stepped
    unfold Deduplicator.resolve at resolved
    split at resolved
    · rename_i fresh
      obtain rfl := Option.some.inj resolved
      exact .inr (.inl ⟨number, execution, {}, found, .inl ⟨fresh, rfl⟩, rfl, rfl⟩)
    · exact nomatch resolved
  | release number =>
    obtain ⟨execution, found, released⟩ := Option.bind_eq_some_iff.mp stepped
    unfold Deduplicator.release at released
    split at released
    · rename_i mux stream open_
      obtain rfl := Option.some.inj released
      refine .inr (.inr ⟨number, execution, found, ?_, open_, rfl, rfl⟩)
      rw [stream]
      rfl
    · exact nomatch released
  | attach request =>
    have attached : dedup.attach request = some next := stepped
    unfold Deduplicator.attach at attached
    split at attached
    · rename_i number _
      obtain ⟨execution, found, rest⟩ := Option.bind_eq_some_iff.mp attached
      obtain ⟨before, stream, rest⟩ := Option.bind_eq_some_iff.mp rest
      obtain ⟨joined, moved, rest⟩ := Option.bind_eq_some_iff.mp rest
      obtain rfl := Option.some.inj rest
      obtain ⟨execution, mux, there⟩ := moves moved
      exact .inr (.inl ⟨number, execution, mux, there⟩)
    · exact nomatch attached
  | stream number act =>
    cases act with
    | join => exact nomatch stepped
    | _ =>
      obtain ⟨execution, mux, there⟩ := moves stepped
      exact .inr (.inl ⟨number, execution, mux, there⟩)

/-- Looks an execution up behind a change of one. -/
theorem getElem?_of_set {α : Type} {list : List α} {number other : Nat} {old new element : α}
    (found : list[number]? = some old) (there : (list.set number new)[other]? = some element) :
    other = number ∧ element = new ∨ other ≠ number ∧ list[other]? = some element := by
  by_cases same : other = number
  · subst same
    rw [List.getElem?_set_self', found] at there
    exact .inl ⟨rfl, (Option.some.inj there).symm⟩
  · rw [List.getElem?_set_ne fun equal => same equal.symm] at there
    exact .inr ⟨same, there⟩

/-- **Every stream is a reachable multiplexer.** -/
theorem streams_are_multiplexers
    {guard : Deduplicator κ χ ε → DedupAction κ χ ε → Prop} {dedup : Deduplicator κ χ ε}
    (reached : (dedupMachine κ χ ε).Reachable guard dedup) :
    ∀ mux ∈ dedup.executions.filterMap Execution.stream,
      (multiplexerMachine χ ε).Reachable Machine.unguarded mux := by
  refine Machine.reachable_parts (fun dedup => dedup.executions.filterMap Execution.stream)
    ?_ ?_ reached
  · rintro dedup rfl mux member
    exact nomatch member
  · intro dedup action next _ stepped mux member
    obtain ⟨execution, inside, stream⟩ := List.mem_filterMap.mp member
    have old : execution ∈ dedup.executions →
        ∃ earlier, ((multiplexerMachine χ ε).init earlier ∨
          earlier ∈ dedup.executions.filterMap Execution.stream) ∧
          (multiplexerMachine χ ε).Steps Machine.unguarded earlier mux :=
      fun inside => ⟨mux, .inr (List.mem_filterMap.mpr ⟨execution, inside, stream⟩), .refl⟩
    obtain ⟨other, there⟩ := List.mem_iff_getElem?.mp inside
    rcases Deduplicator.step_cases stepped with ⟨key, rfl, rfl⟩ |
      ⟨number, changed, moved, found, how, executions, -⟩ |
      ⟨number, changed, found, -, -, executions, -⟩
    · unfold Deduplicator.execute at inside
      split at inside
      · exact old inside
      · rcases List.mem_append.mp inside with before | fresh
        · exact old before
        · obtain rfl := List.mem_singleton.mp fresh
          exact nomatch stream
    · rw [executions] at there
      rcases getElem?_of_set found there with ⟨-, rfl⟩ | ⟨-, before⟩
      · obtain rfl := Option.some.inj stream
        rcases how with ⟨-, rfl⟩ | ⟨earlier, act, known, stepped⟩
        · exact ⟨{}, .inl rfl, .refl⟩
        · refine ⟨earlier, .inr ?_, .single trivial stepped⟩
          exact List.mem_filterMap.mpr ⟨changed, List.mem_of_getElem? found, known⟩
      · exact old (List.mem_of_getElem? before)
    · rw [executions] at there
      rcases getElem?_of_set found there with ⟨-, rfl⟩ | ⟨-, before⟩
      · refine ⟨mux, .inr ?_, .refl⟩
        exact List.mem_filterMap.mpr ⟨changed, List.mem_of_getElem? found, stream⟩
      · exact old (List.mem_of_getElem? before)

/-! ### One stream for a key -/

/-- A stream that is done stays done. -/
theorem Multiplexer.done_of_step {mux next : Multiplexer χ ε} {action : MultiplexerAction χ ε}
    (stepped : mux.step action = some next) (done : mux.done = true) : next.done = true := by
  have entered : ∀ number (reader : Reader χ ε), (mux.enter number reader).done = true := by
    intro number reader
    unfold Multiplexer.enter
    split
    · exact done
    · split_ifs
      split <;> exact done
  cases Multiplexer.effect_of_step stepped with
  | join => exact done
  | @iterate number reader _ _ _ moved =>
    cases moved with
    | enter => exact entered number reader
    | _ => exact done
  | produce moved =>
    cases moved with
    | complete | abort | notifyError => rfl
    | _ => exact done

/-- The execution has a stream to produce, or produces it. -/
def Execution.Open (execution : Execution κ χ ε) : Prop :=
  ∀ mux, execution.stream = some mux → mux.done = false

omit [DecidableEq κ] in
theorem Execution.Produces.open {execution : Execution κ χ ε} (produces : execution.Produces) :
    execution.Open := by
  obtain ⟨mux, stream, running⟩ := produces
  intro other same
  rw [stream] at same
  obtain rfl := Option.some.inj same
  exact running

omit [DecidableEq κ] in
theorem open_of_stream {execution before : Execution κ χ ε}
    (same : execution.stream = before.stream) (open_ : execution.Open) : before.Open :=
  fun mux stream => open_ mux (same.trans stream)

/-- What holds while all requests are timely: whoever has not been released is in flight, and no two
executions of a key are open. -/
structure ExclusiveStreams (dedup : Deduplicator κ χ ε) : Prop where
  registered : ∀ (number : Nat) (execution : Execution κ χ ε),
    dedup.executions[number]? = some execution → execution.released = false →
    dedup.inFlight.get? execution.key = some number
  unresolved : ∀ (number : Nat) (execution : Execution κ χ ε),
    dedup.executions[number]? = some execution → execution.stream = none →
    execution.released = false
  known : ∀ key number, dedup.inFlight.get? key = some number →
    ∃ execution, dedup.executions[number]? = some execution ∧ execution.key = key
  single : ∀ (first second : Nat) (one two : Execution κ χ ε),
    dedup.executions[first]? = some one → dedup.executions[second]? = some two →
    one.key = two.key → one.Open → two.Open → first = second
  flight : ∀ key number, dedup.inFlight.get? key = some number →
    ∀ (other : Nat) (execution : Execution κ χ ε), dedup.executions[other]? = some execution →
    execution.key = key → execution.Open → other = number

/-- An open execution whose key is not in flight produces its stream. -/
theorem ExclusiveStreams.produces {dedup : Deduplicator κ χ ε}
    (exclusive : ExclusiveStreams dedup) {key : κ} (away : dedup.inFlight.get? key = none)
    {number : Nat} {execution : Execution κ χ ε}
    (found : dedup.executions[number]? = some execution) (same : execution.key = key)
    (open_ : execution.Open) : dedup.Produces key number := by
  cases stream : execution.stream with
  | none =>
    have waiting := exclusive.registered number execution found
      (exclusive.unresolved number execution found stream)
    rw [same, away] at waiting
    exact nomatch waiting
  | some mux => exact ⟨execution, found, same, mux, stream, open_ mux stream⟩

/-- A timely request. -/
theorem ExclusiveStreams.execute {dedup : Deduplicator κ χ ε}
    (exclusive : ExclusiveStreams dedup) {key : κ} (timely : Timely dedup (.execute key)) :
    ExclusiveStreams (dedup.execute key) := by
  unfold Deduplicator.execute
  cases away : dedup.inFlight.get? key with
  | some future => exact ⟨exclusive.1, exclusive.2, exclusive.3, exclusive.4, exclusive.5⟩
  | none =>
    have idle : ∀ number, ¬ dedup.Produces key number := by
      refine timely.resolve_left ?_
      rw [away]
      exact nofun
    have closed : ∀ (number : Nat) (execution : Execution κ χ ε),
        dedup.executions[number]? = some execution → execution.key = key → ¬ execution.Open :=
      fun number execution found same open_ =>
        idle number (exclusive.produces away found same open_)
    have lookup : ∀ other, (dedup.inFlight.set key dedup.executions.length).get? other =
        if other = key then some dedup.executions.length else dedup.inFlight.get? other :=
      fun other => Dict.get?_set dedup.inFlight key other _
    refine ⟨?_, ?_, ?_, ?_, ?_⟩
    · intro number execution found unreleased
      rw [lookup]
      rcases getElem?_concat found with old | ⟨rfl, rfl⟩
      · have before := exclusive.registered number execution old unreleased
        rw [if_neg ?_, before]
        rintro same
        rw [same, away] at before
        exact nomatch before
      · rw [if_pos rfl]
    · intro number execution found unresolved
      rcases getElem?_concat found with old | ⟨-, rfl⟩
      · exact exclusive.unresolved number execution old unresolved
      · rfl
    · intro other number held
      rw [lookup] at held
      split_ifs at held with same
      · obtain rfl := Option.some.inj held
        exact ⟨{ key := key }, List.getElem?_concat_length, same.symm⟩
      · obtain ⟨execution, found, belongs⟩ := exclusive.known other number held
        have inside := (List.getElem?_eq_some_iff.mp found).1
        exact ⟨execution, (List.getElem?_append_left inside).trans found, belongs⟩
    · intro first second one two foundOne foundTwo same openOne openTwo
      rcases getElem?_concat foundOne with oldOne | ⟨rfl, rfl⟩ <;>
        rcases getElem?_concat foundTwo with oldTwo | ⟨rfl, rfl⟩
      · exact exclusive.single first second one two oldOne oldTwo same openOne openTwo
      · exact absurd openOne (closed first one oldOne same)
      · exact absurd openTwo (closed second two oldTwo same.symm)
      · rfl
    · intro other number held place execution found belongs open_
      rw [lookup] at held
      rcases getElem?_concat found with old | ⟨rfl, rfl⟩
      · split_ifs at held with same
        · exact absurd open_ (closed place execution old (belongs.trans same))
        · exact exclusive.flight other number held place execution old belongs open_
      · rw [if_pos belongs.symm] at held
        exact Option.some.inj held

/-- A stream that starts or moves opens nothing. -/
theorem ExclusiveStreams.setExecution {dedup next : Deduplicator κ χ ε}
    (exclusive : ExclusiveStreams dedup) {number : Nat} {old new : Execution κ χ ε}
    (found : dedup.executions[number]? = some old)
    (key : new.key = old.key) (released : new.released = old.released)
    (resolved : new.stream ≠ none) (opens : new.Open → old.Open)
    (executions : next.executions = dedup.executions.set number new)
    (inFlight : next.inFlight = dedup.inFlight) : ExclusiveStreams next := by
  -- every execution has the key of an earlier one at its place, which was open if it is
  have origin : ∀ (place : Nat) (execution : Execution κ χ ε),
      next.executions[place]? = some execution → ∃ before,
        dedup.executions[place]? = some before ∧ execution.key = before.key ∧
        execution.released = before.released ∧ (execution.Open → before.Open) ∧
        (execution.stream = none → before.stream = none) := by
    intro place execution there
    rw [executions] at there
    rcases getElem?_of_set found there with ⟨rfl, rfl⟩ | ⟨-, before⟩
    · exact ⟨old, found, key, released, opens, fun none_ => absurd none_ resolved⟩
    · exact ⟨execution, before, rfl, rfl, id, id⟩
  refine ⟨?_, ?_, ?_, ?_, ?_⟩
  · intro place execution there unreleased
    obtain ⟨before, known, sameKey, same, -⟩ := origin place execution there
    rw [inFlight, sameKey]
    exact exclusive.registered place before known (same ▸ unreleased)
  · intro place execution there unresolved
    obtain ⟨before, known, -, same, -, none_⟩ := origin place execution there
    rw [same]
    exact exclusive.unresolved place before known (none_ unresolved)
  · intro other place held
    rw [inFlight] at held
    obtain ⟨execution, there, belongs⟩ := exclusive.known other place held
    rw [executions]
    by_cases same : place = number
    · subst same
      rw [found] at there
      obtain rfl := Option.some.inj there
      refine ⟨new, ?_, key.trans belongs⟩
      rw [List.getElem?_set_self', found]
      rfl
    · exact ⟨execution, (List.getElem?_set_ne fun equal => same equal.symm).trans there, belongs⟩
  · intro first second one two foundOne foundTwo same openOne openTwo
    obtain ⟨beforeOne, knownOne, keyOne, -, wasOne, -⟩ := origin first one foundOne
    obtain ⟨beforeTwo, knownTwo, keyTwo, -, wasTwo, -⟩ := origin second two foundTwo
    exact exclusive.single first second beforeOne beforeTwo knownOne knownTwo
      (keyOne.symm.trans (same.trans keyTwo)) (wasOne openOne) (wasTwo openTwo)
  · intro other place held elsewhere execution there belongs open_
    rw [inFlight] at held
    obtain ⟨before, known, sameKey, -, was, -⟩ := origin elsewhere execution there
    exact exclusive.flight other place held elsewhere before known (sameKey.symm.trans belongs)
      (was open_)

/-- A release takes the key out of flight. -/
theorem ExclusiveStreams.release {dedup next : Deduplicator κ χ ε} (exclusive : ExclusiveStreams dedup)
    {number : Nat} {old : Execution κ χ ε} (found : dedup.executions[number]? = some old)
    (resolved : old.stream.isSome = true) (unreleased : old.released = false)
    (executions : next.executions = dedup.executions.set number { old with released := true })
    (inFlight : next.inFlight = if dedup.inFlight.get? old.key = some number
      then dedup.inFlight.erase old.key else dedup.inFlight) : ExclusiveStreams next := by
  have held := exclusive.registered number old found unreleased
  rw [if_pos held] at inFlight
  have origin : ∀ (place : Nat) (execution : Execution κ χ ε),
      next.executions[place]? = some execution → ∃ before,
        dedup.executions[place]? = some before ∧ execution.key = before.key ∧
        execution.stream = before.stream ∧
        (execution.released = false → place ≠ number ∧ before.released = false) ∧
        (before.released = false → place = number ∨ execution.released = false) := by
    intro place execution there
    rw [executions] at there
    rcases getElem?_of_set found there with ⟨rfl, rfl⟩ | ⟨apart, before⟩
    · exact ⟨old, found, rfl, rfl, nofun, fun _ => .inl rfl⟩
    · exact ⟨execution, before, rfl, rfl, fun open_ => ⟨apart, open_⟩, .inr⟩
  refine ⟨?_, ?_, ?_, ?_, ?_⟩
  · intro place execution there open_
    obtain ⟨before, known, key, -, kept, -⟩ := origin place execution there
    obtain ⟨apart, open_⟩ := kept open_
    have registered := exclusive.registered place before known open_
    rw [inFlight, Dict.get?_erase, key, if_neg ?_, registered]
    intro same
    rw [same, held] at registered
    exact apart (Option.some.inj registered).symm
  · intro place execution there unresolved
    obtain ⟨before, known, -, stream, -, kept⟩ := origin place execution there
    rw [stream] at unresolved
    refine (kept (exclusive.unresolved place before known unresolved)).resolve_left ?_
    rintro rfl
    rw [found] at known
    obtain rfl := Option.some.inj known
    rw [unresolved] at resolved
    exact nomatch resolved
  · intro other place away
    rw [inFlight, Dict.get?_erase] at away
    split_ifs at away with same
    obtain ⟨execution, there, belongs⟩ := exclusive.known other place away
    rw [executions]
    by_cases here : place = number
    · subst here
      rw [found] at there
      obtain rfl := Option.some.inj there
      exact absurd belongs.symm same
    · exact ⟨execution, (List.getElem?_set_ne fun equal => here equal.symm).trans there, belongs⟩
  · intro first second one two foundOne foundTwo same openOne openTwo
    obtain ⟨beforeOne, knownOne, keyOne, streamOne, -⟩ := origin first one foundOne
    obtain ⟨beforeTwo, knownTwo, keyTwo, streamTwo, -⟩ := origin second two foundTwo
    exact exclusive.single first second beforeOne beforeTwo knownOne knownTwo
      (keyOne.symm.trans (same.trans keyTwo)) (open_of_stream streamOne openOne)
      (open_of_stream streamTwo openTwo)
  · intro other place away elsewhere execution there belongs open_
    rw [inFlight, Dict.get?_erase] at away
    split_ifs at away with same
    obtain ⟨before, known, key, stream, -⟩ := origin elsewhere execution there
    exact exclusive.flight other place away elsewhere before known (key.symm.trans belongs)
      (open_of_stream stream open_)

/-- **Every timely step keeps the executions exclusive.** -/
theorem exclusiveStreams_of_step {dedup next : Deduplicator κ χ ε} {action : DedupAction κ χ ε}
    (exclusive : ExclusiveStreams dedup) (timely : Timely dedup action)
    (stepped : dedup.step action = some next) : ExclusiveStreams next := by
  rcases Deduplicator.step_cases stepped with ⟨key, rfl, rfl⟩ |
    ⟨number, changed, mux, found, how, executions, inFlight⟩ |
    ⟨number, changed, found, resolved, unreleased, executions, inFlight⟩
  · exact exclusive.execute timely
  · have started : ({ changed with stream := some mux } : Execution κ χ ε).stream ≠ none := nofun
    refine exclusive.setExecution found ?_ ?_ started ?_ executions inFlight
    · rfl
    · rfl
    intro open_ before stream
    rcases how with ⟨fresh, -⟩ | ⟨earlier, act, known, moved⟩
    · rw [fresh] at stream
      exact nomatch stream
    · rw [known] at stream
      obtain rfl := Option.some.inj stream
      by_contra running
      have done := Multiplexer.done_of_step moved (Bool.of_not_eq_false running)
      rw [open_ mux rfl] at done
      exact nomatch done
  · exact exclusive.release found resolved unreleased executions inFlight

theorem exclusiveStreams_init : ExclusiveStreams ({} : Deduplicator κ χ ε) := by
  have nobody : ∀ (number : Nat) (execution : Execution κ χ ε),
      ([] : List (Execution κ χ ε))[number]? ≠ some execution := by
    intro number execution found
    rw [List.getElem?_nil] at found
    exact nomatch found
  have nothing : ∀ (key : κ) (number : Nat), (({} : Dict κ Nat)).get? key ≠ some number := by
    intro key number held
    exact nomatch held
  refine ⟨?_, ?_, ?_, ?_, ?_⟩
  · exact fun number execution found => absurd found (nobody number execution)
  · exact fun number execution found => absurd found (nobody number execution)
  · exact fun key number held => absurd held (nothing key number)
  · exact fun first _ one _ found => absurd found (nobody first one)
  · exact fun key number held => absurd held (nothing key number)

theorem exclusiveStreams_of_reachable {dedup : Deduplicator κ χ ε}
    (reached : (dedupMachine κ χ ε).Reachable Timely dedup) : ExclusiveStreams dedup := by
  apply reached.invariant
  · rintro dedup rfl
    exact exclusiveStreams_init
  · intro dedup action next exclusive timely stepped
    exact exclusiveStreams_of_step exclusive timely stepped

theorem ExclusiveStreams.oneStream {dedup : Deduplicator κ χ ε} (exclusive : ExclusiveStreams dedup) :
    OneStream dedup := by
  rintro key first second ⟨one, foundOne, keyOne, open_⟩ ⟨two, foundTwo, keyTwo, openTwo⟩
  exact exclusive.single first second one two foundOne foundTwo (keyOne.trans keyTwo.symm)
    open_.open openTwo.open

/-- Where the executions are exclusive, a timely request attaches to the stream it finds. -/
theorem ExclusiveStreams.attaches {dedup : Deduplicator κ χ ε} (exclusive : ExclusiveStreams dedup)
    {action : DedupAction κ χ ε} (timely : Timely dedup action) : Attaches dedup action := by
  cases action with
  | execute key =>
    rintro number ⟨execution, found, belongs, produces⟩
    rcases timely with flying | idle
    · obtain ⟨future, held⟩ := Option.isSome_iff_exists.mp flying
      have same := exclusive.flight key future held number execution found belongs produces.open
      unfold Deduplicator.execute
      rw [held, same]
      exact ⟨rfl, rfl⟩
    · exact absurd ⟨execution, found, belongs, produces⟩ (idle number)
  | _ => trivial

/-- A request that attaches is timely. -/
theorem Attaches.timely {dedup : Deduplicator κ χ ε} {action : DedupAction κ χ ε}
    (attaches : Attaches dedup action) : Timely dedup action := by
  cases action with
  | execute key =>
    cases away : dedup.inFlight.get? key with
    | some future =>
      refine .inl ?_
      rw [away]
      rfl
    | none =>
      refine .inr ?_
      intro number produces
      have same := (attaches number produces).2
      unfold Deduplicator.execute at same
      rw [away] at same
      have longer := congrArg List.length same
      rw [List.length_append, List.length_singleton] at longer
      omega
  | _ => trivial

/-- **Deduplication covers the whole request** in exactly the runs whose requests are all timely: at
any time at most one stream for a key is being produced, and a request that comes while one is
attaches to it. -/
theorem deduplicates_iff {actions : List (DedupAction κ χ ε)} :
    ((dedupMachine κ χ ε).Throughout {} actions OneStream ∧
      (dedupMachine κ χ ε).Obeys {} actions Attaches) ↔
      (dedupMachine κ χ ε).Obeys {} actions Timely := by
  constructor
  · rintro ⟨-, attaches⟩ before action inside dedup ran
    exact (attaches before action inside dedup ran).timely
  · intro timely
    have exclusive : ∀ before, before <+: actions → ∀ dedup,
        (dedupMachine κ χ ε).run {} before = some dedup → ExclusiveStreams dedup := by
      intro before inside dedup ran
      exact exclusiveStreams_of_reachable
        (Machine.reachable_of_obeys rfl before (timely.initial inside) ran)
    refine ⟨fun before inside dedup ran => (exclusive before inside dedup ran).oneStream, ?_⟩
    intro before action inside dedup ran
    exact (exclusive before ((List.prefix_append _ _).trans inside) dedup ran).attaches
      (timely before action inside dedup ran)

/-- **The gap**: the first request's key is released while its stream is being produced, and the second
request starts a stream of its own. -/
theorem secondRequest_starts_second_stream :
    ¬ (dedupMachine String String String).Throughout {}
      [.execute "k", .resolve 0, .release 0, .attach 0, .stream 0 (.receive "a"), .execute "k",
        .resolve 1] OneStream := by
  intro one
  have same := one _ List.prefix_rfl _ rfl "k" 0 1 ⟨_, rfl, rfl, _, rfl, rfl⟩
    ⟨_, rfl, rfl, _, rfl, rfl⟩
  exact nomatch same

end ClaudeProxy
