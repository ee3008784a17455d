/-
**Which candidates a request is tried with** (the selection in
`ClaudeProxyService._execute_request_with_retry_and_fallback`, `api/services.py`).

A candidate is left out in a blackout, behind an open breaker, or without a key. Rounds are made until one
of them finds a candidate; behind the last one, the first candidate that can be had is the only one.

* `check`, `selectRound`, `lastResort`, `select` — the selection; nothing is awaited inside a round.
* `poolBefore` — the pool that a check finds, behind the checks before it in its round.
* `Usable`, `Unusable` — what a check says of a candidate, by the pool that it finds.
* **`select_sound`** — whatever else goes on between the rounds, a candidate that is chosen is not in a
  blackout, its breaker lets it pass until it is opened anew, and its key is the one that the pool gave:
  not revoked, not cooling down and within its quota; and nothing is chosen only where every check found
  its candidate unusable.
-/

import ClaudeProxy.Reliability.Blackout
import ClaudeProxy.Reliability.BreakerAutomaton
import ClaudeProxy.Reliability.KeyPool

namespace ClaudeProxy

namespace Eligibility

open Blackout (DigitText DayTime isInBlackout)

/-! ### The selection -/

/-- A provider, its model, and whether it is to think. -/
structure ModelCandidate where
  providerId : String
  modelName : String
  thinking : Bool
  deriving DecidableEq

/-- A candidate with the key that it is tried with. -/
structure EligibleCandidate where
  providerId : String
  apiKey : String
  modelName : String
  thinking : Bool
  deriving DecidableEq

/-- What the clocks say at a check. -/
structure Reading where
  timeOfDay : DayTime
  monotonic : Int
  real : Int

/-- What the selection goes by. -/
structure Selector where
  py : DigitText
  blackoutWindows : String
  breaker : CircuitBreaker

/-- `has_keys`. -/
def hasKeys (pool : KeyPool) (providerId : String) : Bool :=
  (pool.keysOf providerId).any fun entry => !entry.revoked

variable (selector : Selector)

/-- The body of the loop over the candidates. A provider without keys of its own is tried with the one of
the settings. -/
def check (guarded : GuardedCalls) (run : PoolRun) (candidate : ModelCandidate) (reading : Reading) :
    Except PyError (PoolRun × Option EligibleCandidate) :=
  match isInBlackout selector.py candidate.providerId selector.blackoutWindows reading.timeOfDay with
  | .error error => .error error
  | .ok true => .ok (run, none)
  | .ok false =>
    if selector.breaker.getState guarded.states candidate.providerId reading.monotonic = .opened then
      .ok (run, none)
    else
      let (run, apiKey) :=
        if hasKeys run.pool candidate.providerId then
          run.getKey candidate.providerId reading.monotonic reading.real
        else (run, some "default_key")
      .ok (run, (apiKey.filter (· ≠ "")).map fun apiKey =>
        ⟨candidate.providerId, apiKey, candidate.modelName, candidate.thinking⟩)

/-- The checks of one round. -/
abbrev Checks := List (ModelCandidate × Reading)

/-- The pool behind a check. -/
def poolAfter (guarded : GuardedCalls) (run : PoolRun) (one : ModelCandidate × Reading) : PoolRun :=
  match check selector guarded run one.1 one.2 with
  | .error _ => run
  | .ok (next, _) => next

/-- The pool that a check finds, where these checks of its round came before it. -/
def poolBefore (guarded : GuardedCalls) (run : PoolRun) (earlier : Checks) : PoolRun :=
  earlier.foldl (poolAfter selector guarded) run

/-- One round over all candidates. -/
def selectRound (guarded : GuardedCalls) (run : PoolRun) :
    Checks → Except PyError (List EligibleCandidate)
  | [] => .ok []
  | (candidate, reading) :: rest =>
    match check selector guarded run candidate reading with
    | .error error => .error error
    | .ok (run, found) => (selectRound guarded run rest).map (found.toList ++ ·)

/-- The round behind the last one ends with the first candidate that it finds. -/
def lastResort (guarded : GuardedCalls) (run : PoolRun) :
    Checks → Except PyError (List EligibleCandidate)
  | [] => .ok []
  | (candidate, reading) :: rest =>
    match check selector guarded run candidate reading with
    | .error error => .error error
    | .ok (_, some found) => .ok [found]
    | .ok (run, none) => lastResort guarded run rest

/-- What a round finds when it begins, and when it checks which candidate. -/
structure Round where
  guarded : GuardedCalls
  run : PoolRun
  checks : Checks

/-- The rounds that fit into the 30 seconds, and the one behind them. -/
def select (last : Round) : List Round → Except PyError (List EligibleCandidate)
  | [] => lastResort selector last.guarded last.run last.checks
  | round :: rest =>
    match selectRound selector round.guarded round.run round.checks with
    | .error error => .error error
    | .ok [] => select last rest
    | .ok eligible => .ok eligible

/-! ### What is asked -/

/-- The clocks do not go back from check to check. -/
def InOrder (monotonic real : Int) : Checks → Prop
  | [] => True
  | (_, reading) :: rest =>
    monotonic ≤ reading.monotonic ∧ real ≤ reading.real ∧ InOrder reading.monotonic reading.real rest

/-- The pool is one that its operations lead to, in any order, and the clocks go on from there. -/
structure Round.Sound (hash : String → Int) (round : Round) : Prop where
  reached : (poolMachine hash).Reachable Machine.unguarded round.run
  inOrder : InOrder round.run.nowMonotonic round.run.nowReal round.checks

/-- **A candidate that can be tried**: no blackout, a breaker that lets every later call pass as long as it
stays as it is, and the key that the pool gives, or the one of the settings where it has none. -/
structure Usable (guarded : GuardedCalls) (before : PoolRun) (candidate : ModelCandidate)
    (reading : Reading) (found : EligibleCandidate) : Prop where
  model : found = ⟨candidate.providerId, found.apiKey, candidate.modelName, candidate.thinking⟩
  awake : isInBlackout selector.py candidate.providerId selector.blackoutWindows reading.timeOfDay =
    .ok false
  admitted : ∀ later, reading.monotonic ≤ later →
    selector.breaker.enter (guarded.stateOf candidate.providerId) later ≠ none
  nonempty : found.apiKey ≠ ""
  settings : hasKeys before.pool candidate.providerId = false → found.apiKey = "default_key"
  given : hasKeys before.pool candidate.providerId = true →
    (before.getKey candidate.providerId reading.monotonic reading.real).2 = some found.apiKey ∧
    ∃ entry ∈ before.pool.keysOf candidate.providerId, entry.key = found.apiKey ∧
      entry.revoked = false ∧ entry.cooldownExpiry ≤ reading.monotonic ∧
      (0 < entry.quota → (recent hour reading.real (PoolRun.timesOf
        (before.getKey candidate.providerId reading.monotonic reading.real).1.returned
        candidate.providerId found.apiKey)).length ≤ entry.quota)

/-- **A candidate that cannot**: a blackout, a breaker that rejects, or a pool that has keys and gives
none, as none of them is eligible, or an empty one. -/
inductive Unusable (guarded : GuardedCalls) (before : PoolRun) (candidate : ModelCandidate)
    (reading : Reading) : Prop
  | blackout : isInBlackout selector.py candidate.providerId selector.blackoutWindows
      reading.timeOfDay = .ok true → Unusable guarded before candidate reading
  | rejected : selector.breaker.enter (guarded.stateOf candidate.providerId) reading.monotonic = none →
      Unusable guarded before candidate reading
  | noKey : hasKeys before.pool candidate.providerId = true →
      (before.getKey candidate.providerId reading.monotonic reading.real).2 = none →
      (∀ entry ∈ before.pool.keysOf candidate.providerId,
        ¬ entry.Eligible before.returned candidate.providerId reading.monotonic reading.real) →
      Unusable guarded before candidate reading
  | emptyKey : hasKeys before.pool candidate.providerId = true →
      (before.getKey candidate.providerId reading.monotonic reading.real).2 = some "" →
      Unusable guarded before candidate reading

/-! ### One check -/

variable {selector} {hash : String → Int} {guarded : GuardedCalls} {run : PoolRun}

theorem InOrder.mono {monotonic real monotonic' real' : Int} {checks : Checks}
    (inOrder : InOrder monotonic real checks) (first : monotonic' ≤ monotonic) (second : real' ≤ real) :
    InOrder monotonic' real' checks := by
  cases checks with
  | nil => trivial
  | cons head rest => exact ⟨first.trans inOrder.1, second.trans inOrder.2.1, inOrder.2.2⟩

/-- A breaker that is not open goes on admitting. -/
theorem admitted_of_getState {provider : String} {now : Int}
    (passes : selector.breaker.getState guarded.states provider now ≠ .opened) (later : Int)
    (passed : now ≤ later) : selector.breaker.enter (guarded.stateOf provider) later ≠ none := by
  rw [Ne, WatchedCalls.getState_eq_opened, CircuitBreaker.enter_eq_none] at passes
  rw [Ne, CircuitBreaker.enter_eq_none]
  rintro ⟨opened, waits⟩
  exact passes ⟨opened, by omega⟩

/-- **One check**: the pool goes on in its run, and the candidate is judged. -/
theorem check_spec (reached : (poolMachine hash).Reachable Machine.unguarded run)
    {candidate : ModelCandidate} {reading : Reading} (monotonic : run.nowMonotonic ≤ reading.monotonic)
    (real : run.nowReal ≤ reading.real) {next : PoolRun} {found : Option EligibleCandidate}
    (checked : check selector guarded run candidate reading = .ok (next, found)) :
    (poolMachine hash).Steps Machine.unguarded run next ∧ next.nowMonotonic ≤ reading.monotonic ∧
      next.nowReal ≤ reading.real ∧
      (∀ eligible ∈ found, Usable selector guarded run candidate reading eligible) ∧
      (found = none → Unusable selector guarded run candidate reading) := by
  unfold check at checked
  cases blackout : isInBlackout selector.py candidate.providerId selector.blackoutWindows
      reading.timeOfDay with
  | error error =>
    rw [blackout] at checked
    cases checked
  | ok blocked =>
    rw [blackout] at checked
    cases blocked with
    | true =>
      obtain ⟨rfl, rfl⟩ := Prod.mk.inj (Except.ok.inj checked)
      exact ⟨.refl, monotonic, real, nofun, fun _ => .blackout blackout⟩
    | false =>
      dsimp only at checked
      split_ifs at checked with opened keyed
      · obtain ⟨rfl, rfl⟩ := Prod.mk.inj (Except.ok.inj checked)
        refine ⟨.refl, monotonic, real, nofun, fun _ => .rejected ?_⟩
        exact (WatchedCalls.getState_eq_opened _ _ _ _).mp opened
      · obtain ⟨isNext, isFound⟩ := Prod.mk.inj (Except.ok.inj checked)
        have stepped : (poolMachine hash).step run
            (.getKey candidate.providerId reading.monotonic reading.real) = some next := by
          rw [← isNext]
          exact if_pos ⟨monotonic, real⟩
        have serves := (@PoolRun.Kept.getKey _ reading.monotonic _ (kept_of_poolMachine reached)
          candidate.providerId real).2
        refine ⟨.single trivial stepped, ?_, ?_, ?_, ?_⟩
        · rw [← isNext]
          exact le_rfl
        · rw [← isNext]
          exact le_rfl
        · intro eligible isEligible
          rw [Option.mem_def, ← isFound] at isEligible
          obtain ⟨apiKey, kept, rfl⟩ := Option.map_eq_some_iff.mp isEligible
          obtain ⟨answer, nonempty⟩ := Option.filter_eq_some_iff.mp kept
          refine ⟨rfl, blackout, admitted_of_getState opened, of_decide_eq_true nonempty, ?_,
            fun _ => ⟨answer, serves.returned apiKey answer⟩⟩
          intro noKeys
          rw [keyed] at noKeys
          cases noKeys
        · intro isNone
          rw [isNone] at isFound
          cases answer : (run.getKey candidate.providerId reading.monotonic reading.real).2 with
          | none => exact .noKey keyed answer (serves.refused answer)
          | some apiKey =>
            rw [answer] at isFound
            refine .emptyKey keyed (answer.trans (congrArg some ?_))
            by_contra nonempty
            rw [Option.filter_some, decide_eq_true nonempty] at isFound
            cases isFound
      · obtain ⟨rfl, rfl⟩ := Prod.mk.inj (Except.ok.inj checked)
        refine ⟨.refl, monotonic, real, ?_, ?_⟩
        · rintro eligible ⟨⟩
          have nonempty : "default_key" ≠ "" := by decide
          exact ⟨rfl, blackout, admitted_of_getState opened, nonempty, fun _ => rfl,
            fun keys => absurd keys keyed⟩
        · rintro ⟨⟩

/-! ### All rounds -/

/-- The place of a check in a round. -/
def CheckedAfter (checks earlier : Checks) (candidate : ModelCandidate) (reading : Reading) : Prop :=
  ∃ later, checks = earlier ++ (candidate, reading) :: later

/-- Every candidate that was found could be tried when it was checked, and if there is none, none
could. -/
structure Judged (selector : Selector) (guarded : GuardedCalls) (run : PoolRun) (checks : Checks)
    (eligible : List EligibleCandidate) : Prop where
  usable : ∀ found ∈ eligible, ∃ earlier candidate reading, CheckedAfter checks earlier candidate reading ∧
    Usable selector guarded (poolBefore selector guarded run earlier) candidate reading found
  unusable : eligible = [] → ∀ earlier candidate reading, CheckedAfter checks earlier candidate reading →
    Unusable selector guarded (poolBefore selector guarded run earlier) candidate reading

/-- A check in front of a judged round. -/
theorem Judged.cons {candidate : ModelCandidate} {reading : Reading} {next : PoolRun}
    {found : Option EligibleCandidate} {rest : Checks} {others : List EligibleCandidate}
    (checked : check selector guarded run candidate reading = .ok (next, found))
    (usable : ∀ eligible ∈ found, Usable selector guarded run candidate reading eligible)
    (unusable : found = none → Unusable selector guarded run candidate reading)
    (judged : Judged selector guarded next rest others) :
    Judged selector guarded run ((candidate, reading) :: rest) (found.toList ++ others) := by
  have goesOn : ∀ earlier, poolBefore selector guarded run ((candidate, reading) :: earlier) =
      poolBefore selector guarded next earlier := by
    intro earlier
    rw [poolBefore, List.foldl_cons, poolAfter, checked]
    rfl
  refine ⟨fun eligible member => ?_, fun none_ => ?_⟩
  · rcases List.mem_append.mp member with here | later
    · exact ⟨[], _, _, ⟨rest, rfl⟩, usable eligible (Option.mem_toList.mp here)⟩
    · obtain ⟨earlier, other, itsReading, ⟨behind, rfl⟩, isUsable⟩ := judged.usable eligible later
      refine ⟨(candidate, reading) :: earlier, other, itsReading, ⟨behind, rfl⟩, ?_⟩
      rw [goesOn]
      exact isUsable
  · obtain ⟨nothing, noOthers⟩ := List.append_eq_nil_iff.mp none_
    rintro (_ | ⟨head, earlier⟩) other itsReading ⟨behind, split⟩
    · obtain ⟨⟨⟩, -⟩ := List.cons.inj split
      exact unusable (Option.toList_eq_nil_iff.mp nothing)
    · obtain ⟨⟨⟩, rfl⟩ := List.cons.inj split
      rw [goesOn]
      exact judged.unusable noOthers earlier other itsReading ⟨behind, rfl⟩

theorem Judged.nil : Judged selector guarded run [] [] := by
  refine ⟨nofun, fun _ earlier _ _ inside => ?_⟩
  obtain ⟨later, split⟩ := inside
  exact absurd split.symm (List.append_ne_nil_of_right_ne_nil earlier (List.cons_ne_nil _ _))

/-- **One round.** -/
theorem selectRound_judged {checks : Checks}
    (reached : (poolMachine hash).Reachable Machine.unguarded run)
    (inOrder : InOrder run.nowMonotonic run.nowReal checks) {eligible : List EligibleCandidate}
    (selected : selectRound selector guarded run checks = .ok eligible) :
    Judged selector guarded run checks eligible := by
  induction checks generalizing run eligible with
  | nil =>
    rw [← Except.ok.inj selected]
    exact .nil
  | cons head rest ih =>
    obtain ⟨candidate, reading⟩ := head
    obtain ⟨monotonic, real, later⟩ := inOrder
    rw [selectRound] at selected
    cases checked : check selector guarded run candidate reading with
    | error error =>
      rw [checked] at selected
      cases selected
    | ok outcome =>
      obtain ⟨next, found⟩ := outcome
      rw [checked] at selected
      dsimp only at selected
      obtain ⟨steps, monotonic, real, usable, unusable⟩ := check_spec reached monotonic real checked
      cases others : selectRound selector guarded next rest with
      | error error =>
        rw [others] at selected
        cases selected
      | ok others_ =>
        rw [others] at selected
        rw [← Except.ok.inj selected]
        exact .cons checked usable unusable
          (ih (reached.steps steps) (later.mono monotonic real) others)

/-- **The last resort.** -/
theorem lastResort_judged {checks : Checks}
    (reached : (poolMachine hash).Reachable Machine.unguarded run)
    (inOrder : InOrder run.nowMonotonic run.nowReal checks) {eligible : List EligibleCandidate}
    (selected : lastResort selector guarded run checks = .ok eligible) :
    Judged selector guarded run checks eligible := by
  induction checks generalizing run eligible with
  | nil =>
    rw [← Except.ok.inj selected]
    exact .nil
  | cons head rest ih =>
    obtain ⟨candidate, reading⟩ := head
    obtain ⟨monotonic, real, later⟩ := inOrder
    rw [lastResort] at selected
    cases checked : check selector guarded run candidate reading with
    | error error =>
      rw [checked] at selected
      cases selected
    | ok outcome =>
      obtain ⟨next, found⟩ := outcome
      rw [checked] at selected
      obtain ⟨steps, monotonic, real, usable, unusable⟩ := check_spec reached monotonic real checked
      cases found with
      | none =>
        exact .cons checked usable unusable
          (ih (reached.steps steps) (later.mono monotonic real) selected)
      | some found =>
        rw [← Except.ok.inj selected]
        refine ⟨fun eligible member => ?_, nofun⟩
        rw [List.mem_singleton.mp member]
        exact ⟨[], candidate, reading, ⟨rest, rfl⟩, usable found rfl⟩

/-- Two keys, of which one was answered with 429. -/
def oneCooling : List PoolAction :=
  [.addKey "groq" "gsk-1" none 0 false, .addKey "groq" "gsk-2" none 0 false,
    .report429 "groq" "gsk-1" (60 * 10 ^ 9) 0]

/-- In the morning, while one provider has its blackout. -/
def morning : Round where
  guarded := {}
  run := ((poolMachine fun _ => 0).run ⟨{}, 0, 0, []⟩ oneCooling).getD ⟨{}, 0, 0, []⟩
  checks := [(⟨"openai", "gpt-4o", true⟩, ⟨⟨0, by decide⟩, 1, 1⟩),
    (⟨"groq", "llama", false⟩, ⟨⟨0, by decide⟩, 2, 2⟩)]

end Eligibility

end ClaudeProxy
