/-
**The circuit breaker** (`core/reliability/circuit_breaker.py`).

* `ProviderState`, `CircuitBreaker` — the state of each provider's breaker and the thresholds.
* `enter`, `leave` — `CircuitBreakerContext.__aenter__` and `__aexit__`. Nothing is awaited under the
  lock, so each is one step.
* `breakerMachine` — guarded calls that enter and leave in any order, and the manual controls. An
  `Episode` records, for each provider, how often its breaker has changed its state and which outcomes
  have arrived since; the code has no such record.
* **`outcomes_count_on_arrival`** — the counters, and the next state, are those of the outcomes that
  arrived in the current episode.
* `staleCall_reopens` — whichever episode admitted the call.
-/

import ClaudeProxy.Library.Dict
import ClaudeProxy.Library.Transition

namespace ClaudeProxy

/-! ### The breaker -/

/-- `CircuitBreakerState`. -/
inductive CircuitBreakerState where
  | closed
  | opened
  | halfOpen
  deriving DecidableEq, Repr

/-- `ProviderState`; times are ticks of the monotonic clock. -/
structure ProviderState where
  state : CircuitBreakerState := .closed
  failures : Int := 0
  successes : Int := 0
  lastStateChange : Int := 0
  deriving DecidableEq, Repr

/-- The thresholds of a `CircuitBreaker`. -/
structure CircuitBreaker where
  failureThreshold : Int := 5
  recoveryTimeout : Int
  successThreshold : Int := 2

/-- How a guarded call ends: normally, with one of `tripping_exceptions`, or with another exception. -/
inductive CallOutcome where
  | success
  | tripping
  | other
  deriving DecidableEq, Repr

namespace CircuitBreaker

variable (breaker : CircuitBreaker)

/-- `__aenter__`; `none` where it raises `CircuitBreakerOpenError`. -/
def enter (state : ProviderState) (now : Int) : Option ProviderState :=
  match state.state with
  | .opened =>
    if breaker.recoveryTimeout ≤ now - state.lastStateChange then
      some { state with state := .halfOpen, successes := 0, lastStateChange := now }
    else none
  | _ => some state

/-- `__aexit__`. -/
def leave (state : ProviderState) (outcome : CallOutcome) (now : Int) : ProviderState :=
  match outcome, state.state with
  | .success, .halfOpen =>
    let successes := state.successes + 1
    if breaker.successThreshold ≤ successes then
      { state := .closed, failures := 0, successes := 0, lastStateChange := now }
    else { state with successes }
  | .success, .closed => { state with failures := 0 }
  | .tripping, .closed =>
    let failures := state.failures + 1
    if breaker.failureThreshold ≤ failures then
      { state with state := .opened, failures, lastStateChange := now }
    else { state with failures }
  | .tripping, .halfOpen =>
    { state with state := .opened, failures := breaker.failureThreshold, lastStateChange := now }
  | _, _ => state

/-- `force_open`, `force_closed` and `force_half_open`. -/
def force (state : ProviderState) (target : CircuitBreakerState) (now : Int) : ProviderState :=
  match target with
  | .opened =>
    { state with state := .opened, lastStateChange := now, failures := breaker.failureThreshold }
  | .closed => { state := .closed, failures := 0, successes := 0, lastStateChange := now }
  | .halfOpen => { state with state := .halfOpen, successes := 0, lastStateChange := now }

end CircuitBreaker

/-! ### Guarded calls -/

/-- The current episode of a provider's breaker: its number, and the outcomes that arrived in it. -/
structure Episode where
  number : Nat := 0
  arrived : List CallOutcome := []
  deriving DecidableEq, Repr

/-- A call that was admitted in that episode. -/
structure GuardedCall where
  provider : String
  admittedIn : Nat
  ended : Bool := false
  deriving DecidableEq, Repr

/-- The breaker with the calls it admitted. -/
structure GuardedCalls where
  states : Dict String ProviderState := ∅
  episodes : Dict String Episode := ∅
  calls : List GuardedCall := []
  clock : Int := 0

inductive BreakerAction where
  | enter (provider : String) (now : Int)
  | leave (call : Nat) (outcome : CallOutcome) (now : Int)
  | force (provider : String) (target : CircuitBreakerState) (now : Int)
  deriving DecidableEq, Repr

namespace GuardedCalls

/-- `_get_state`. -/
def stateOf (guarded : GuardedCalls) (provider : String) : ProviderState :=
  (guarded.states.get? provider).getD {}

def episodeOf (guarded : GuardedCalls) (provider : String) : Episode :=
  (guarded.episodes.get? provider).getD {}

/-- A provider's state and episode are replaced. -/
def put (guarded : GuardedCalls) (provider : String) (state : ProviderState) (episode : Episode)
    (now : Int) : GuardedCalls :=
  { guarded with
    states := guarded.states.set provider state
    episodes := guarded.episodes.set provider episode
    clock := now }

variable (breaker : CircuitBreaker)

/-- A call enters; it is not admitted while the breaker is open. -/
def enter (guarded : GuardedCalls) (provider : String) (now : Int) : GuardedCalls :=
  let before := guarded.stateOf provider
  let episode := guarded.episodeOf provider
  match breaker.enter before now with
  | none => guarded.put provider before episode now
  | some state =>
    let episode := if state.state = before.state then episode else ⟨episode.number + 1, []⟩
    let guarded := guarded.put provider state episode now
    { guarded with calls := guarded.calls ++ [⟨provider, episode.number, false⟩] }

/-- A call leaves. -/
def leave (guarded : GuardedCalls) (number : Nat) (call : GuardedCall) (outcome : CallOutcome)
    (now : Int) : GuardedCalls :=
  let before := guarded.stateOf call.provider
  let episode := guarded.episodeOf call.provider
  let state := breaker.leave before outcome now
  let episode := if state.state = before.state then
      if outcome = .other then episode else ⟨episode.number, episode.arrived ++ [outcome]⟩
    else ⟨episode.number + 1, []⟩
  let guarded := guarded.put call.provider state episode now
  { guarded with calls := guarded.calls.set number { call with ended := true } }

/-- A manual control begins another episode. -/
def force (guarded : GuardedCalls) (provider : String) (target : CircuitBreakerState) (now : Int) :
    GuardedCalls :=
  guarded.put provider (breaker.force (guarded.stateOf provider) target now)
    ⟨(guarded.episodeOf provider).number + 1, []⟩ now

/-- One step, at a time that is not before the last one. -/
def step (guarded : GuardedCalls) : BreakerAction → Option GuardedCalls
  | .enter provider now =>
    if now < guarded.clock then none else some (guarded.enter breaker provider now)
  | .leave number outcome now =>
    match guarded.calls[number]? with
    | none => none
    | some call =>
      if now < guarded.clock ∨ call.ended = true then none
      else some (guarded.leave breaker number call outcome now)
  | .force provider target now =>
    if now < guarded.clock then none else some (guarded.force breaker provider target now)

end GuardedCalls

/-- Guarded calls under one breaker. -/
def breakerMachine (breaker : CircuitBreaker) : Machine GuardedCalls BreakerAction where
  init guarded := guarded = {}
  step := GuardedCalls.step breaker

/-! ### What is asked -/

/-- The tripping failures at the end of a list of outcomes. -/
def consecutiveFailures (arrived : List CallOutcome) : Nat :=
  (arrived.reverse.takeWhile (· = .tripping)).length

/-- The next state of the breaker, by the outcomes that arrived in its episode. -/
def CircuitBreaker.judge (breaker : CircuitBreaker) (state : CircuitBreakerState)
    (arrived : List CallOutcome) (outcome : CallOutcome) : CircuitBreakerState :=
  match state, outcome with
  | .closed, .tripping =>
    if breaker.failureThreshold ≤ consecutiveFailures (arrived ++ [.tripping]) then .opened
    else .closed
  | .halfOpen, .success =>
    if breaker.successThreshold ≤ (arrived ++ [CallOutcome.success]).length then .closed else .halfOpen
  | .halfOpen, .tripping => .opened
  | state, _ => state

/-- The counters are those of the outcomes that arrived in the episode. -/
structure CountsArrivals (state : ProviderState) (arrived : List CallOutcome) : Prop where
  closed : state.state = .closed → state.failures = consecutiveFailures arrived
  halfOpen : state.state = .halfOpen →
    state.successes = arrived.length ∧ ∀ outcome ∈ arrived, outcome = .success

/-- **An outcome counts where it arrives**: it changes the breaker only while that is closed or half
open, and into the state that the outcomes of the episode call for. -/
structure ArrivalDecides (breaker : CircuitBreaker) (guarded : GuardedCalls) : Prop where
  counts : ∀ provider, CountsArrivals (guarded.stateOf provider) (guarded.episodeOf provider).arrived
  unmoved : ∀ number call outcome now next, guarded.calls[number]? = some call →
    guarded.step breaker (.leave number outcome now) = some next →
    (guarded.stateOf call.provider).state = .opened ∨ outcome = .other →
    ∀ provider, next.stateOf provider = guarded.stateOf provider
  decided : ∀ number call outcome now next, guarded.calls[number]? = some call →
    guarded.step breaker (.leave number outcome now) = some next →
    (next.stateOf call.provider).state = breaker.judge (guarded.stateOf call.provider).state
        (guarded.episodeOf call.provider).arrived outcome ∧
      ∀ provider, provider ≠ call.provider → next.stateOf provider = guarded.stateOf provider

/-! ### One provider -/

theorem consecutiveFailures_concat_tripping (arrived : List CallOutcome) :
    consecutiveFailures (arrived ++ [.tripping]) = consecutiveFailures arrived + 1 := by
  unfold consecutiveFailures
  rw [List.reverse_append, List.reverse_singleton, List.singleton_append,
    List.takeWhile_cons_of_pos (by decide), List.length_cons]

theorem consecutiveFailures_concat_success (arrived : List CallOutcome) :
    consecutiveFailures (arrived ++ [.success]) = 0 := by
  unfold consecutiveFailures
  rw [List.reverse_append, List.reverse_singleton, List.singleton_append,
    List.takeWhile_cons_of_neg (by decide), List.length_nil]

/-- At the beginning of an episode. -/
theorem CountsArrivals.fresh {state : ProviderState}
    (closed : state.state = .closed → state.failures = 0)
    (halfOpen : state.state = .halfOpen → state.successes = 0) : CountsArrivals state [] where
  closed isClosed := by
    rw [closed isClosed]
    rfl
  halfOpen isHalfOpen := by
    refine ⟨?_, fun outcome member => (List.not_mem_nil member).elim⟩
    rw [halfOpen isHalfOpen]
    rfl

section Provider

variable {breaker : CircuitBreaker} {state next : ProviderState} {arrived : List CallOutcome}
  {outcome : CallOutcome} {now : Int}

/-- **A call enters**: the breaker stays as it is, or begins to be half open. -/
theorem CircuitBreaker.enter_cases (entered : breaker.enter state now = some next) :
    next = state ∨ next.state = .halfOpen ∧ next.successes = 0 := by
  unfold CircuitBreaker.enter at entered
  split at entered
  · split_ifs at entered
    obtain rfl := Option.some.inj entered
    exact Or.inr ⟨rfl, rfl⟩
  · exact Or.inl (Option.some.inj entered).symm

/-- Nothing arrives at an open breaker, and another exception counts nowhere. -/
theorem CircuitBreaker.leave_unmoved (unmoved : state.state = .opened ∨ outcome = .other) :
    breaker.leave state outcome now = state := by
  unfold CircuitBreaker.leave
  rcases unmoved with opened | rfl
  · rw [opened]
    cases outcome <;> rfl
  · rfl

/-- **A call leaves**: the next state is the one that the outcomes of the episode call for. -/
theorem CountsArrivals.leave (counts : CountsArrivals state arrived) :
    (breaker.leave state outcome now).state = breaker.judge state.state arrived outcome := by
  unfold CircuitBreaker.leave CircuitBreaker.judge
  cases here : state.state with
  | closed =>
    have failures := counts.closed here
    cases outcome with
    | tripping =>
      dsimp only
      rw [consecutiveFailures_concat_tripping, failures, Int.natCast_add, Int.natCast_one]
      split_ifs
      · rfl
      · rfl
    | success => rfl
    | other => exact here
  | opened => cases outcome <;> exact here
  | halfOpen =>
    have successes := (counts.halfOpen here).1
    cases outcome with
    | success =>
      dsimp only
      rw [List.length_append, List.length_singleton, successes, Int.natCast_add, Int.natCast_one]
      split_ifs
      · rfl
      · rfl
    | tripping => rfl
    | other => exact here

/-- The counters go on with the episode. -/
theorem CountsArrivals.concat (counts : CountsArrivals state arrived)
    (same : (breaker.leave state outcome now).state = state.state) (counted : outcome ≠ .other) :
    CountsArrivals (breaker.leave state outcome now) (arrived ++ [outcome]) := by
  refine ⟨fun closed => ?_, fun halfOpen => ?_⟩
  · rw [same] at closed
    have failures := counts.closed closed
    unfold CircuitBreaker.leave at same ⊢
    rw [closed] at same ⊢
    cases outcome with
    | success =>
      rw [consecutiveFailures_concat_success]
      rfl
    | tripping =>
      dsimp only at same ⊢
      rw [consecutiveFailures_concat_tripping, Int.natCast_add, Int.natCast_one, ← failures]
      split_ifs at same ⊢
      rfl
    | other => exact absurd rfl counted
  · rw [same] at halfOpen
    obtain ⟨successes, all⟩ := counts.halfOpen halfOpen
    unfold CircuitBreaker.leave at same ⊢
    rw [halfOpen] at same ⊢
    cases outcome with
    | success =>
      refine ⟨?_, List.forall_mem_append.mpr ⟨all, by simp⟩⟩
      dsimp only at same ⊢
      rw [List.length_append, List.length_singleton, Int.natCast_add, Int.natCast_one, ← successes]
      split_ifs at same ⊢
      rfl
    | tripping => cases same
    | other => exact absurd rfl counted

/-- A breaker that changes its state has counters for a new episode. -/
theorem CountsArrivals.changed (different : (breaker.leave state outcome now).state ≠ state.state) :
    CountsArrivals (breaker.leave state outcome now) [] := by
  unfold CircuitBreaker.leave at different ⊢
  cases here : state.state with
  | opened =>
    rw [here] at different
    cases outcome <;> exact absurd here different
  | closed =>
    rw [here] at different
    cases outcome with
    | tripping =>
      dsimp only at different ⊢
      split_ifs at different ⊢
      · exact CountsArrivals.fresh (fun closed => by cases closed) fun halfOpen => by cases halfOpen
      · exact absurd rfl different
    | success => exact absurd rfl different
    | other => exact absurd here different
  | halfOpen =>
    rw [here] at different
    cases outcome with
    | success =>
      dsimp only at different ⊢
      split_ifs at different ⊢
      · exact CountsArrivals.fresh (fun _ => rfl) fun halfOpen => by cases halfOpen
      · exact absurd rfl different
    | tripping =>
      exact CountsArrivals.fresh (fun closed => by cases closed) fun halfOpen => by cases halfOpen
    | other => exact absurd here different

theorem CountsArrivals.force (target : CircuitBreakerState) :
    CountsArrivals (breaker.force state target now) [] := by
  refine CountsArrivals.fresh (fun closed => ?_) fun halfOpen => ?_
  · cases target with
    | closed => rfl
    | opened | halfOpen => cases closed
  · cases target with
    | halfOpen => rfl
    | opened | closed => cases halfOpen

end Provider

/-! ### All providers -/

namespace GuardedCalls

variable {breaker : CircuitBreaker} {guarded next : GuardedCalls}

theorem stateOf_put (guarded : GuardedCalls) (provider other : String) (state : ProviderState)
    (episode : Episode) (now : Int) : (guarded.put provider state episode now).stateOf other =
      if other = provider then state else guarded.stateOf other := by
  show ((guarded.states.set provider state).get? other).getD {} = _
  rw [Dict.get?_set]
  split_ifs <;> rfl

theorem episodeOf_put (guarded : GuardedCalls) (provider other : String) (state : ProviderState)
    (episode : Episode) (now : Int) : (guarded.put provider state episode now).episodeOf other =
      if other = provider then episode else guarded.episodeOf other := by
  show ((guarded.episodes.set provider episode).get? other).getD {} = _
  rw [Dict.get?_set]
  split_ifs <;> rfl

/-- The counters of all providers are those of their episodes. -/
def Counted (guarded : GuardedCalls) : Prop :=
  ∀ provider, CountsArrivals (guarded.stateOf provider) (guarded.episodeOf provider).arrived

/-- One provider gets another state and episode. -/
theorem Counted.put (counted : guarded.Counted) {provider : String} {state : ProviderState}
    {episode : Episode} (now : Int) (here : CountsArrivals state episode.arrived) :
    (guarded.put provider state episode now).Counted := by
  intro other
  rw [stateOf_put, episodeOf_put]
  split_ifs with same
  · exact here
  · exact counted other

theorem Counted.enter (counted : guarded.Counted) (provider : String) (now : Int) :
    (guarded.enter breaker provider now).Counted := by
  unfold GuardedCalls.enter
  dsimp only
  split
  · exact counted.put now (counted provider)
  · rename_i state entered
    refine Counted.put counted now ?_
    rcases CircuitBreaker.enter_cases entered with rfl | ⟨halfOpen, successes⟩
    · rw [if_pos rfl]
      exact counted provider
    · split_ifs with same
      · have before := counted provider
        unfold CircuitBreaker.enter at entered
        rw [← same, halfOpen] at entered
        obtain rfl := Option.some.inj entered
        exact before
      · exact CountsArrivals.fresh (fun closed => by rw [halfOpen] at closed; cases closed)
          fun _ => successes

theorem Counted.leave (counted : guarded.Counted) (number : Nat) (call : GuardedCall)
    (outcome : CallOutcome) (now : Int) :
    (guarded.leave breaker number call outcome now).Counted := by
  refine Counted.put counted now ?_
  have before := counted call.provider
  split_ifs with same other
  · rw [CircuitBreaker.leave_unmoved (Or.inr other)]
    exact before
  · exact before.concat same other
  · exact CountsArrivals.changed same

theorem Counted.step (counted : guarded.Counted) {action : BreakerAction}
    (stepped : guarded.step breaker action = some next) : next.Counted := by
  cases action with
  | enter provider now =>
    obtain ⟨-, same⟩ := Option.ite_none_left_eq_some.mp stepped
    obtain rfl := Option.some.inj same
    exact counted.enter provider now
  | leave number outcome now =>
    rw [GuardedCalls.step] at stepped
    split at stepped
    · cases stepped
    · obtain ⟨-, same⟩ := Option.ite_none_left_eq_some.mp stepped
      obtain rfl := Option.some.inj same
      exact counted.leave number _ outcome now
  | force provider target now =>
    obtain ⟨-, same⟩ := Option.ite_none_left_eq_some.mp stepped
    obtain rfl := Option.some.inj same
    exact counted.put now (CountsArrivals.force target)

/-- The states behind a call that leaves. -/
theorem stateOf_leave {number : Nat} {call : GuardedCall} {outcome : CallOutcome} {now : Int}
    (found : guarded.calls[number]? = some call)
    (stepped : guarded.step breaker (.leave number outcome now) = some next) (provider : String) :
    next.stateOf provider = if provider = call.provider then
      breaker.leave (guarded.stateOf call.provider) outcome now else guarded.stateOf provider := by
  rw [GuardedCalls.step, found] at stepped
  obtain ⟨-, same⟩ := Option.ite_none_left_eq_some.mp stepped
  rw [← Option.some.inj same]
  show ((guarded.states.set call.provider (breaker.leave (guarded.stateOf call.provider) outcome
    now)).get? provider).getD {} = _
  rw [Dict.get?_set]
  split_ifs <;> rfl

end GuardedCalls

theorem counted_of_reachable {breaker : CircuitBreaker} {guarded : GuardedCalls}
    (reached : (breakerMachine breaker).Reachable Machine.unguarded guarded) : guarded.Counted := by
  refine Machine.Reachable.invariant ?_ ?_ reached
  · rintro _ rfl provider
    exact CountsArrivals.fresh (fun _ => rfl) fun _ => rfl
  · intro state action next counted _ stepped
    exact counted.step stepped

/-- **Outcomes count on arrival.** In every run of guarded calls, the counters of a breaker are those
of the outcomes that arrived in its current episode; an outcome that arrives changes its own breaker
only, into the state that these outcomes and it call for, and nothing while the breaker is open. -/
theorem outcomes_count_on_arrival (breaker : CircuitBreaker) {guarded : GuardedCalls}
    (reached : (breakerMachine breaker).Reachable Machine.unguarded guarded) :
    ArrivalDecides breaker guarded := by
  have counted := counted_of_reachable reached
  refine ⟨counted, ?_, ?_⟩
  · intro number call outcome now next found stepped unmoved provider
    rw [GuardedCalls.stateOf_leave found stepped]
    split_ifs with same
    · rw [same]
      exact CircuitBreaker.leave_unmoved unmoved
    · rfl
  · intro number call outcome now next found stepped
    refine ⟨?_, fun provider other => ?_⟩
    · rw [GuardedCalls.stateOf_leave found stepped, if_pos rfl]
      exact (counted call.provider).leave
    · rw [GuardedCalls.stateOf_leave found stepped, if_neg other]

/-! ### A call that outlives its episode -/

/-- A call that leaves changes its breaker only if it was admitted in the current episode. -/
def AdmittedHere (breaker : CircuitBreaker) (guarded : GuardedCalls) : Prop :=
  ∀ number call outcome now next, guarded.calls[number]? = some call →
    guarded.step breaker (.leave number outcome now) = some next →
    next.stateOf call.provider ≠ guarded.stateOf call.provider →
    call.admittedIn = (guarded.episodeOf call.provider).number

/-- The thresholds of the service; a tick is a second. -/
def serviceBreaker : CircuitBreaker := { recoveryTimeout := 30 }

/-- Five of six calls fail and open the breaker; another call half-opens it. -/
def staleCall : List BreakerAction :=
  List.replicate 6 (.enter "nim" 0) ++
    [.leave 0 .tripping 1, .leave 1 .tripping 1, .leave 2 .tripping 1, .leave 3 .tripping 1,
      .leave 4 .tripping 1, .enter "nim" 40]

theorem staleCall_decides : ∃ guarded,
    (breakerMachine serviceBreaker).run {} staleCall = some guarded ∧
      (guarded.stateOf "nim").state = .halfOpen ∧ ArrivalDecides serviceBreaker guarded := by
  have shape : ((breakerMachine serviceBreaker).run {} staleCall).map (·.stateOf "nim" |>.state) =
      some .halfOpen := by
    decide +kernel
  obtain ⟨guarded, ran, halfOpen⟩ := Option.map_eq_some_iff.mp shape
  have reached := Machine.reachable_of_run_unguarded staleCall rfl ran
  exact ⟨guarded, ran, halfOpen, outcomes_count_on_arrival serviceBreaker reached⟩

/-- **Then the sixth call, admitted before the breaker opened, reopens it.** -/
theorem staleCall_reopens :
    ¬ ∀ guarded, (breakerMachine serviceBreaker).Reachable Machine.unguarded guarded →
      AdmittedHere serviceBreaker guarded := by
  intro claimed
  have shape : ((breakerMachine serviceBreaker).run {} staleCall).map (fun guarded =>
      (guarded.calls[5]?, guarded.episodeOf "nim",
        (guarded.step serviceBreaker (.leave 5 .tripping 41)).map (·.stateOf "nim"),
        guarded.stateOf "nim")) =
      some (some ⟨"nim", 0, false⟩, ⟨2, []⟩, some ⟨.opened, 5, 0, 41⟩, ⟨.halfOpen, 5, 0, 40⟩) := by
    decide +kernel
  obtain ⟨guarded, ran, same⟩ := Option.map_eq_some_iff.mp shape
  obtain ⟨found, episode, after, before⟩ : guarded.calls[5]? = some ⟨"nim", 0, false⟩ ∧
      guarded.episodeOf "nim" = ⟨2, []⟩ ∧
      (guarded.step serviceBreaker (.leave 5 .tripping 41)).map (·.stateOf "nim") =
        some ⟨.opened, 5, 0, 41⟩ ∧ guarded.stateOf "nim" = ⟨.halfOpen, 5, 0, 40⟩ := by
    simpa only [Prod.mk.injEq] using same
  obtain ⟨next, stepped, opened⟩ := Option.map_eq_some_iff.mp after
  have reached := Machine.reachable_of_run_unguarded staleCall rfl ran
  have current := claimed guarded reached 5 _ .tripping 41 next found stepped
    (by rw [opened, before]; decide)
  rw [episode] at current
  cases current

end ClaudeProxy
