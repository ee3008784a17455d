/-
**The circuit breaker as an automaton** (`core/reliability/circuit_breaker.py`).

* `getState` — the reader without a lock, which applies the timeout on its own.
* `watchedMachine` — guarded calls and manual controls, with a record of when each breaker was last
  opened, by a failure or by `force_open`.
* `Automaton` — the counters stay below their thresholds, an open breaker rejects until the timeout has
  elapsed since it was opened and admits from then on, and the reader says so.
* **`automaton_of_reachable`** — for thresholds from one on.
-/

import ClaudeProxy.Reliability.CircuitBreaker

namespace ClaudeProxy

/-- `get_state`. -/
def CircuitBreaker.getState (breaker : CircuitBreaker) (states : Dict String ProviderState)
    (provider : String) (now : Int) : CircuitBreakerState :=
  match states.get? provider with
  | none => .closed
  | some state =>
    if state.state = .opened ∧ breaker.recoveryTimeout ≤ now - state.lastStateChange then .halfOpen
    else state.state

/-! ### Runs -/

def BreakerAction.time : BreakerAction → Int
  | .enter _ now => now
  | .leave _ _ now => now
  | .force _ _ now => now

/-- Guarded calls, and when the breaker of each provider was last opened. -/
structure WatchedCalls where
  guarded : GuardedCalls := {}
  openedAt : String → Option Int := fun _ => none

/-- A breaker is opened where it was not open, or by `force_open`. -/
def openedAfter (forced : Bool) (before after : ProviderState) (now : Int) (openedAt : Option Int) :
    Option Int :=
  if after.state = .opened ∧ (before.state ≠ .opened ∨ forced = true) then some now else openedAt

def WatchedCalls.step (breaker : CircuitBreaker) (watched : WatchedCalls) (action : BreakerAction) :
    Option WatchedCalls :=
  (watched.guarded.step breaker action).map fun next =>
    { guarded := next
      openedAt := fun provider =>
        openedAfter (action = .force provider .opened action.time) (watched.guarded.stateOf provider)
          (next.stateOf provider) action.time (watched.openedAt provider) }

def watchedMachine (breaker : CircuitBreaker) : Machine WatchedCalls BreakerAction where
  init watched := watched = {}
  step := WatchedCalls.step breaker

/-! ### What is asked -/

/-- A call that would enter at that time is rejected. -/
def WatchedCalls.Rejects (breaker : CircuitBreaker) (watched : WatchedCalls) (provider : String)
    (now : Int) : Prop :=
  breaker.enter (watched.guarded.stateOf provider) now = none

/-- **The automaton.** -/
structure Automaton (breaker : CircuitBreaker) (watched : WatchedCalls) : Prop where
  closed : ∀ provider, (watched.guarded.stateOf provider).state = .closed →
    (watched.guarded.stateOf provider).failures < breaker.failureThreshold
  halfOpen : ∀ provider, (watched.guarded.stateOf provider).state = .halfOpen →
    (watched.guarded.stateOf provider).successes < breaker.successThreshold
  opened : ∀ provider, (watched.guarded.stateOf provider).state = .opened →
    ∃ since, watched.openedAt provider = some since ∧
      ∀ now, watched.Rejects breaker provider now ↔ now - since < breaker.recoveryTimeout
  reader : ∀ provider now,
    breaker.getState watched.guarded.states provider now = .opened ↔ watched.Rejects breaker provider now

/-! ### One provider -/

/-- The counters are below their thresholds, and an open breaker knows when it was opened. -/
structure ProviderState.Consistent (breaker : CircuitBreaker) (state : ProviderState)
    (openedAt : Option Int) : Prop where
  closed : state.state = .closed → state.failures < breaker.failureThreshold
  halfOpen : state.state = .halfOpen → state.successes < breaker.successThreshold
  opened : state.state = .opened → openedAt = some state.lastStateChange

section Provider

variable {breaker : CircuitBreaker} {state next : ProviderState} {openedAt : Option Int} {now : Int}

/-- **A call enters**: nothing changes, or an open breaker becomes half open. -/
theorem CircuitBreaker.enter_moves (entered : breaker.enter state now = some next) :
    next = state ∨ next = { state with state := .halfOpen, successes := 0, lastStateChange := now } := by
  unfold CircuitBreaker.enter at entered
  split at entered
  · split_ifs at entered
    exact .inr (Option.some.inj entered).symm
  · exact .inl (Option.some.inj entered).symm

/-- **Who is rejected.** -/
theorem CircuitBreaker.enter_eq_none : breaker.enter state now = none ↔
    state.state = .opened ∧ now - state.lastStateChange < breaker.recoveryTimeout := by
  unfold CircuitBreaker.enter
  cases state.state with
  | opened =>
    dsimp only
    split_ifs with elapsed
    · exact ⟨fun admitted => (by cases admitted), fun early => absurd elapsed (Int.not_le.mpr early.2)⟩
    · exact ⟨fun _ => ⟨rfl, Int.not_le.mp elapsed⟩, fun _ => rfl⟩
  | closed | halfOpen => simp only [reduceCtorEq, false_and]

namespace ProviderState.Consistent

/-- Where nothing has changed. -/
theorem unmoved (consistent : state.Consistent breaker openedAt) :
    state.Consistent breaker (openedAfter false state state now openedAt) := by
  have same : ¬ (state.state = .opened ∧ (state.state ≠ .opened ∨ false = true)) := fun opened =>
    opened.2.elim (absurd opened.1) Bool.false_ne_true
  rw [openedAfter, if_neg same]
  exact consistent

/-- Behind a change to a state that is not open. -/
theorem notOpened (forced : Bool) (closed : next.state = .closed → next.failures < breaker.failureThreshold)
    (halfOpen : next.state = .halfOpen → next.successes < breaker.successThreshold)
    (notOpen : next.state ≠ .opened) :
    next.Consistent breaker (openedAfter forced state next now openedAt) :=
  ⟨closed, halfOpen, fun opened => absurd opened notOpen⟩

/-- Behind a change to the open state. -/
theorem becameOpen {forced : Bool} (isOpen : next.state = .opened) (changed : next.lastStateChange = now)
    (opens : state.state ≠ .opened ∨ forced = true) :
    next.Consistent breaker (openedAfter forced state next now openedAt) where
  closed closed := by
    rw [isOpen] at closed
    cases closed
  halfOpen halfOpen := by
    rw [isOpen] at halfOpen
    cases halfOpen
  opened _ := by
    rw [openedAfter, if_pos ⟨isOpen, opens⟩, changed]

theorem enter (successes : 1 ≤ breaker.successThreshold) (consistent : state.Consistent breaker openedAt)
    (entered : breaker.enter state now = some next) :
    next.Consistent breaker (openedAfter false state next now openedAt) := by
  rcases CircuitBreaker.enter_moves entered with rfl | rfl
  · exact consistent.unmoved
  · exact notOpened false (fun closed => by cases closed) (fun _ => successes) fun opened => by cases opened

/-- **A call leaves**: a counter that reaches its threshold changes the state. -/
theorem leave (failures : 1 ≤ breaker.failureThreshold) (outcome : CallOutcome)
    (consistent : state.Consistent breaker openedAt) :
    (breaker.leave state outcome now).Consistent breaker
      (openedAfter false state (breaker.leave state outcome now) now openedAt) := by
  by_cases idle : state.state = .opened ∨ outcome = .other
  · rw [CircuitBreaker.leave_unmoved idle]
    exact consistent.unmoved
  unfold CircuitBreaker.leave
  cases here : state.state with
  | opened => exact absurd (.inl here) idle
  | closed =>
    cases outcome with
    | success =>
      exact notOpened false (fun _ => failures) (fun halfOpen => by cases halfOpen)
        fun opened => by cases opened
    | tripping =>
      dsimp only
      split_ifs with reached
      · exact becameOpen rfl rfl (.inl (by rw [here]; decide))
      · exact notOpened false (fun _ => Int.not_le.mp reached)
          (fun halfOpen => by cases halfOpen)
          fun opened => by cases opened
    | other => exact absurd (.inr rfl) idle
  | halfOpen =>
    cases outcome with
    | success =>
      dsimp only
      split_ifs with reached
      · exact notOpened false (fun _ => failures) (fun halfOpen => by cases halfOpen)
          fun opened => by cases opened
      · exact notOpened false (fun closed => by cases closed)
          (fun _ => Int.not_le.mp reached) fun opened => by cases opened
    | tripping => exact becameOpen rfl rfl (.inl (by rw [here]; decide))
    | other => exact absurd (.inr rfl) idle

theorem force (failures : 1 ≤ breaker.failureThreshold) (successes : 1 ≤ breaker.successThreshold)
    (target : CircuitBreakerState) : (breaker.force state target now).Consistent breaker
      (openedAfter (target = .opened) state (breaker.force state target now) now openedAt) := by
  cases target with
  | opened => exact becameOpen rfl rfl (.inr rfl)
  | closed =>
    exact notOpened _ (fun _ => failures) (fun halfOpen => by cases halfOpen) fun opened => by cases opened
  | halfOpen =>
    exact notOpened _ (fun closed => by cases closed) (fun _ => successes) fun opened => by cases opened

end ProviderState.Consistent

end Provider

/-! ### All providers -/

namespace WatchedCalls

variable {breaker : CircuitBreaker} {watched next : WatchedCalls}

def Consistent (breaker : CircuitBreaker) (watched : WatchedCalls) : Prop :=
  ∀ provider, (watched.guarded.stateOf provider).Consistent breaker (watched.openedAt provider)

/-- What an action does to the state of a provider. -/
theorem stateOf_enter (guarded : GuardedCalls) (provider other : String) (now : Int) :
    (guarded.enter breaker provider now).stateOf other = if other = provider then
      (breaker.enter (guarded.stateOf provider) now).getD (guarded.stateOf provider)
    else guarded.stateOf other := by
  unfold GuardedCalls.enter
  dsimp only
  cases breaker.enter (guarded.stateOf provider) now with
  | none => exact guarded.stateOf_put provider other _ _ now
  | some state => exact guarded.stateOf_put provider other state (guarded.episodeOf provider) now

/-- **Every action.** -/
theorem Consistent.step (failures : 1 ≤ breaker.failureThreshold)
    (successes : 1 ≤ breaker.successThreshold) (consistent : watched.Consistent breaker)
    {action : BreakerAction} (stepped : watched.step breaker action = some next) :
    next.Consistent breaker := by
  obtain ⟨guarded, moved, rfl⟩ := Option.map_eq_some_iff.mp stepped
  intro other
  dsimp only
  cases action with
  | enter provider now =>
    obtain ⟨-, same⟩ := Option.ite_none_left_eq_some.mp moved
    obtain rfl := Option.some.inj same
    rw [stateOf_enter]
    split_ifs with here
    · subst here
      cases entered : breaker.enter (watched.guarded.stateOf other) now with
      | none => exact (consistent other).unmoved
      | some state => exact (consistent other).enter successes entered
    · exact (consistent other).unmoved
  | leave number outcome now =>
    cases found : watched.guarded.calls[number]? with
    | none =>
      rw [GuardedCalls.step, found] at moved
      cases moved
    | some call =>
      rw [GuardedCalls.stateOf_leave found moved]
      split_ifs with here
      · subst here
        exact (consistent call.provider).leave failures outcome
      · exact (consistent other).unmoved
  | force provider target now =>
    obtain ⟨-, same⟩ := Option.ite_none_left_eq_some.mp moved
    obtain rfl := Option.some.inj same
    rw [GuardedCalls.force, GuardedCalls.stateOf_put]
    split_ifs with here
    · subst here
      have forced : decide (BreakerAction.force other target now =
          .force other .opened (BreakerAction.force other target now).time) = decide (target = .opened) := by
        simp [BreakerAction.time]
      rw [forced]
      exact ProviderState.Consistent.force failures successes target
    · have elsewhere : decide (BreakerAction.force provider target now =
          .force other .opened (BreakerAction.force provider target now).time) = false := by
        simp [Ne.symm here]
      rw [elsewhere]
      exact (consistent other).unmoved

/-- **The reader** applies the rule by which a call is rejected. -/
theorem getState_eq_opened (breaker : CircuitBreaker) (guarded : GuardedCalls) (provider : String)
    (now : Int) : breaker.getState guarded.states provider now = .opened ↔
      breaker.enter (guarded.stateOf provider) now = none := by
  rw [CircuitBreaker.enter_eq_none]
  unfold CircuitBreaker.getState GuardedCalls.stateOf
  cases guarded.states.get? provider with
  | none => exact ⟨fun closed => (by cases closed), fun opened => (by cases opened.1)⟩
  | some state =>
    rw [Option.getD_some]
    dsimp only
    split_ifs with elapsed
    · refine ⟨fun halfOpen => (by cases halfOpen), fun opened => ?_⟩
      exact absurd elapsed.2 (Int.not_le.mpr opened.2)
    · exact ⟨fun opened => ⟨opened, Int.not_le.mp fun late => elapsed ⟨opened, late⟩⟩,
        fun opened => opened.1⟩

/-- **A consistent breaker is the automaton.** -/
theorem Consistent.automaton (consistent : watched.Consistent breaker) : Automaton breaker watched where
  closed provider := (consistent provider).closed
  halfOpen provider := (consistent provider).halfOpen
  opened provider isOpen := by
    refine ⟨_, (consistent provider).opened isOpen, fun now => ?_⟩
    rw [Rejects, CircuitBreaker.enter_eq_none]
    exact and_iff_right isOpen
  reader provider now := getState_eq_opened breaker watched.guarded provider now

end WatchedCalls

/-- **The automaton.** In every run of guarded calls and manual controls, under thresholds from one on:
a closed breaker has fewer failures than its threshold and a half-open one fewer successes; an open one
rejects a call exactly while the timeout has not elapsed since it was opened; and the reader says that it
is open exactly when a call would be rejected. -/
theorem automaton_of_reachable (breaker : CircuitBreaker) (failures : 1 ≤ breaker.failureThreshold)
    (successes : 1 ≤ breaker.successThreshold) {watched : WatchedCalls}
    (reached : (watchedMachine breaker).Reachable Machine.unguarded watched) :
    Automaton breaker watched := by
  refine WatchedCalls.Consistent.automaton ?_
  refine Machine.Reachable.invariant ?_ ?_ reached
  · rintro _ rfl provider
    exact ⟨fun _ => failures, fun halfOpen => (by cases halfOpen), fun opened => (by cases opened)⟩
  · intro state action next consistent _ stepped
    exact consistent.step failures successes stepped

/-- Five failures open the breaker. -/
def fiveFailures : List BreakerAction :=
  List.replicate 5 (.enter "nim" 0) ++
    [.leave 0 .tripping 1, .leave 1 .tripping 1, .leave 2 .tripping 1, .leave 3 .tripping 1,
      .leave 4 .tripping 1]

theorem fiveFailures_automaton : ∃ watched,
    (watchedMachine serviceBreaker).run {} fiveFailures = some watched ∧
      watched.openedAt "nim" = some 1 ∧ Automaton serviceBreaker watched := by
  have shape : ((watchedMachine serviceBreaker).run {} fiveFailures).map (·.openedAt "nim") =
      some (some 1) := by
    decide +kernel
  obtain ⟨watched, ran, since⟩ := Option.map_eq_some_iff.mp shape
  have reached := Machine.reachable_of_run_unguarded fiveFailures rfl ran
  exact ⟨watched, ran, since, automaton_of_reachable serviceBreaker (by decide) (by decide) reached⟩

end ClaudeProxy
