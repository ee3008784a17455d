/-
**The provider rate limiter** (`providers/rate_limit.py`, `core/rate_limit.py`).

* `acquire` — one round of `StrictSlidingWindowLimiter.acquire`.
* `RateLimited` — the limiter and the tasks inside it, with a record of every block set, every
  proactive slot acquired and every upstream call started so far.
* `rateMachine` — `execute_with_retry`, `wait_if_blocked` and `set_blocked` calls in any order. A task
  runs from one sleep to the next without another task in between; the clock may move on meanwhile.
* **`held_back_iff`** — a call starts behind every block set so far exactly when the blocks that its
  task did not look at are over.
-/

import ClaudeProxy.Library.Transition
import Mathlib.Data.List.Basic
import Mathlib.Algebra.Group.Int.Defs

namespace ClaudeProxy

/-! ### The limiter -/

/-- The settings of a `GlobalRateLimiter`; times are ticks of the monotonic clock. -/
structure GlobalRateLimiter where
  rateLimit : Nat := 40
  rateWindow : Int
  limited : 0 < rateLimit
  lasting : 0 < rateWindow

/-- The settings of an `execute_with_retry` call. -/
structure RetrySettings where
  maxRetries : Nat := 4
  baseDelay : Int
  maxDelay : Int

/-- The backoff after an attempt; `jitter` is what `random.uniform` draws. -/
def RetrySettings.delay (settings : RetrySettings) (attempt : Nat) (jitter : Int) : Int :=
  min (settings.baseDelay * 2 ^ attempt) settings.maxDelay + jitter

/-- Where a task is: asleep behind the reactive block, asleep until a proactive slot may be free, in
its upstream call, asleep before its next attempt, or through. -/
inductive LimitedStage where
  | blocked (wake : Int)
  | throttled (wake : Int)
  | calling
  | backingOff (wake : Int)
  | done
  deriving DecidableEq

/-- A task in `execute_with_retry`, or in `wait_if_blocked` alone; `checked` records how many blocks had
been set when it last looked at the block. -/
structure LimitedCall where
  retry : Option RetrySettings
  attempt : Nat := 0
  stage : LimitedStage
  checked : Nat

/-- An upstream call that was started: when, the blocks set by then, and how many of them there were
when its task looked. -/
structure StartedCall where
  start : Int
  blocks : List Int
  checked : Nat
  deriving DecidableEq

/-- The limiter and its tasks. -/
structure RateLimited where
  clock : Int := 0
  blockedUntil : Int := 0
  times : List Int := []
  calls : List LimitedCall := []
  blocks : List Int := []
  acquired : List Int := []
  started : List StartedCall := []

inductive RateAction where
  | arrive (retry : Option RetrySettings) (now slot start : Int)
  | resume (number : Nat) (now slot start : Int)
  | fail (number : Nat) (jitter now : Int)
  | leave (number : Nat)
  | setBlocked (seconds now : Int)

variable (limiter : GlobalRateLimiter)

/-- One round of `StrictSlidingWindowLimiter.acquire`: the deque afterwards, and how long to wait if
no slot is free. -/
def GlobalRateLimiter.acquire (times : List Int) (now : Int) : List Int × Option Int :=
  let kept := times.dropWhile fun time => time ≤ now - limiter.rateWindow
  if kept.length < limiter.rateLimit then (kept ++ [now], none)
  else (kept, some (max 0 (kept.headD now + limiter.rateWindow - now)))

namespace RateLimited

/-- `_acquire_proactive_slot`, and the upstream call behind it. -/
def acquireProactiveSlot (state : RateLimited) (call : LimitedCall) (slot start : Int) :
    RateLimited × LimitedCall :=
  match limiter.acquire state.times slot with
  | (times, some wait) => ({ state with times }, { call with stage := .throttled (slot + wait) })
  | (times, none) =>
    let state := { state with times, acquired := state.acquired ++ [slot] }
    match call.retry with
    | none => (state, { call with stage := .done })
    | some _ =>
      ({ state with started := state.started ++ [⟨start, state.blocks, call.checked⟩] },
        { call with stage := .calling })

/-- `wait_if_blocked`, and the upstream call behind it. -/
def waitIfBlocked (state : RateLimited) (call : LimitedCall) (now slot start : Int) :
    RateLimited × LimitedCall :=
  let call := { call with checked := state.blocks.length }
  if now < state.blockedUntil then (state, { call with stage := .blocked state.blockedUntil })
  else state.acquireProactiveSlot limiter call slot start

/-- `set_blocked`: the deadline is overwritten. -/
def setBlocked (state : RateLimited) (seconds now : Int) : RateLimited :=
  { state with blockedUntil := now + seconds, blocks := state.blocks ++ [now + seconds] }

def put (state : RateLimited) (number : Nat) (call : LimitedCall) : RateLimited :=
  { state with calls := state.calls.set number call }

/-- A task calls. -/
def arrive (state : RateLimited) (retry : Option RetrySettings) (now slot start : Int) : RateLimited :=
  let (next, call) := state.waitIfBlocked limiter ⟨retry, 0, .done, 0⟩ now slot start
  { next with calls := next.calls ++ [call] }

/-- A task wakes. -/
def resume (state : RateLimited) (number : Nat) (call : LimitedCall) (now slot start : Int) :
    Option RateLimited :=
  match call.stage with
  | .blocked wake | .throttled wake =>
    if now < wake then none
    else
      let (next, call) := state.acquireProactiveSlot limiter call slot start
      some (next.put number call)
  | .backingOff wake =>
    if now < wake then none
    else
      let again := { call with attempt := call.attempt + 1 }
      let (next, call) := state.waitIfBlocked limiter again now slot start
      some (next.put number call)
  | .calling | .done => none

/-- An upstream call fails with 429 or 5xx: the last attempt raises, any other sets the block. -/
def fail (state : RateLimited) (number : Nat) (call : LimitedCall) (jitter now : Int) :
    Option RateLimited :=
  match call.stage, call.retry with
  | .calling, some settings =>
    if settings.maxRetries ≤ call.attempt then some (state.put number { call with stage := .done })
    else
      let delay := settings.delay call.attempt jitter
      some ((state.setBlocked delay now).put number { call with stage := .backingOff (now + delay) })
  | _, _ => none

/-- A task returns, raises or is cancelled. -/
def leave (state : RateLimited) (number : Nat) (call : LimitedCall) : RateLimited :=
  state.put number { call with stage := .done }

/-- One step, at a time that is not before the last one. -/
def step (state : RateLimited) : RateAction → Option RateLimited
  | .arrive retry now slot start =>
    if state.clock ≤ now ∧ now ≤ slot ∧ slot ≤ start then
      some ({ state with clock := start }.arrive limiter retry now slot start)
    else none
  | .resume number now slot start =>
    if state.clock ≤ now ∧ now ≤ slot ∧ slot ≤ start then do
      let call ← state.calls[number]?
      { state with clock := start }.resume limiter number call now slot start
    else none
  | .fail number jitter now =>
    if state.clock ≤ now then do
      let call ← state.calls[number]?
      { state with clock := now }.fail number call jitter now
    else none
  | .leave number => do
    let call ← state.calls[number]?
    some (state.leave number call)
  | .setBlocked seconds now =>
    if state.clock ≤ now then some ({ state with clock := now }.setBlocked seconds now) else none

end RateLimited

/-- Tasks inside one limiter. -/
def rateMachine : Machine RateLimited RateAction where
  init state := state = { clock := state.clock }
  step := RateLimited.step limiter

/-! ### What is asked -/

/-- No block set so far reaches beyond the start of the call. -/
def StartedCall.HeldBack (call : StartedCall) : Prop :=
  ∀ deadline ∈ call.blocks, deadline ≤ call.start

/-- **The blocks that the task did not look at are over**: those that a later one had overwritten when
it looked, and those set since. -/
structure StartedCall.Undisturbed (call : StartedCall) : Prop where
  overwritten : ∀ deadline ∈ (call.blocks.take call.checked).dropLast, deadline ≤ call.start
  setSince : ∀ deadline ∈ call.blocks.drop call.checked, deadline ≤ call.start

/-! ### The block that was looked at -/

/-- The last of the first `checked` blocks is over at a time. -/
structure Looked (blocks : List Int) (checked : Nat) (time : Int) : Prop where
  within : checked ≤ blocks.length
  ended : ∀ deadline ∈ (blocks.take checked).getLast?, deadline ≤ time

namespace Looked

variable {blocks : List Int} {checked : Nat} {time after : Int}

theorem append (looked : Looked blocks checked time) (more : List Int) :
    Looked (blocks ++ more) checked time where
  within := by
    rw [List.length_append]
    exact Nat.le_trans looked.within (Nat.le_add_right _ _)
  ended := by
    rw [List.take_append_of_le_length looked.within]
    exact looked.ended

theorem later (looked : Looked blocks checked time) (passed : time ≤ after) :
    Looked blocks checked after where
  within := looked.within
  ended deadline member := Int.le_trans (looked.ended deadline member) passed

/-- Who looks at all of them sees the last one. -/
theorem all (ended : ∀ deadline ∈ blocks.getLast?, deadline ≤ time) :
    Looked blocks blocks.length time where
  within := Nat.le_refl _
  ended := by
    rw [List.take_length]
    exact ended

end Looked

/-- **The exact condition**, for a call whose task waited for the block it looked at. -/
theorem StartedCall.heldBack_iff {call : StartedCall}
    (looked : Looked call.blocks call.checked call.start) : call.HeldBack ↔ call.Undisturbed := by
  unfold StartedCall.HeldBack
  constructor
  · intro held
    refine ⟨fun deadline member => held deadline ?_, fun deadline member => held deadline ?_⟩
    · exact List.mem_of_mem_take (List.dropLast_subset _ member)
    · exact List.mem_of_mem_drop member
  · intro undisturbed deadline member
    rw [← List.take_append_drop call.checked call.blocks, List.mem_append] at member
    rcases member with seen | since
    · by_cases last : deadline ∈ (call.blocks.take call.checked).getLast?
      · exact looked.ended deadline last
      · apply undisturbed.overwritten deadline
        have nonempty : call.blocks.take call.checked ≠ [] := List.ne_nil_of_mem seen
        rw [← List.dropLast_append_getLast nonempty, List.mem_append] at seen
        rcases seen with seen | seen
        · exact seen
        · rw [List.mem_singleton.mp seen, List.getLast?_eq_some_getLast nonempty] at last
          exact absurd rfl last
    · exact undisturbed.setSince deadline since

/-- What a waiting task knows of the block that it looked at. -/
def LimitedCall.Awaits (blocks : List Int) (clock : Int) (call : LimitedCall) : Prop :=
  match call.stage with
  | .blocked wake => Looked blocks call.checked wake
  | .throttled _ => Looked blocks call.checked clock
  | .calling | .backingOff _ | .done => True

theorem LimitedCall.Awaits.later {blocks : List Int} {clock after : Int} {call : LimitedCall}
    (awaits : call.Awaits blocks clock) (more : List Int) (passed : clock ≤ after) :
    call.Awaits (blocks ++ more) after := by
  unfold LimitedCall.Awaits at awaits ⊢
  split at awaits
  · exact awaits.append more
  · exact (awaits.append more).later passed
  · trivial
  · trivial
  · trivial

/-! ### One step -/

/-- **What holds in every run**: the deadline is that of the last block, and every task waits, or has
waited, for the one that it looked at. -/
structure RateLimited.Guarded (state : RateLimited) : Prop where
  current : ∀ deadline ∈ state.blocks.getLast?, deadline = state.blockedUntil
  waiting : ∀ call ∈ state.calls, call.Awaits state.blocks state.clock
  waited : ∀ call ∈ state.started, Looked call.blocks call.checked call.start

namespace RateLimited.Guarded

variable (limiter : GlobalRateLimiter) {state next : RateLimited} {call : LimitedCall}
  {now slot start : Int}

/-- Another task in place of one. -/
theorem put (guarded : state.Guarded) (number : Nat) (awaits : call.Awaits state.blocks state.clock) :
    (state.put number call).Guarded where
  current := guarded.current
  waiting other member := by
    rcases List.mem_or_eq_of_mem_set member with old | rfl
    · exact guarded.waiting other old
    · exact awaits
  waited := guarded.waited

theorem concat (guarded : state.Guarded) (awaits : call.Awaits state.blocks state.clock) :
    RateLimited.Guarded { state with calls := state.calls ++ [call] } where
  current := guarded.current
  waiting := List.forall_mem_append.mpr ⟨guarded.waiting, by simpa using awaits⟩
  waited := guarded.waited

/-- Time passes. -/
theorem tick (guarded : state.Guarded) (passed : state.clock ≤ now) :
    RateLimited.Guarded { state with clock := now } where
  current := guarded.current
  waiting other member := by
    have awaits := (guarded.waiting other member).later [] passed
    rwa [List.append_nil] at awaits
  waited := guarded.waited

theorem setBlocked (guarded : state.Guarded) (seconds : Int) :
    (state.setBlocked seconds now).Guarded where
  current deadline member := by
    rw [RateLimited.setBlocked, List.getLast?_concat] at member
    exact (Option.some.inj member).symm
  waiting other member := (guarded.waiting other member).later _ (Int.le_refl _)
  waited := guarded.waited

/-- **A proactive slot** leaves the block alone, and starts the call behind the block looked at. -/
theorem acquireProactiveSlot (guarded : state.Guarded)
    (looked : Looked state.blocks call.checked slot) (first : slot ≤ start)
    (passed : start = state.clock) :
    (state.acquireProactiveSlot limiter call slot start).1.Guarded ∧
      (state.acquireProactiveSlot limiter call slot start).2.Awaits
        (state.acquireProactiveSlot limiter call slot start).1.blocks
        (state.acquireProactiveSlot limiter call slot start).1.clock := by
  unfold RateLimited.acquireProactiveSlot
  split
  · exact ⟨⟨guarded.current, guarded.waiting, guarded.waited⟩, looked.later (passed ▸ first)⟩
  · split
    · exact ⟨⟨guarded.current, guarded.waiting, guarded.waited⟩, trivial⟩
    · refine ⟨⟨guarded.current, guarded.waiting, ?_⟩, trivial⟩
      exact List.forall_mem_append.mpr ⟨guarded.waited, by simpa using looked.later first⟩

/-- **A look at the block.** -/
theorem waitIfBlocked (guarded : state.Guarded) (call : LimitedCall) (first : now ≤ slot)
    (second : slot ≤ start) (passed : start = state.clock) :
    (state.waitIfBlocked limiter call now slot start).1.Guarded ∧
      (state.waitIfBlocked limiter call now slot start).2.Awaits
        (state.waitIfBlocked limiter call now slot start).1.blocks
        (state.waitIfBlocked limiter call now slot start).1.clock := by
  unfold RateLimited.waitIfBlocked
  dsimp only
  split_ifs with blocked
  · refine ⟨guarded, ?_⟩
    show Looked state.blocks state.blocks.length state.blockedUntil
    exact .all fun deadline member => Int.le_of_eq (guarded.current deadline member)
  · refine guarded.acquireProactiveSlot limiter (.all fun deadline member => ?_) second passed
    rw [guarded.current deadline member]
    exact Int.le_trans (Int.not_lt.mp blocked) first

theorem arrive (guarded : state.Guarded) (retry : Option RetrySettings) (first : now ≤ slot)
    (second : slot ≤ start) (passed : start = state.clock) :
    (state.arrive limiter retry now slot start).Guarded := by
  obtain ⟨kept, awaits⟩ := guarded.waitIfBlocked limiter
    ⟨retry, 0, .done, 0⟩ first second passed
  exact kept.concat awaits

theorem resume (guarded : state.Guarded) {number : Nat} (member : call ∈ state.calls)
    (first : now ≤ slot) (second : slot ≤ start) (passed : start = state.clock)
    (woken : ∀ wake, call.stage = .throttled wake → Looked state.blocks call.checked slot)
    (resumed : state.resume limiter number call now slot start = some next) : next.Guarded := by
  have awaits := guarded.waiting call member
  unfold RateLimited.resume at resumed
  split at resumed
  · rename_i wake here
    split_ifs at resumed with early
    obtain rfl := Option.some.inj resumed
    have looked : Looked state.blocks call.checked slot := by
      rw [LimitedCall.Awaits, here] at awaits
      exact awaits.later (Int.le_trans (Int.not_lt.mp early) first)
    obtain ⟨kept, awaits⟩ := guarded.acquireProactiveSlot limiter looked second passed
    exact kept.put number awaits
  · rename_i wake here
    split_ifs at resumed
    obtain rfl := Option.some.inj resumed
    obtain ⟨kept, awaits⟩ :=
      guarded.acquireProactiveSlot limiter (woken wake here) second passed
    exact kept.put number awaits
  · split_ifs at resumed
    obtain rfl := Option.some.inj resumed
    obtain ⟨kept, awaits⟩ := guarded.waitIfBlocked limiter
      { call with attempt := call.attempt + 1 } first second passed
    exact kept.put number awaits
  · cases resumed
  · cases resumed

theorem fail (guarded : state.Guarded) {number : Nat} {jitter : Int}
    (failed : state.fail number call jitter now = some next) : next.Guarded := by
  unfold RateLimited.fail at failed
  split at failed
  · split_ifs at failed
    · obtain rfl := Option.some.inj failed
      exact guarded.put number trivial
    · obtain rfl := Option.some.inj failed
      exact (guarded.setBlocked _).put number trivial
  · cases failed

theorem step (guarded : state.Guarded) {action : RateAction}
    (stepped : state.step limiter action = some next) : next.Guarded := by
  cases action with
  | arrive retry now slot start =>
    rw [RateLimited.step, Option.ite_none_right_eq_some] at stepped
    obtain ⟨⟨before, first, second⟩, same⟩ := stepped
    obtain rfl := Option.some.inj same
    have passed := Int.le_trans before (Int.le_trans first second)
    exact (guarded.tick passed).arrive limiter retry first second rfl
  | resume number now slot start =>
    rw [RateLimited.step, Option.ite_none_right_eq_some] at stepped
    obtain ⟨⟨before, first, second⟩, stepped⟩ := stepped
    obtain ⟨call, found, resumed⟩ := Option.bind_eq_some_iff.mp stepped
    have member := List.mem_of_getElem? found
    have passed := Int.le_trans before (Int.le_trans first second)
    refine (guarded.tick passed).resume limiter member first second rfl ?_ resumed
    intro wake here
    have awaits := guarded.waiting call member
    rw [LimitedCall.Awaits, here] at awaits
    exact awaits.later (Int.le_trans before first)
  | fail number jitter now =>
    rw [RateLimited.step, Option.ite_none_right_eq_some] at stepped
    obtain ⟨before, stepped⟩ := stepped
    obtain ⟨call, -, failed⟩ := Option.bind_eq_some_iff.mp stepped
    exact (guarded.tick before).fail failed
  | leave number =>
    obtain ⟨call, -, same⟩ := Option.bind_eq_some_iff.mp stepped
    obtain rfl := Option.some.inj same
    exact guarded.put number trivial
  | setBlocked seconds now =>
    rw [RateLimited.step, Option.ite_none_right_eq_some] at stepped
    obtain ⟨before, same⟩ := stepped
    obtain rfl := Option.some.inj same
    exact (guarded.tick before).setBlocked seconds

end RateLimited.Guarded

/-! ### Every run -/

theorem guarded_of_reachable {limiter : GlobalRateLimiter} {state : RateLimited}
    (reached : (rateMachine limiter).Reachable Machine.unguarded state) : state.Guarded := by
  refine Machine.Reachable.invariant ?_ ?_ reached
  · intro state start
    rw [start]
    exact ⟨by simp, by simp, by simp⟩
  · intro state action next guarded _ stepped
    exact guarded.step limiter stepped

/-- **The reactive block, exactly.** In every run, the upstream calls all start behind every block set
so far exactly when each of them starts behind those that its task did not look at. -/
theorem held_back_iff (limiter : GlobalRateLimiter) {state : RateLimited}
    (reached : (rateMachine limiter).Reachable Machine.unguarded state) :
    (∀ call ∈ state.started, call.HeldBack) ↔ ∀ call ∈ state.started, call.Undisturbed := by
  have guarded := guarded_of_reachable reached
  exact forall₂_congr fun call member => StartedCall.heldBack_iff (guarded.waited call member)

/-- A limiter of forty requests a minute; a tick is a second. -/
def providerLimiter : GlobalRateLimiter := ⟨40, 60, by decide, by decide⟩

/-- The settings of an upstream call. -/
def providerRetry : RetrySettings := ⟨4, 2, 60⟩

/-- A task arrives during a block of a minute and sleeps until its end. -/
def waitedBlock : List RateAction :=
  [.setBlocked 60 0, .arrive (some providerRetry) 1 1 1, .resume 0 60 60 60]

theorem waitedBlock_holds_back : ∃ state, (rateMachine providerLimiter).run {} waitedBlock = some state ∧
    state.started = [⟨60, [60], 1⟩] ∧ ∀ call ∈ state.started, call.HeldBack := by
  have shape : ((rateMachine providerLimiter).run {} waitedBlock).map (·.started) =
      some [⟨60, [60], 1⟩] := by
    decide
  obtain ⟨state, ran, same⟩ := Option.map_eq_some_iff.mp shape
  have reached := Machine.reachable_of_run_unguarded waitedBlock rfl ran
  refine ⟨state, ran, same, (held_back_iff providerLimiter reached).mpr ?_⟩
  rw [same]
  intro call member
  obtain rfl := List.mem_singleton.mp member
  exact ⟨by simp, by simp⟩

/-- During a block of a minute, a retry backoff of two seconds sets its own. -/
def shortenedBlock : List RateAction :=
  [.arrive (some providerRetry) 0 0 0, .setBlocked 60 1, .fail 0 0 2, .resume 0 4 4 4]

/-- **The retry then starts while the minute is not over.** -/
theorem shortenedBlock_starts_early :
    ¬ ∀ limiter state, (rateMachine limiter).Reachable Machine.unguarded state →
      ∀ call ∈ state.started, call.HeldBack := by
  intro claimed
  have shape : ((rateMachine providerLimiter).run {} shortenedBlock).map (·.started) =
      some [⟨0, [], 0⟩, ⟨4, [61, 4], 2⟩] := by
    decide
  obtain ⟨state, ran, same⟩ := Option.map_eq_some_iff.mp shape
  have reached := Machine.reachable_of_run_unguarded shortenedBlock rfl ran
  have held := claimed providerLimiter state reached ⟨4, [61, 4], 2⟩ (by rw [same]; simp)
  exact absurd (held 61 (by simp)) (by decide)

end ClaudeProxy
