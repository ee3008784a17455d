/-
**The strict sliding window** (`core/rate_limit.py`).

* `StrictSlidingWindowLimiter` — the limits, which `__init__` checks; times are rational seconds of the
  monotonic clock.
* `acquireRound` — one pass through the loop of `acquire`. Nothing is awaited under the lock, so a pass
  is one step.
* `AcquireCalls`, `acquireMachine` — any number of `acquire` calls, whose passes, sleeps and
  cancellations follow each other in any order; the clock never goes back. A call may go on at any
  time: nothing rests on how long it sleeps.
* `Counted` — the deque is the record of all acquisitions, but for those that are a window old, and
  the record keeps its distance.
* **`window_holds_no_more`** — no half-open interval as long as the window holds more acquisitions than
  the limit.
* `acquire_ticks` — the provider limiter's pass, which counts ticks, is this one.
-/

import ClaudeProxy.Library.Spacing
import ClaudeProxy.Provider.RateLimit
import ClaudeProxy.Python
import Mathlib.Algebra.Order.Ring.Unbundled.Rat
import Mathlib.Data.Rat.Cast.Order
import Mathlib.Tactic.Linarith

namespace ClaudeProxy

/-! ### The limiter -/

structure StrictSlidingWindowLimiter where
  rateLimit : Nat
  rateWindow : ℚ
  limited : 0 < rateLimit
  lasting : 0 < rateWindow

namespace StrictSlidingWindowLimiter

/-- `__init__`. -/
def make (rateLimit : Int) (rateWindow : ℚ) : Except PyError StrictSlidingWindowLimiter :=
  if limited : rateLimit ≤ 0 then .error (.valueError "rate_limit must be > 0")
  else if lasting : rateWindow ≤ 0 then .error (.valueError "rate_window must be > 0")
  else .ok ⟨rateLimit.toNat, rateWindow, by omega, not_le.mp lasting⟩

variable (limiter : StrictSlidingWindowLimiter)

/-- One pass of `acquire`: the deque afterwards, and how long to wait where no slot is free. -/
def acquireRound (times : List ℚ) (now : ℚ) : List ℚ × Option ℚ :=
  let cutoff := now - limiter.rateWindow
  let times := times.dropWhile fun time => time ≤ cutoff
  if times.length < limiter.rateLimit then (times ++ [now], none)
  else (times, some (max 0 (times.headD now + limiter.rateWindow - now)))

end StrictSlidingWindowLimiter

/-- Where an `acquire` call is: about to read the clock, asleep, or through. -/
inductive AcquireStage where
  | running
  | sleeping (seconds : ℚ)
  | returned
  | cancelled
  deriving DecidableEq

/-- A call that may go on. -/
def AcquireStage.active : AcquireStage → Bool
  | .running | .sleeping _ => true
  | .returned | .cancelled => false

/-- The limiter's deque and its calls; `acquired` records every acquisition so far. -/
structure AcquireCalls where
  clock : ℚ := 0
  times : List ℚ := []
  calls : List AcquireStage := []
  acquired : List ℚ := []
  deriving DecidableEq

inductive AcquireAction where
  | acquire
  | pass (call : Nat) (now : ℚ)
  | cancel (call : Nat)
  deriving DecidableEq

namespace AcquireCalls

variable (limiter : StrictSlidingWindowLimiter)

/-- A call passes through the loop once, at a time that is not before the last one read. -/
def pass (state : AcquireCalls) (call : Nat) (now : ℚ) : AcquireCalls :=
  match limiter.acquireRound state.times now with
  | (times, none) =>
    { clock := now, times, calls := state.calls.set call .returned,
      acquired := state.acquired ++ [now] }
  | (times, some wait) =>
    { state with clock := now, times, calls := state.calls.set call (.sleeping wait) }

def step (state : AcquireCalls) : AcquireAction → Option AcquireCalls
  | .acquire => some { state with calls := state.calls ++ [.running] }
  | .pass call now =>
    if state.calls[call]?.any AcquireStage.active ∧ state.clock ≤ now then
      some (state.pass limiter call now)
    else none
  | .cancel call =>
    if state.calls[call]?.any AcquireStage.active then
      some { state with calls := state.calls.set call .cancelled }
    else none

end AcquireCalls

/-- `acquire` calls on one limiter. -/
def acquireMachine (limiter : StrictSlidingWindowLimiter) :
    Machine AcquireCalls AcquireAction where
  init state := state = { clock := state.clock }
  step := AcquireCalls.step limiter

/-! ### What holds in every run -/

/-- **The deque is the record, but for what is a window old**, and any acquisition and the one the
limit places after it are a window apart. -/
structure Counted (limiter : StrictSlidingWindowLimiter) (state : AcquireCalls) : Prop where
  ordered : state.acquired.Pairwise (· ≤ ·)
  past : ∀ time ∈ state.acquired, time ≤ state.clock
  pruned : Pruned (· + limiter.rateWindow ≤ state.clock) state.acquired state.times
  spaced : Spaced limiter.rateLimit limiter.rateWindow state.acquired

namespace Counted

variable {limiter : StrictSlidingWindowLimiter} {state next : AcquireCalls}

/-- **One pass.** -/
theorem pass (counted : Counted limiter state) (call : Nat) {now : ℚ} (passed : state.clock ≤ now) :
    Counted limiter (state.pass limiter call now) := by
  have past : ∀ time ∈ state.acquired, time ≤ now :=
    fun time member => (counted.past time member).trans passed
  have later : Pruned (· + limiter.rateWindow ≤ now) state.acquired state.times :=
    counted.pruned.mono fun time old => old.trans passed
  have pruned := @Pruned.dropWhile _ _ _ _ later
    (fun time => decide (time ≤ now - limiter.rateWindow)) fun time drops => by
      have old := of_decide_eq_true drops
      linarith
  unfold AcquireCalls.pass StrictSlidingWindowLimiter.acquireRound
  dsimp only
  split
  · rename_i times same
    split_ifs at same with room
    · obtain ⟨rfl, -⟩ := Prod.mk.inj same
      refine ⟨?_, ?_, pruned.append [now], counted.spaced.concat limiter.limited ?_⟩
      · refine List.pairwise_append.mpr ⟨counted.ordered, List.pairwise_singleton _ _, ?_⟩
        intro time member other last
        rw [List.mem_singleton.mp last]
        exact past time member
      · exact List.forall_mem_append.mpr ⟨past, by simp⟩
      · intro place early back here
        exact pruned.room room back here
    · cases (Prod.mk.inj same).2
  · rename_i times wait same
    split_ifs at same with room
    · cases (Prod.mk.inj same).2
    · obtain ⟨rfl, -⟩ := Prod.mk.inj same
      exact ⟨counted.ordered, past, pruned, counted.spaced⟩

theorem step (counted : Counted limiter state) {action : AcquireAction}
    (stepped : state.step limiter action = some next) : Counted limiter next := by
  cases action with
  | acquire =>
    obtain rfl := Option.some.inj stepped
    exact ⟨counted.ordered, counted.past, counted.pruned, counted.spaced⟩
  | pass call now =>
    obtain ⟨⟨-, passed⟩, same⟩ := Option.ite_none_right_eq_some.mp stepped
    obtain rfl := Option.some.inj same
    exact counted.pass call passed
  | cancel call =>
    obtain ⟨-, same⟩ := Option.ite_none_right_eq_some.mp stepped
    obtain rfl := Option.some.inj same
    exact ⟨counted.ordered, counted.past, counted.pruned, counted.spaced⟩

end Counted

theorem held_counted_of_reachable {limiter : StrictSlidingWindowLimiter} {state : AcquireCalls}
    (reached : (acquireMachine limiter).Reachable Machine.unguarded state) :
    Counted limiter state := by
  refine Machine.Reachable.invariant ?_ ?_ reached
  · intro state start
    rw [start]
    exact ⟨List.Pairwise.nil, by simp, Pruned.refl, Spaced.nil⟩
  · intro state action next counted _ stepped
    exact counted.step stepped

/-- **The window holds no more than the limit**: in every run, no half-open interval of its length,
closed on either side, has more acquisitions than the limit. -/
theorem window_holds_no_more (limiter : StrictSlidingWindowLimiter) {state : AcquireCalls}
    (reached : (acquireMachine limiter).Reachable Machine.unguarded state) (first : ℚ) :
    (state.acquired.filter fun time => first ≤ time ∧ time < first + limiter.rateWindow).length ≤
        limiter.rateLimit ∧
      (state.acquired.filter fun time =>
        first < time ∧ time ≤ first + limiter.rateWindow).length ≤ limiter.rateLimit := by
  have counted := held_counted_of_reachable reached
  constructor
  · refine counted.spaced.length_filter_le counted.ordered ?_
    intro early late inside after
    have begins := (of_decide_eq_true inside).1
    have ends := (of_decide_eq_true after).2
    linarith
  · refine counted.spaced.length_filter_le counted.ordered ?_
    intro early late inside after
    have begins := (of_decide_eq_true inside).1
    have ends := (of_decide_eq_true after).2
    linarith

/-- Two calls at once, with room for one: the second is let in a window later. -/
def twoCalls : List AcquireAction :=
  [.acquire, .acquire, .pass 0 0, .pass 1 0, .pass 1 (1 / 2), .pass 1 1]

theorem twoCalls_hold_no_more : ∃ state,
    (acquireMachine ⟨1, 1, by decide, by decide⟩).run {} twoCalls = some state ∧
    state.acquired = [0, 1] ∧
    (state.acquired.filter fun time => 0 ≤ time ∧ time < 0 + 1).length ≤ 1 ∧
      (state.acquired.filter fun time => 0 < time ∧ time ≤ 0 + 1).length ≤ 1 := by
  have shape : ((acquireMachine ⟨1, 1, by decide, by decide⟩).run {} twoCalls).map (·.acquired) =
      some [0, 1] := by
    decide +kernel
  obtain ⟨state, ran, same⟩ := Option.map_eq_some_iff.mp shape
  have reached := Machine.reachable_of_run_unguarded twoCalls rfl ran
  exact ⟨state, ran, same, window_holds_no_more ⟨1, 1, by decide, by decide⟩ reached 0⟩

/-! ### The provider limiter -/

/-- The window of the provider limiter, a tick being a second. -/
def GlobalRateLimiter.window (limiter : GlobalRateLimiter) : StrictSlidingWindowLimiter where
  rateLimit := limiter.rateLimit
  rateWindow := limiter.rateWindow
  limited := limiter.limited
  lasting := by exact_mod_cast limiter.lasting

/-- **The pass that counts ticks** is the pass of its window. -/
theorem acquire_ticks (limiter : GlobalRateLimiter) (times : List Int) (now : Int) :
    limiter.window.acquireRound (times.map Int.cast) now =
      ((limiter.acquire times now).1.map Int.cast, (limiter.acquire times now).2.map Int.cast) := by
  have kept : (times.map (Int.cast : Int → ℚ)).dropWhile
        (fun time => decide (time ≤ (now : ℚ) - limiter.window.rateWindow)) =
      (times.dropWhile fun time => decide (time ≤ now - limiter.rateWindow)).map Int.cast := by
    rw [List.dropWhile_map]
    congr 2
    funext time
    rw [Function.comp_apply, decide_eq_decide]
    show (time : ℚ) ≤ (now : ℚ) - (limiter.rateWindow : ℚ) ↔ _
    norm_cast
  unfold StrictSlidingWindowLimiter.acquireRound GlobalRateLimiter.acquire
  dsimp only
  rw [kept, List.length_map]
  split_ifs with room full
  · simp
  · exact absurd room full
  · exact absurd ‹_› room
  · cases times.dropWhile fun time => decide (time ≤ now - limiter.rateWindow) with
    | nil => simp [GlobalRateLimiter.window]
    | cons oldest rest => simp [GlobalRateLimiter.window]

end ClaudeProxy
