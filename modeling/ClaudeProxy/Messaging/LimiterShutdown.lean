/-
**The end of the messaging rate limiter's worker** (`messaging/limiter.py`).

* `Awaited` — a future that is still pending and belongs to a call made before `shutdown` returned.
* `Accounted` — every pending future is in the queue or in the worker's hands.
* `EndsEmpty` — a step that ends the worker finds no awaited future in either place, and nothing is
  enqueued between the worker's end and the return of `shutdown`.
* **`leaves_none_waiting_iff`** — a run leaves no caller waiting behind a worker that has ended exactly
  when all its steps end it empty; `queuedEdit_waits_forever` — one edit enqueued before `shutdown`.
-/

import ClaudeProxy.Messaging.LimiterWorker

namespace ClaudeProxy

variable {κ ρ : Type} [DecidableEq κ]

/-! ### What is asked -/

namespace LimiterProcess

/-- The call was made before `shutdown` returned, and its caller still waits. -/
def Awaited (process : LimiterProcess κ ρ) (future : Nat) : Prop :=
  process.futures[future]? = some .pending ∧ ∀ calls, process.closedAt = some calls → future < calls

/-- **Nobody waits for ever**: once the worker has ended, no caller waits. -/
def LeavesNoneWaiting (process : LimiterProcess κ ρ) : Prop :=
  process.stage = .stopped → ∀ future, ¬ process.Awaited future

end LimiterProcess

namespace Limiter

/-- The future is in the queue. -/
def InQueue (limiter : Limiter κ) (future : Nat) : Prop :=
  ∃ key func futures, limiter.queueMap.get? key = some (func, futures) ∧ future ∈ futures

omit [DecidableEq κ] in
/-- The worker holds the future. -/
def InHands (limiter : Limiter κ) (future : Nat) : Prop :=
  ∃ task, limiter.worker = some task ∧ future ∈ task.futures

end Limiter

/-- A worker that takes a key holds nothing. -/
theorem Limiter.idle_of_pop {limiter next : Limiter κ} (popped : limiter.pop = some next) :
    limiter.worker = none := by
  unfold Limiter.pop at popped
  split at popped
  · assumption
  · cases popped

/-- What the steps that end the worker, and the calls behind its end, have to find. -/
def EndsEmpty (process : LimiterProcess κ ρ) (action : WorkerAction κ ρ) : Prop :=
  match action with
  | .enqueue _ => process.stage = .stopped → process.closedAt.isSome
  | .notice | .cancelled => ∀ future,
      process.limiter.InQueue future ∨ process.limiter.InHands future → ¬ process.Awaited future
  | _ => True

/-! ### The invariant -/

/-- **Every pending future is in the queue or in the worker's hands.** -/
structure Accounted (process : LimiterProcess κ ρ) : Prop where
  length : process.futures.length = process.limiter.calls.length
  closed : ∀ calls, process.closedAt = some calls → calls ≤ process.limiter.calls.length
  somewhere : ∀ future, process.futures[future]? = some .pending →
    process.limiter.InQueue future ∨ process.limiter.InHands future

namespace Accounted

variable {process next : LimiterProcess κ ρ}

theorem enqueue (accounted : Accounted process) (key : κ) : Accounted (process.enqueue key) := by
  obtain ⟨queueMap, worker, calls⟩ := process.limiter.enqueue_spec key
  have longer : (process.limiter.enqueue key).calls.length = process.limiter.calls.length + 1 := by
    rw [calls, List.length_append]
    rfl
  refine ⟨?_, ?_, ?_⟩
  · show (process.futures ++ [FutureState.pending]).length = (process.limiter.enqueue key).calls.length
    rw [longer, List.length_append, accounted.length]
    rfl
  · intro closed same
    show closed ≤ (process.limiter.enqueue key).calls.length
    have before := accounted.closed closed same
    omega
  · intro future pending
    replace pending : (process.futures ++ [FutureState.pending])[future]? = some .pending := pending
    show (process.limiter.enqueue key).InQueue future ∨ (process.limiter.enqueue key).InHands future
    -- The futures under the key stay under it, and the new one joins them.
    have joined : future ∈ process.limiter.awaiting key ++ [process.limiter.calls.length] →
        (process.limiter.enqueue key).InQueue future :=
      fun member => ⟨key, _, _, (queueMap key).trans (if_pos rfl), member⟩
    rcases Nat.lt_or_ge future process.futures.length with old | new
    · rw [List.getElem?_append_left old] at pending
      rcases accounted.somewhere future pending with ⟨other, func, futures, there, member⟩ | held
      · left
        by_cases same : other = key
        · apply joined
          rw [List.mem_append]
          left
          unfold Limiter.awaiting
          rw [← same, there]
          exact member
        · exact ⟨other, func, futures, (queueMap other).trans ((if_neg same).trans there), member⟩
      · obtain ⟨task, there, member⟩ := held
        exact .inr ⟨task, worker.trans there, member⟩
    · left
      apply joined
      have inside := (List.getElem?_eq_some_iff.mp pending).1
      rw [List.length_append, List.length_singleton] at inside
      rw [List.mem_append, List.mem_singleton]
      right
      have length := accounted.length
      omega

theorem pop (accounted : Accounted process) {now : Int} (popped : process.pop now = some next) :
    Accounted next := by
  obtain ⟨-, -, taken, stage, -, same⟩ := LimiterProcess.pop_cases popped
  have idle := Limiter.idle_of_pop taken
  obtain ⟨calls, moved⟩ := Limiter.pop_cases taken
  have length := congrArg List.length calls
  rw [same]
  refine ⟨accounted.length.trans length.symm, ?_, ?_⟩
  · intro closed there
    exact (accounted.closed closed there).trans (Nat.le_of_eq length.symm)
  · intro future pending
    have before := accounted.somewhere future pending
    rcases before with ⟨key, func, futures, there, member⟩ | ⟨task, held, -⟩
    · rcases moved with ⟨first, firstFunc, firstFutures, found, erased, worker⟩ | ⟨sameMap, -⟩
      · by_cases first_ : key = first
        · right
          rw [first_, found] at there
          obtain ⟨-, rfl⟩ := Prod.mk.inj (Option.some.inj there)
          exact ⟨_, worker, member⟩
        · left
          refine ⟨key, func, futures, ?_, member⟩
          show next.limiter.queueMap.get? key = _
          rw [erased, Dict.get?_erase, if_neg first_]
          exact there
      · exact .inl ⟨key, func, futures, by rw [sameMap]; exact there, member⟩
    · rw [idle] at held
      cases held

theorem finish (accounted : Accounted process) {outcome : Except SendError ρ} {now : Int}
    (finished : process.finish outcome now = some next) : Accounted next := by
  obtain ⟨task, settled, -, held, same, freed, after⟩ := LimiterProcess.finish_cases finished
  obtain ⟨queueMap, -, calls, -⟩ := Limiter.finish_spec freed
  obtain ⟨states, length, -⟩ :=
    LimiterProcess.settle_foldl_spec task.func outcome task.futures process
  obtain ⟨-, -, closedAt⟩ :=
    @LimiterProcess.settle_foldl_rest κ ρ process task.func outcome task.futures
  rw [← same] at states length closedAt
  rw [after]
  refine ⟨(length.trans accounted.length).trans calls.symm, ?_, ?_⟩
  · intro closed there
    exact (accounted.closed closed (closedAt.symm.trans there)).trans (Nat.le_of_eq calls.symm)
  · intro future pending
    replace pending : settled.futures[future]? = some .pending := pending
    rw [states] at pending
    split_ifs at pending with answered
    · cases pending
    rcases accounted.somewhere future pending with ⟨key, func, futures, there, member⟩ | hands
    · exact .inl ⟨key, func, futures, by rw [queueMap]; exact there, member⟩
    · -- What the worker held has been answered.
      obtain ⟨other, there, member⟩ := hands
      obtain rfl := Option.some.inj (held.symm.trans there)
      exact absurd ⟨member, pending⟩ answered

/-- A step that leaves the queue alone and makes no future pending. -/
theorem frame (accounted : Accounted process) (limiter : next.limiter = process.limiter)
    (length : next.futures.length = process.futures.length)
    (pending : ∀ future : Nat, next.futures[future]? = some .pending →
      process.futures[future]? = some .pending)
    (closed : ∀ calls, next.closedAt = some calls → calls ≤ process.limiter.calls.length) :
    Accounted next := by
  refine ⟨?_, ?_, ?_⟩
  · rw [length, limiter]
    exact accounted.length
  · rw [limiter]
    exact closed
  · rw [limiter]
    exact fun future here => accounted.somewhere future (pending future here)

end Accounted

namespace LimiterProcess

variable {process next : LimiterProcess κ ρ}

omit [DecidableEq κ] in
/-- What a caller's cancellation leaves pending was pending. -/
theorem pending_of_abandon {future other : Nat}
    (pending : (process.abandon future).futures[other]? = some .pending) :
    process.futures[other]? = some .pending := by
  unfold abandon at pending
  split_ifs at pending with here
  · by_cases same : future = other
    · subst same
      have inside := (List.getElem?_eq_some_iff.mp here).1
      replace pending : (process.futures.set future .cancelled)[future]? = some .pending := pending
      rw [List.getElem?_set_self inside] at pending
      cases pending
    · replace pending : (process.futures.set future .cancelled)[other]? = some .pending := pending
      rw [List.getElem?_set_ne same] at pending
      exact pending
  · exact pending

omit [DecidableEq κ] in
theorem abandon_rest (process : LimiterProcess κ ρ) (future : Nat) :
    (process.abandon future).limiter = process.limiter ∧
      (process.abandon future).stage = process.stage ∧
      (process.abandon future).closedAt = process.closedAt ∧
      (process.abandon future).futures.length = process.futures.length := by
  unfold abandon
  split_ifs
  · exact ⟨rfl, rfl, rfl, List.length_set⟩
  · exact ⟨rfl, rfl, rfl, rfl⟩

/-- **How the worker ends.** -/
theorem ends_eq {action : WorkerAction κ ρ} (ends : action = .notice ∨ action = .cancelled)
    (stepped : process.step action = some next) : next = { process with stage := .stopped } := by
  rcases ends with rfl | rfl
  · rw [step, Option.ite_none_right_eq_some] at stepped
    exact (advance_eq stepped.2).2
  · rw [step, Option.ite_none_right_eq_some] at stepped
    exact (Option.some.inj stepped.2).symm

/-- **What the return of `shutdown` does**: the calls before the first one count. -/
theorem close_eq (stepped : process.step .close = some next) :
    next = { process with
      closedAt := process.closedAt.or (some process.limiter.calls.length) } := by
  rw [step, Option.ite_none_right_eq_some] at stepped
  exact (Option.some.inj stepped.2).symm

end LimiterProcess

/-- **One step accounts for every future.** -/
theorem Accounted.step {process next : LimiterProcess κ ρ} {action : WorkerAction κ ρ}
    (accounted : Accounted process) (stepped : process.step action = some next) :
    Accounted next := by
  cases action with
  | enqueue key =>
    obtain rfl := Option.some.inj stepped
    exact accounted.enqueue key
  | abandon future =>
    obtain rfl := Option.some.inj stepped
    obtain ⟨limiter, -, closedAt, length⟩ := process.abandon_rest future
    refine accounted.frame limiter length (fun _ => LimiterProcess.pending_of_abandon) ?_
    intro calls there
    exact accounted.closed calls (closedAt.symm.trans there)
  | pop now => exact accounted.pop stepped
  | wake | letPass | recover =>
    rw [(LimiterProcess.advance_eq stepped).2]
    exact accounted.frame rfl rfl (fun _ here => here) accounted.closed
  | finish outcome now => exact accounted.finish stepped
  | notice =>
    rw [LimiterProcess.ends_eq (.inl rfl) stepped]
    exact accounted.frame rfl rfl (fun _ here => here) accounted.closed
  | cancelled =>
    rw [LimiterProcess.ends_eq (.inr rfl) stepped]
    exact accounted.frame rfl rfl (fun _ here => here) accounted.closed
  | shutdown =>
    obtain rfl := Option.some.inj stepped
    exact accounted.frame rfl rfl (fun _ here => here) accounted.closed
  | close =>
    rw [LimiterProcess.close_eq stepped]
    refine accounted.frame rfl rfl (fun _ here => here) ?_
    intro calls there
    replace there : process.closedAt.or (some process.limiter.calls.length) = some calls := there
    cases closedAt : process.closedAt with
    | none =>
      rw [closedAt] at there
      exact Nat.le_of_eq (Option.some.inj there).symm
    | some before =>
      rw [closedAt] at there
      exact accounted.closed calls (closedAt.trans there)

/-! ### Exactness -/

namespace LimiterProcess

variable {process next : LimiterProcess κ ρ}

omit [DecidableEq κ] in
theorem leavesNoneWaiting_of_runs (runs : process.stage ≠ .stopped) : process.LeavesNoneWaiting :=
  fun stopped => absurd stopped runs

omit [DecidableEq κ] in
/-- A function that is through does not end the worker. -/
theorem resumed_runs (process : LimiterProcess κ ρ) (now : Int) (outcome : Except SendError ρ) :
    (process.resumed now outcome).1 ≠ .stopped := by
  cases outcome with
  | ok result => exact WorkerStage.noConfusion
  | error error =>
    unfold resumed
    dsimp only
    split_ifs
    · cases error.seconds <;> exact WorkerStage.noConfusion
    · exact WorkerStage.noConfusion

/-- A call behind the worker's end waits, unless `shutdown` has returned. -/
theorem enqueue_leaves_iff (accounted : Accounted process) (leaves : process.LeavesNoneWaiting)
    (key : κ) : (process.enqueue key).LeavesNoneWaiting ↔ EndsEmpty process (.enqueue key) := by
  constructor
  · intro after stopped
    by_contra open_
    have never := Option.not_isSome_iff_eq_none.mp open_
    refine after stopped process.futures.length ⟨List.getElem?_concat_length, ?_⟩
    intro calls there
    cases never.symm.trans there
  · rintro returned stopped future ⟨pending, before⟩
    obtain ⟨calls, there⟩ := Option.isSome_iff_exists.mp (returned stopped)
    have early : future < process.futures.length := by
      rw [accounted.length]
      exact (before calls there).trans_le (accounted.closed calls there)
    replace pending : (process.futures ++ [FutureState.pending])[future]? = some .pending := pending
    rw [List.getElem?_append_left early] at pending
    exact leaves stopped future ⟨pending, before⟩

/-- **A step keeps the property exactly when it ends the worker empty.** -/
theorem step_leaves_iff {action : WorkerAction κ ρ} (accounted : Accounted process)
    (leaves : process.LeavesNoneWaiting) (stepped : process.step action = some next) :
    next.LeavesNoneWaiting ↔ EndsEmpty process action := by
  have ended (ends : action = .notice ∨ action = .cancelled) :
      next.LeavesNoneWaiting ↔ ∀ future,
        process.limiter.InQueue future ∨ process.limiter.InHands future → ¬ process.Awaited future := by
    rw [ends_eq ends stepped]
    constructor
    · intro nobody future _
      exact nobody rfl future
    · intro nobody _ future waits
      exact nobody future (accounted.somewhere future waits.1) waits
  cases action with
  | enqueue key =>
    obtain rfl := Option.some.inj stepped
    exact enqueue_leaves_iff accounted leaves key
  | abandon future =>
    obtain rfl := Option.some.inj stepped
    obtain ⟨-, stage, closedAt, -⟩ := process.abandon_rest future
    refine iff_of_true ?_ trivial
    rintro stopped other ⟨pending, before⟩
    rw [stage] at stopped
    rw [closedAt] at before
    exact leaves stopped other ⟨pending_of_abandon pending, before⟩
  | pop now =>
    obtain ⟨-, -, -, stage, runs, same⟩ := pop_cases stepped
    rw [same]
    exact iff_of_true (leavesNoneWaiting_of_runs runs) trivial
  | wake | letPass | recover =>
    rw [(advance_eq stepped).2]
    exact iff_of_true (leavesNoneWaiting_of_runs WorkerStage.noConfusion) trivial
  | finish outcome now =>
    obtain ⟨task, settled, -, -, -, -, after⟩ := finish_cases stepped
    rw [after]
    exact iff_of_true (leavesNoneWaiting_of_runs (process.resumed_runs now outcome)) trivial
  | notice => exact ended (.inl rfl)
  | cancelled => exact ended (.inr rfl)
  | shutdown =>
    obtain rfl := Option.some.inj stepped
    exact iff_of_true leaves trivial
  | close =>
    rw [close_eq stepped]
    refine iff_of_true ?_ trivial
    rintro stopped future ⟨pending, before⟩
    refine leaves stopped future ⟨pending, ?_⟩
    intro calls there
    apply before
    rw [there]
    rfl

end LimiterProcess

/-- **Who waits behind the worker's end.** A run leaves no caller waiting for ever exactly when the
worker never ends with an awaited future in the queue or in its hands, and nothing is enqueued between
its end and the return of `shutdown`. -/
theorem leaves_none_waiting_iff {actions : List (WorkerAction κ ρ)} {process : LimiterProcess κ ρ}
    (ran : (workerMachine κ ρ).run {} actions = some process) :
    (workerMachine κ ρ).Throughout {} actions LimiterProcess.LeavesNoneWaiting ↔
      (workerMachine κ ρ).Obeys {} actions EndsEmpty := by
  have first : Accounted ({} : LimiterProcess κ ρ) := by
    refine ⟨rfl, ?_, ?_⟩
    · intro calls there
      cases there
    · intro future pending
      cases pending
  refine (Machine.throughout_iff_obeys
    ⟨first, LimiterProcess.leavesNoneWaiting_of_runs WorkerStage.noConfusion⟩ ?_ ?_ actions ran).2
  · intro process action next accounted stepped
    exact accounted.step stepped
  · intro process action next accounted leaves stepped
    exact LimiterProcess.step_leaves_iff accounted leaves stepped

/-- An edit that has been sent before `shutdown`. -/
def sentEdit : List (WorkerAction String Nat) :=
  [.enqueue "edit", .pop 0, .letPass, .finish (.ok 200) 1, .shutdown, .cancelled, .close]

theorem sentEdit_leaves_none_waiting :
    (workerMachine String Nat).Throughout {} sentEdit LimiterProcess.LeavesNoneWaiting := by
  refine (leaves_none_waiting_iff rfl).mpr ?_
  refine Machine.obeys_cons rfl ?_ (Machine.obeys_cons rfl trivial (Machine.obeys_cons rfl trivial
    (Machine.obeys_cons rfl trivial (Machine.obeys_cons rfl trivial (Machine.obeys_cons rfl ?_
      (Machine.obeys_cons rfl trivial Machine.obeys_nil))))))
  · intro stopped
    cases stopped
  · rintro future (⟨key, func, futures, there, -⟩ | ⟨task, there, -⟩) -
    · cases there
    · cases there

/-- **An edit that is still queued at `shutdown` is never answered**: the worker is cancelled while it
waits on the condition, and the caller's future stays pending. -/
theorem queuedEdit_waits_forever :
    ∃ process, (workerMachine String Nat).run {} [.enqueue "edit", .shutdown, .cancelled, .close] =
      some process ∧ process.stage = .stopped ∧ process.closedAt = some 1 ∧
      process.Awaited 0 ∧ ¬ process.LeavesNoneWaiting := by
  have waits : (({ futures := [.pending], closedAt := some 1 } : LimiterProcess String Nat)).Awaited 0 :=
    ⟨rfl, fun calls there => Option.some.inj there ▸ Nat.zero_lt_one⟩
  exact ⟨_, rfl, rfl, rfl, waits, fun leaves => leaves rfl 0 waits⟩

end ClaudeProxy
