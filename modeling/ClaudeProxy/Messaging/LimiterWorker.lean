/-
**The worker of the messaging rate limiter** (`messaging/limiter.py`).

* `LimiterProcess` — the queue of `Limiter`, the place at which `_worker` stands, the futures of the
  `enqueue` calls, and a record of every answer and of what every function returned or raised. A
  future has the number of its call, and so has the function that was enqueued with it.
* `workerMachine` — `enqueue` calls, callers that stop waiting, the worker's steps from one await to
  the next, and `shutdown`, in any order.
* `limiter_of_reachable` — the queue of a process goes through states of the limiter machine.
* `Queued` — the queue lists each key of its map once; `Paired` — every future is where its answer
  will come from.
* **`futures_are_paired`** — in every run the queue lists each key of its map once, and a future is
  answered at most once, with what a function of its key enqueued no earlier returned or raised.
-/

import ClaudeProxy.Messaging.Limiter

namespace ClaudeProxy

variable {κ ρ : Type} [DecidableEq κ]

/-! ### The model -/

/-- A failed send: the exception's text in lower case, and the pause the code reads off it (its
`seconds`, the number behind `after`, or 30), where it can be read as a number. -/
structure SendError where
  message : String
  seconds : Option Int := some 30
  deriving DecidableEq

/-- `"flood" in error_msg or "wait" in error_msg`. -/
def SendError.flood (error : SendError) : Bool :=
  Py.contains error.message "flood" || Py.contains error.message "wait"

/-- A future: not done, done, or cancelled by its caller. -/
inductive FutureState where
  | pending
  | done
  | cancelled
  deriving DecidableEq

/-- A `set_result` or `set_exception`, with the function whose outcome it is. -/
structure FutureAnswer (ρ : Type) where
  future : Nat
  func : Nat
  outcome : Except SendError ρ

/-- Where `_worker` stands: waiting on the condition, asleep in a pause, in the rate limiter, in a
function, asleep after a critical error, or at its end. -/
inductive WorkerStage where
  | waiting
  | paused
  | throttled
  | sending
  | recovering
  | stopped
  deriving DecidableEq

/-- The limiter with its worker; `closedAt` is how many calls there were when `shutdown` returned. -/
structure LimiterProcess (κ ρ : Type) where
  limiter : Limiter κ := {}
  stage : WorkerStage := .waiting
  pausedUntil : Int := 0
  shutdown : Bool := false
  cancelling : Bool := false
  closedAt : Option Nat := none
  futures : List FutureState := []
  answers : List (FutureAnswer ρ) := []
  outcomes : List (Nat × Except SendError ρ) := []

inductive WorkerAction (κ ρ : Type) where
  | enqueue (key : κ)
  | abandon (future : Nat)
  | pop (now : Int)
  | wake
  | letPass
  | finish (outcome : Except SendError ρ) (now : Int)
  | recover
  | notice
  | cancelled
  | shutdown
  | close

namespace LimiterProcess

/-- `enqueue`, up to its await. -/
def enqueue (process : LimiterProcess κ ρ) (key : κ) : LimiterProcess κ ρ :=
  { process with
    limiter := process.limiter.enqueue key
    futures := process.futures ++ [.pending] }

omit [DecidableEq κ] in
/-- A caller is cancelled while it awaits its future. -/
def abandon (process : LimiterProcess κ ρ) (future : Nat) : LimiterProcess κ ρ :=
  if process.futures[future]? = some .pending then
    { process with futures := process.futures.set future .cancelled }
  else process

/-- The worker takes the first key; a key that is not in the map is a critical error. -/
def pop (process : LimiterProcess κ ρ) (now : Int) : Option (LimiterProcess κ ρ) :=
  if process.stage = .waiting ∧ process.shutdown = false then do
    let limiter ← process.limiter.pop
    match limiter.worker with
    | some _ =>
      some { process with
        limiter := limiter
        stage := if now < process.pausedUntil then .paused else .throttled }
    | none => some { process with limiter := limiter, stage := .recovering }
  else none

/-- `if not f.done(): f.set_result(result)`, and the same with an exception. -/
def settle (func : Nat) (outcome : Except SendError ρ) (process : LimiterProcess κ ρ)
    (future : Nat) : LimiterProcess κ ρ :=
  if process.futures[future]? = some .pending then
    { process with
      futures := process.futures.set future .done
      answers := process.answers ++ [⟨future, func, outcome⟩] }
  else process

/-- Where the worker goes on after a function, and until when it pauses. -/
def resumed (process : LimiterProcess κ ρ) (now : Int) : Except SendError ρ → WorkerStage × Int
  | .ok _ => (.waiting, process.pausedUntil)
  | .error error =>
    if error.flood then
      match error.seconds with
      | some seconds => (.waiting, now + seconds)
      | none => (.recovering, process.pausedUntil)
    else (.waiting, process.pausedUntil)

/-- The text of an exception, if there is one. -/
def errorOf : Except SendError ρ → Option String
  | .ok _ => none
  | .error error => some error.message

/-- The worker's function returns or raises, and its futures are answered. -/
def finish (process : LimiterProcess κ ρ) (outcome : Except SendError ρ) (now : Int) :
    Option (LimiterProcess κ ρ) :=
  if process.stage = .sending then do
    let task ← process.limiter.worker
    let limiter ← process.limiter.finish (errorOf outcome)
    let settled := task.futures.foldl (settle task.func outcome) process
    some { settled with
      limiter := limiter
      stage := (process.resumed now outcome).1
      pausedUntil := (process.resumed now outcome).2
      outcomes := process.outcomes ++ [(task.func, outcome)] }
  else none

/-- `shutdown`, up to its await: the flag is set, and a worker that still runs is cancelled. -/
def beginShutdown (process : LimiterProcess κ ρ) : LimiterProcess κ ρ :=
  { process with
    shutdown := true
    cancelling := process.cancelling || decide (process.stage ≠ .stopped) }

/-- The worker goes from one stage to another. -/
def advance (process : LimiterProcess κ ρ) (old new : WorkerStage) : Option (LimiterProcess κ ρ) :=
  if process.stage = old then some { process with stage := new } else none

/-- One step. A cancellation reaches the worker at any of its awaits; a function may also raise
`CancelledError` of its own accord, or return although it was cancelled. -/
def step (process : LimiterProcess κ ρ) : WorkerAction κ ρ → Option (LimiterProcess κ ρ)
  | .enqueue key => some (process.enqueue key)
  | .abandon future => some (process.abandon future)
  | .pop now => process.pop now
  | .wake => process.advance .paused .throttled
  | .letPass => process.advance .throttled .sending
  | .finish outcome now => process.finish outcome now
  | .recover => process.advance .recovering .waiting
  | .notice => if process.shutdown then process.advance .waiting .stopped else none
  | .cancelled =>
    if process.stage = .sending ∨ process.cancelling ∧ process.stage ≠ .stopped then
      some { process with stage := .stopped }
    else none
  | .shutdown => some process.beginShutdown
  | .close =>
    if process.shutdown then
      some { process with closedAt := process.closedAt.or (some process.limiter.calls.length) }
    else none

end LimiterProcess

def workerMachine (κ ρ : Type) [DecidableEq κ] :
    Machine (LimiterProcess κ ρ) (WorkerAction κ ρ) where
  init process := process = {}
  step := LimiterProcess.step

/-! ### The queue -/

/-- **The queue lists each key of its map once.** -/
structure Queued (limiter : Limiter κ) : Prop where
  distinct : limiter.queueList.Nodup
  keys : ∀ key, key ∈ limiter.queueList ↔ ∃ entry, limiter.queueMap.get? key = some entry

namespace Queued

variable {limiter next : Limiter κ}

theorem enqueueInternal (queued : Queued limiter) (func : Nat) (key : κ) :
    Queued (limiter.enqueueInternal func key) := by
  unfold Limiter.enqueueInternal Limiter.enqueueInternalMulti
  cases there : limiter.queueMap.get? key with
  | some entry =>
    refine ⟨queued.distinct, fun other => ?_⟩
    show other ∈ limiter.queueList ↔ _
    rw [queued.keys other]
    dsimp only
    rw [Dict.get?_set]
    split_ifs with same
    · rw [same, there]
      exact iff_of_true ⟨_, rfl⟩ ⟨_, rfl⟩
    · rfl
  | none =>
    have absent : key ∉ limiter.queueList := by
      rw [queued.keys, there]
      rintro ⟨entry, same⟩
      cases same
    refine ⟨?_, fun other => ?_⟩
    · refine List.nodup_append.mpr ⟨queued.distinct, List.nodup_singleton _, ?_⟩
      rintro first member _ last rfl
      rw [List.mem_singleton] at last
      exact absent (last ▸ member)
    · show other ∈ limiter.queueList ++ [key] ↔ _
      rw [List.mem_append, List.mem_singleton, queued.keys other]
      dsimp only
      rw [Dict.get?_set]
      split_ifs with same
      · exact iff_of_true (.inr same) ⟨_, rfl⟩
      · exact or_iff_left same

theorem pop (queued : Queued limiter) (stepped : limiter.pop = some next) : Queued next := by
  unfold Limiter.pop at stepped
  split at stepped
  · rename_i key rest idle listed
    have distinct := queued.distinct
    have keys := queued.keys
    rw [listed] at distinct keys
    obtain ⟨absent, distinctRest⟩ := List.nodup_cons.mp distinct
    split at stepped
    · obtain rfl := Option.some.inj stepped
      refine ⟨distinctRest, fun other => ?_⟩
      show other ∈ rest ↔ ∃ entry, (limiter.queueMap.erase key).get? other = some entry
      rw [Dict.get?_erase]
      split_ifs with same
      · refine iff_of_false (same ▸ absent) ?_
        rintro ⟨entry, there⟩
        cases there
      · rw [← keys other, List.mem_cons, or_iff_right same]
    · rename_i missing
      obtain ⟨entry, there⟩ := (keys key).mp List.mem_cons_self
      rw [missing] at there
      cases there
  · cases stepped

/-- **One step of the limiter.** -/
theorem step (queued : Queued limiter) {action : LimiterAction κ}
    (stepped : limiter.step action = some next) : Queued next := by
  cases action with
  | enqueue key =>
    obtain rfl := Option.some.inj stepped
    have submitted : Queued (limiter.submit { key := key, forget := false, phase := .queued }) :=
      ⟨queued.distinct, queued.keys⟩
    exact submitted.enqueueInternal _ key
  | fireAndForget key =>
    obtain rfl := Option.some.inj stepped
    exact ⟨queued.distinct, queued.keys⟩
  | put number =>
    obtain ⟨call, -, stepped⟩ := Option.bind_eq_some_iff.mp stepped
    have awaiting : Queued ({ limiter with
        calls := limiter.calls.set number { call with phase := .queued } } : Limiter κ) :=
      ⟨queued.distinct, queued.keys⟩
    unfold Limiter.put at stepped
    split at stepped
    · obtain rfl := Option.some.inj stepped
      exact awaiting.enqueueInternal number call.key
    · obtain rfl := Option.some.inj stepped
      exact awaiting.enqueueInternal number call.key
    · cases stepped
    · cases stepped
  | pop => exact queued.pop stepped
  | finish error =>
    replace stepped : limiter.finish error = some next := stepped
    unfold Limiter.finish at stepped
    split at stepped
    · obtain rfl := Option.some.inj stepped
      exact ⟨queued.distinct, queued.keys⟩
    · cases stepped

end Queued

theorem queued_of_reachable {limiter : Limiter κ}
    (reached : (limiterMachine κ).Reachable Machine.unguarded limiter) : Queued limiter := by
  refine Machine.Reachable.invariant ?_ ?_ reached
  · intro limiter start
    rw [start]
    refine ⟨List.nodup_nil, fun key => ?_⟩
    refine iff_of_false List.not_mem_nil ?_
    rintro ⟨entry, there⟩
    cases there
  · intro limiter action next queued _ stepped
    exact queued.step stepped

/-! ### The process and its queue -/

namespace LimiterProcess

variable {process next : LimiterProcess κ ρ}

omit [DecidableEq κ] in
/-- Answering a future changes the futures and the answers only. -/
theorem settle_foldl_rest (func : Nat) (outcome : Except SendError ρ) (futures : List Nat) :
    let settled := futures.foldl (settle func outcome) process
    settled.shutdown = process.shutdown ∧ settled.cancelling = process.cancelling ∧
      settled.closedAt = process.closedAt := by
  dsimp only
  induction futures generalizing process with
  | nil => exact ⟨rfl, rfl, rfl⟩
  | cons future rest ih =>
    rw [List.foldl_cons]
    have here : (settle func outcome process future).shutdown = process.shutdown ∧
        (settle func outcome process future).cancelling = process.cancelling ∧
        (settle func outcome process future).closedAt = process.closedAt := by
      unfold settle
      split_ifs <;> exact ⟨rfl, rfl, rfl⟩
    obtain ⟨shutdown, cancelling, closedAt⟩ := @ih (settle func outcome process future)
    exact ⟨shutdown.trans here.1, cancelling.trans here.2.1, closedAt.trans here.2.2⟩

omit [DecidableEq κ] in
/-- **What the worker does when its function is through.** -/
theorem finish_cases {outcome : Except SendError ρ} {now : Int}
    (finished : process.finish outcome now = some next) :
    ∃ task settled, process.stage = .sending ∧ process.limiter.worker = some task ∧
      settled = task.futures.foldl (settle task.func outcome) process ∧
      process.limiter.finish (errorOf outcome) = some next.limiter ∧
      next = { settled with
        limiter := next.limiter
        stage := (process.resumed now outcome).1
        pausedUntil := (process.resumed now outcome).2
        outcomes := process.outcomes ++ [(task.func, outcome)] } := by
  rw [finish, Option.ite_none_right_eq_some] at finished
  obtain ⟨sending, finished⟩ := finished
  obtain ⟨task, held, finished⟩ := Option.bind_eq_some_iff.mp finished
  obtain ⟨limiter, freed, same⟩ := Option.bind_eq_some_iff.mp finished
  obtain rfl := Option.some.inj same
  exact ⟨task, _, sending, held, rfl, freed, rfl⟩

/-- **What the worker does with the first key.** -/
theorem pop_cases {now : Int} (popped : process.pop now = some next) :
    process.stage = .waiting ∧ process.shutdown = false ∧
      process.limiter.pop = some next.limiter ∧
      ∃ stage, stage ≠ .stopped ∧ next = { process with limiter := next.limiter, stage := stage } := by
  rw [pop, Option.ite_none_right_eq_some] at popped
  obtain ⟨⟨waiting, open_⟩, popped⟩ := popped
  obtain ⟨limiter, taken, popped⟩ := Option.bind_eq_some_iff.mp popped
  refine ⟨waiting, open_, ?_⟩
  split at popped
  · obtain rfl := Option.some.inj popped
    refine ⟨taken, _, ?_, rfl⟩
    split_ifs <;> exact WorkerStage.noConfusion
  · obtain rfl := Option.some.inj popped
    exact ⟨taken, _, WorkerStage.noConfusion, rfl⟩

omit [DecidableEq κ] in
theorem advance_eq {old new : WorkerStage} (advanced : process.advance old new = some next) :
    process.stage = old ∧ next = { process with stage := new } := by
  rw [advance, Option.ite_none_right_eq_some] at advanced
  obtain ⟨here, same⟩ := advanced
  exact ⟨here, (Option.some.inj same).symm⟩

/-- A step moves the queue by a step of the limiter, or leaves it alone. -/
theorem limiter_step {action : WorkerAction κ ρ} (stepped : process.step action = some next) :
    next.limiter = process.limiter ∨ ∃ move, process.limiter.step move = some next.limiter := by
  cases action with
  | enqueue key =>
    obtain rfl := Option.some.inj stepped
    exact .inr ⟨.enqueue key, rfl⟩
  | abandon future =>
    obtain rfl := Option.some.inj stepped
    left
    unfold abandon
    split_ifs <;> rfl
  | pop now => exact .inr ⟨.pop, (pop_cases stepped).2.2.1⟩
  | wake | letPass | recover =>
    rw [(advance_eq stepped).2]
    exact .inl rfl
  | finish outcome now =>
    obtain ⟨-, -, -, -, -, freed, -⟩ := finish_cases stepped
    exact .inr ⟨.finish (errorOf outcome), freed⟩
  | notice =>
    rw [step, Option.ite_none_right_eq_some] at stepped
    rw [(advance_eq stepped.2).2]
    exact .inl rfl
  | cancelled =>
    rw [step, Option.ite_none_right_eq_some] at stepped
    obtain rfl := Option.some.inj stepped.2
    exact .inl rfl
  | shutdown =>
    obtain rfl := Option.some.inj stepped
    exact .inl rfl
  | close =>
    rw [step, Option.ite_none_right_eq_some] at stepped
    obtain rfl := Option.some.inj stepped.2
    exact .inl rfl

end LimiterProcess

/-- **The queue of a process is one of the limiter's.** -/
theorem limiter_of_reachable {process : LimiterProcess κ ρ}
    (reached : (workerMachine κ ρ).Reachable Machine.unguarded process) :
    (limiterMachine κ).Reachable Machine.unguarded process.limiter := by
  refine @Machine.Reachable.invariant _ _ _ _
    (fun process => (limiterMachine κ).Reachable Machine.unguarded process.limiter) ?_ ?_ _ reached
  · intro process start
    rw [start]
    exact .init rfl
  · intro process action next before _ stepped
    rcases LimiterProcess.limiter_step stepped with same | ⟨move, moved⟩
    · rw [same]
      exact before
    · exact .step before trivial moved

/-! ### Where an answer comes from -/

namespace Limiter

variable {limiter next : Limiter κ} {key : κ} {func : Nat}

omit [DecidableEq κ] in
theorem keyOf_lt (known : limiter.keyOf func = some key) : func < limiter.calls.length := by
  obtain ⟨call, found, -⟩ := Option.map_eq_some_iff.mp known
  exact (List.getElem?_eq_some_iff.mp found).1

/-- The futures that await a key's function. -/
def awaiting (limiter : Limiter κ) (key : κ) : List Nat :=
  ((limiter.queueMap.get? key).map Prod.snd).getD []

/-- **What `enqueue` does**: the key gets the new function, and its futures are joined by the new one. -/
theorem enqueue_spec (limiter : Limiter κ) (key : κ) :
    (∀ other, (limiter.enqueue key).queueMap.get? other =
      if other = key then some (limiter.calls.length, limiter.awaiting key ++ [limiter.calls.length])
      else limiter.queueMap.get? other) ∧
    (limiter.enqueue key).worker = limiter.worker ∧
    (limiter.enqueue key).calls =
      limiter.calls ++ [{ key := key, forget := false, phase := .queued }] := by
  unfold Limiter.enqueue
  obtain ⟨calls, worker, -⟩ :=
    (limiter.submit { key := key, forget := false, phase := .queued }).enqueueInternal_rest
      limiter.calls.length key
  refine ⟨fun other => ?_, worker, calls⟩
  unfold enqueueInternal enqueueInternalMulti awaiting submit
  cases there : limiter.queueMap.get? key with
  | some entry => exact Dict.get?_set limiter.queueMap key other _
  | none => exact Dict.get?_set limiter.queueMap key other _

/-- The function under a key will answer these futures. -/
def Serves (limiter : Limiter κ) (key : κ) (func : Nat) (futures : List Nat) : Prop :=
  limiter.keyOf func = some key ∧ ∀ future ∈ futures, limiter.keyOf future = some key ∧ future ≤ func

/-- Every call keeps its key. -/
def KeepsKeys (limiter next : Limiter κ) : Prop :=
  ∀ func key, limiter.keyOf func = some key → next.keyOf func = some key

omit [DecidableEq κ] in
theorem Serves.mono {futures : List Nat} (serves : limiter.Serves key func futures)
    (keeps : limiter.KeepsKeys next) : next.Serves key func futures :=
  ⟨keeps _ _ serves.1, fun future member =>
    ⟨keeps _ _ (serves.2 future member).1, (serves.2 future member).2⟩⟩

omit [DecidableEq κ] in
theorem keepsKeys_of_append {calls : List (Call κ)} (appended : next.calls = limiter.calls ++ calls) :
    limiter.KeepsKeys next := by
  intro func key known
  have inside := keyOf_lt known
  unfold keyOf at known ⊢
  rw [appended, List.getElem?_append_left inside]
  exact known

/-- **What `pop` does**: the worker holds what was queued under the first key. -/
theorem pop_cases (popped : limiter.pop = some next) :
    next.calls = limiter.calls ∧
      ((∃ key func futures, limiter.queueMap.get? key = some (func, futures) ∧
          next.queueMap = limiter.queueMap.erase key ∧ next.worker = some ⟨key, func, futures⟩) ∨
        next.queueMap = limiter.queueMap ∧ next.worker = limiter.worker) := by
  unfold pop at popped
  split at popped
  · split at popped
    · rename_i func futures there
      obtain rfl := Option.some.inj popped
      exact ⟨rfl, .inl ⟨_, func, futures, there, rfl, rfl⟩⟩
    · obtain rfl := Option.some.inj popped
      exact ⟨rfl, .inr ⟨rfl, rfl⟩⟩
  · cases popped

omit [DecidableEq κ] in
/-- **What `finish` does**: the worker is free, and every call keeps its key. -/
theorem finish_spec {error : Option String} (freed : limiter.finish error = some next) :
    next.queueMap = limiter.queueMap ∧ next.worker = none ∧
      next.calls.length = limiter.calls.length ∧ limiter.KeepsKeys next := by
  unfold finish at freed
  split at freed
  · obtain rfl := Option.some.inj freed
    refine ⟨rfl, rfl, List.length_mapIdx, fun func key known => ?_⟩
    unfold keyOf at known ⊢
    dsimp only
    rw [List.getElem?_mapIdx]
    obtain ⟨call, found, rfl⟩ := Option.map_eq_some_iff.mp known
    rw [found]
    show some (Call.key (if _ then _ else _)) = _
    split_ifs
    · rw [Call.answer_key]
    · rfl
  · cases freed

end Limiter

namespace LimiterProcess

omit [DecidableEq κ] in
/-- **What answering does**: the futures that are pending are done, each by an answer of its own. -/
theorem settle_foldl_spec (func : Nat) (outcome : Except SendError ρ) (futures : List Nat)
    (process : LimiterProcess κ ρ) :
    let settled := futures.foldl (settle func outcome) process
    (∀ future, settled.futures[future]? =
      if future ∈ futures ∧ process.futures[future]? = some .pending then some .done
      else process.futures[future]?) ∧
    settled.futures.length = process.futures.length ∧
    ∃ given : List Nat, given.Nodup ∧
      (∀ future ∈ given, future ∈ futures ∧ process.futures[future]? = some .pending) ∧
      settled.answers = process.answers ++ given.map fun future => ⟨future, func, outcome⟩ := by
  dsimp only
  induction futures generalizing process with
  | nil => exact ⟨fun future => by simp, rfl, [], List.nodup_nil, by simp, by simp⟩
  | cons first rest ih =>
    rw [List.foldl_cons]
    obtain ⟨states, length, given, distinct, pending, answers⟩ := ih (settle func outcome process first)
    by_cases here : process.futures[first]? = some .pending
    · have one : settle func outcome process first =
          { process with
            futures := process.futures.set first .done
            answers := process.answers ++ [⟨first, func, outcome⟩] } := if_pos here
      have inside := (List.getElem?_eq_some_iff.mp here).1
      have set (future : Nat) : (settle func outcome process first).futures[future]? =
          if future = first then some .done else process.futures[future]? := by
        rw [one]
        split_ifs with same
        · rw [same]
          exact List.getElem?_set_self inside
        · exact List.getElem?_set_ne (Ne.symm same)
      have apart : ∀ future ∈ given, future ≠ first ∧ process.futures[future]? = some .pending := by
        intro future member
        have isPending := (pending future member).2
        rw [set] at isPending
        split_ifs at isPending with same
        · cases isPending
        · exact ⟨same, isPending⟩
      refine ⟨fun future => ?_, length.trans (by rw [one]; exact List.length_set), first :: given,
        ?_, ?_, ?_⟩
      · rw [states, set]
        by_cases same : future = first
        · simp [same, here]
        · rw [if_neg same]
          simp only [List.mem_cons, same, false_or]
      · exact List.nodup_cons.mpr ⟨fun member => (apart first member).1 rfl, distinct⟩
      · exact List.forall_mem_cons.mpr ⟨⟨List.mem_cons_self, here⟩, fun future member =>
          ⟨List.mem_cons_of_mem _ (pending future member).1, (apart future member).2⟩⟩
      · rw [answers, one, List.map_cons, List.append_assoc]
        rfl
    · have one : settle func outcome process first = process := if_neg here
      rw [one] at states length pending answers ⊢
      refine ⟨fun future => ?_, length, given, distinct, ?_, answers⟩
      · rw [states]
        by_cases same : future = first
        · rw [same, if_neg fun both => here both.2, if_neg fun both => here both.2]
        · simp only [List.mem_cons, same, false_or]
      · intro future member
        exact ⟨List.mem_cons_of_mem _ (pending future member).1, (pending future member).2⟩

end LimiterProcess

/-- The answer is what a function of the future's key, enqueued no earlier, returned or raised. -/
def LimiterProcess.Pairs (process : LimiterProcess κ ρ) (answer : FutureAnswer ρ) : Prop :=
  (∃ key, process.limiter.keyOf answer.future = some key ∧
    process.limiter.keyOf answer.func = some key) ∧
    answer.future ≤ answer.func ∧ (answer.func, answer.outcome) ∈ process.outcomes

/-- **Every future is where its answer will come from**, and an answered one is done. -/
structure Paired (process : LimiterProcess κ ρ) : Prop where
  length : process.futures.length = process.limiter.calls.length
  queued : ∀ key func futures, process.limiter.queueMap.get? key = some (func, futures) →
    process.limiter.Serves key func futures
  held : ∀ task, process.limiter.worker = some task →
    process.limiter.Serves task.key task.func task.futures
  answered : ∀ answer ∈ process.answers, process.futures[answer.future]? = some .done
  once : (process.answers.map FutureAnswer.future).Nodup
  paired : ∀ answer ∈ process.answers, process.Pairs answer

namespace Paired

variable {process next : LimiterProcess κ ρ}

/-- A step that leaves the queue, the futures and the answers alone. -/
theorem frame (paired : Paired process) (limiter : next.limiter = process.limiter)
    (futures : next.futures = process.futures) (answers : next.answers = process.answers)
    (outcomes : next.outcomes = process.outcomes) : Paired next := by
  refine ⟨?_, ?_, ?_, ?_, ?_, ?_⟩
  · rw [futures, limiter]
    exact paired.length
  · rw [limiter]
    exact paired.queued
  · rw [limiter]
    exact paired.held
  · rw [answers, futures]
    exact paired.answered
  · rw [answers]
    exact paired.once
  · unfold LimiterProcess.Pairs
    rw [answers, limiter, outcomes]
    exact paired.paired

theorem enqueue (paired : Paired process) (key : κ) : Paired (process.enqueue key) := by
  obtain ⟨queueMap, worker, calls⟩ := process.limiter.enqueue_spec key
  have keeps : process.limiter.KeepsKeys (process.limiter.enqueue key) :=
    Limiter.keepsKeys_of_append calls
  have fresh : (process.limiter.enqueue key).keyOf process.limiter.calls.length = some key := by
    unfold Limiter.keyOf
    rw [calls, List.getElem?_concat_length]
    rfl
  refine ⟨?_, ?_, ?_, ?_, paired.once, ?_⟩
  · show (process.futures ++ [FutureState.pending]).length = (process.limiter.enqueue key).calls.length
    rw [calls, List.length_append, List.length_append, paired.length]
    rfl
  · intro other func futures there
    replace there : (process.limiter.enqueue key).queueMap.get? other = some (func, futures) := there
    rw [queueMap] at there
    split_ifs at there with same
    · obtain ⟨rfl, rfl⟩ := Prod.mk.inj (Option.some.inj there)
      subst same
      refine ⟨fresh, fun future member => ?_⟩
      rcases List.mem_append.mp member with member | member
      · unfold Limiter.awaiting at member
        cases found : process.limiter.queueMap.get? other with
        | none =>
          rw [found] at member
          cases member
        | some entry =>
          rw [found] at member
          have known := (paired.queued other entry.1 entry.2 found).2 future member
          exact ⟨keeps _ _ known.1, Nat.le_of_lt (Limiter.keyOf_lt known.1)⟩
      · rw [List.mem_singleton.mp member]
        exact ⟨fresh, Nat.le_refl _⟩
    · exact (paired.queued other func futures there).mono keeps
  · intro task there
    exact (paired.held task (worker.symm.trans there)).mono keeps
  · intro answer member
    have done := paired.answered answer member
    show (process.futures ++ [FutureState.pending])[answer.future]? = some .done
    rw [List.getElem?_append_left (List.getElem?_eq_some_iff.mp done).1]
    exact done
  · intro answer member
    obtain ⟨⟨known, future, func⟩, order, came⟩ := paired.paired answer member
    exact ⟨⟨known, keeps _ _ future, keeps _ _ func⟩, order, came⟩

theorem abandon (paired : Paired process) (future : Nat) : Paired (process.abandon future) := by
  unfold LimiterProcess.abandon
  split_ifs with pending
  · refine ⟨?_, paired.queued, paired.held, ?_, paired.once, paired.paired⟩
    · exact (List.length_set).trans paired.length
    · intro answer member
      have done := paired.answered answer member
      have apart : future ≠ answer.future := by
        rintro rfl
        rw [pending] at done
        cases done
      show (process.futures.set future .cancelled)[answer.future]? = some .done
      rw [List.getElem?_set_ne apart]
      exact done
  · exact paired

theorem pop (paired : Paired process) {now : Int} (popped : process.pop now = some next) :
    Paired next := by
  obtain ⟨-, -, taken, stage, -, same⟩ := LimiterProcess.pop_cases popped
  obtain ⟨calls, moved⟩ := Limiter.pop_cases taken
  have keeps : process.limiter.KeepsKeys next.limiter :=
    Limiter.keepsKeys_of_append (calls.trans (List.append_nil _).symm)
  rw [same]
  refine ⟨?_, ?_, ?_, paired.answered, paired.once, ?_⟩
  · exact paired.length.trans (congrArg List.length calls.symm)
  · intro key func futures there
    rcases moved with ⟨taken, _, _, _, erased, _⟩ | ⟨sameMap, -⟩
    · replace there : next.limiter.queueMap.get? key = some (func, futures) := there
      rw [erased, Dict.get?_erase] at there
      split_ifs at there
      exact (paired.queued key func futures there).mono keeps
    · exact (paired.queued key func futures (by rw [← sameMap]; exact there)).mono keeps
  · intro task there
    rcases moved with ⟨key, func, futures, found, -, worker⟩ | ⟨-, worker⟩
    · obtain rfl := Option.some.inj (worker.symm.trans there)
      exact (paired.queued key func futures found).mono keeps
    · exact (paired.held task (worker.symm.trans there)).mono keeps
  · intro answer member
    obtain ⟨⟨known, future, func⟩, order, came⟩ := paired.paired answer member
    exact ⟨⟨known, keeps _ _ future, keeps _ _ func⟩, order, came⟩

theorem finish (paired : Paired process) {outcome : Except SendError ρ} {now : Int}
    (finished : process.finish outcome now = some next) : Paired next := by
  obtain ⟨task, settled, -, held, same, freed, after⟩ := LimiterProcess.finish_cases finished
  obtain ⟨queueMap, worker, calls, keeps⟩ := Limiter.finish_spec freed
  obtain ⟨states, length, given, distinct, pending, answers⟩ :=
    LimiterProcess.settle_foldl_spec task.func outcome task.futures process
  rw [← same] at states length answers
  have serves := paired.held task held
  rw [after]
  refine ⟨?_, ?_, ?_, ?_, ?_, ?_⟩
  · exact (length.trans paired.length).trans calls.symm
  · intro key func futures there
    exact (paired.queued key func futures (by rw [← queueMap]; exact there)).mono keeps
  · intro other there
    cases worker.symm.trans there
  · intro answer member
    show settled.futures[answer.future]? = some .done
    rw [states]
    replace member : answer ∈ settled.answers := member
    rw [answers] at member
    rcases List.mem_append.mp member with before | now
    · rw [if_neg, paired.answered answer before]
      rintro ⟨-, isPending⟩
      rw [paired.answered answer before] at isPending
      cases isPending
    · obtain ⟨future, inside, rfl⟩ := List.mem_map.mp now
      rw [if_pos (pending future inside)]
  · show (settled.answers.map FutureAnswer.future).Nodup
    rw [answers, List.map_append, List.map_map]
    refine List.nodup_append.mpr ⟨paired.once, ?_, ?_⟩
    · exact (List.map_id' given).symm ▸ distinct
    · rintro first before _ later rfl
      obtain ⟨answer, member, rfl⟩ := List.mem_map.mp before
      obtain ⟨future, inside, equal⟩ := List.mem_map.mp later
      have isPending := (pending future inside).2
      have done := paired.answered answer member
      rw [show future = answer.future from equal, done] at isPending
      cases isPending
  · intro answer member
    replace member : answer ∈ settled.answers := member
    rw [answers] at member
    rcases List.mem_append.mp member with before | now
    · obtain ⟨⟨known, future, func⟩, order, came⟩ := paired.paired answer before
      exact ⟨⟨known, keeps _ _ future, keeps _ _ func⟩, order, List.mem_append_left _ came⟩
    · obtain ⟨future, inside, rfl⟩ := List.mem_map.mp now
      obtain ⟨known, order⟩ := serves.2 future (pending future inside).1
      exact ⟨⟨task.key, keeps _ _ known, keeps _ _ serves.1⟩, order,
        List.mem_append_right _ (List.mem_singleton_self _)⟩

/-- **One step.** -/
theorem step (paired : Paired process) {action : WorkerAction κ ρ}
    (stepped : process.step action = some next) : Paired next := by
  cases action with
  | enqueue key =>
    obtain rfl := Option.some.inj stepped
    exact paired.enqueue key
  | abandon future =>
    obtain rfl := Option.some.inj stepped
    exact paired.abandon future
  | pop now => exact paired.pop stepped
  | wake | letPass | recover =>
    rw [(LimiterProcess.advance_eq stepped).2]
    exact paired.frame rfl rfl rfl rfl
  | finish outcome now => exact paired.finish stepped
  | notice =>
    rw [LimiterProcess.step, Option.ite_none_right_eq_some] at stepped
    rw [(LimiterProcess.advance_eq stepped.2).2]
    exact paired.frame rfl rfl rfl rfl
  | cancelled =>
    rw [LimiterProcess.step, Option.ite_none_right_eq_some] at stepped
    obtain rfl := Option.some.inj stepped.2
    exact paired.frame rfl rfl rfl rfl
  | shutdown =>
    obtain rfl := Option.some.inj stepped
    exact paired.frame rfl rfl rfl rfl
  | close =>
    rw [LimiterProcess.step, Option.ite_none_right_eq_some] at stepped
    obtain rfl := Option.some.inj stepped.2
    exact paired.frame rfl rfl rfl rfl

end Paired

theorem paired_of_reachable {process : LimiterProcess κ ρ}
    (reached : (workerMachine κ ρ).Reachable Machine.unguarded process) : Paired process := by
  refine Machine.Reachable.invariant ?_ ?_ reached
  · intro process start
    rw [start]
    refine ⟨rfl, ?_, ?_, by simp, List.nodup_nil, by simp⟩
    · intro key func futures there
      cases there
    · intro task there
      cases there
  · intro process action next paired _ stepped
    exact paired.step stepped

/-- **The queue and the futures.** In every run, the queue lists each key of its map once; and every
future is answered at most once, with what a function returned or raised that was enqueued under the
same key, with the future or after it. -/
theorem futures_are_paired {process : LimiterProcess κ ρ}
    (reached : (workerMachine κ ρ).Reachable Machine.unguarded process) :
    process.limiter.queueList.Nodup ∧
      (∀ key, key ∈ process.limiter.queueList ↔
        ∃ entry, process.limiter.queueMap.get? key = some entry) ∧
      (process.answers.map FutureAnswer.future).Nodup ∧
      ∀ answer ∈ process.answers, process.Pairs answer := by
  have queued := queued_of_reachable (limiter_of_reachable reached)
  have paired := paired_of_reachable reached
  exact ⟨queued.distinct, queued.keys, paired.once, paired.paired⟩

/-- Two edits of one message: the second is enqueued while the first still waits, and a third while
the second is being sent. -/
def threeEdits : List (WorkerAction String Nat) :=
  [.enqueue "edit", .enqueue "edit", .pop 0, .letPass, .enqueue "edit", .finish (.ok 200) 1, .pop 2,
    .letPass, .finish (.error ⟨"message is not modified", some 30⟩) 3]

theorem threeEdits_are_paired : ∃ process, (workerMachine String Nat).run {} threeEdits = some process ∧
    process.answers.map (fun answer => (answer.future, answer.func)) = [(0, 1), (1, 1), (2, 2)] ∧
    process.limiter.queueList.Nodup ∧
      (∀ key, key ∈ process.limiter.queueList ↔
        ∃ entry, process.limiter.queueMap.get? key = some entry) ∧
      (process.answers.map FutureAnswer.future).Nodup ∧
      ∀ answer ∈ process.answers, process.Pairs answer := by
  have shape : ((workerMachine String Nat).run {} threeEdits).map
      (fun process => process.answers.map fun answer => (answer.future, answer.func)) =
      some [(0, 1), (1, 1), (2, 2)] := by
    decide +kernel
  obtain ⟨process, ran, same⟩ := Option.map_eq_some_iff.mp shape
  exact ⟨process, ran, same,
    futures_are_paired (Machine.reachable_of_run_unguarded threeEdits rfl ran)⟩

end ClaudeProxy
