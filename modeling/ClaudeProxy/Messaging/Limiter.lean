/-
**The messaging rate limiter** (`messaging/limiter.py`).

* `Limiter` — the compacting queue, what the worker has taken from it, and every submission so far in
  its order, a function being named by the number of its submission.
* `limiterMachine` — `enqueue` and `fire_and_forget` calls, the puts of `fire_and_forget`'s task (the
  first one and its retries) and the worker's steps, in any order.
* `InOrder` — a function is put into the queue only while nothing submitted later under its key has
  been put.
* **`latest_edit_wins`** — in runs that put in order, no function is executed behind a later one of its
  key, and the last one executed for a drained key is the last one submitted.
-/

import ClaudeProxy.Library.Dict
import ClaudeProxy.Library.Transition
import ClaudeProxy.Python

namespace ClaudeProxy

variable {κ : Type} [DecidableEq κ]

/-! ### The model -/

/-- Where a submission is: its task has not run, it awaits its future, it sleeps before a retry, or it
is through. -/
inductive CallPhase where
  | starting
  | queued
  | sleeping
  | done
  deriving DecidableEq

/-- A submission by `enqueue` or by `fire_and_forget`. -/
structure Call (κ : Type) where
  key : κ
  forget : Bool
  attempt : Nat := 0
  phase : CallPhase := .starting
  deriving DecidableEq

def limiterMaxRetries : Nat := 2

/-- The transient connectivity issues that `fire_and_forget` retries; `errorMsg` is in lower case. -/
def transient (errorMsg : String) : Bool :=
  ["connect", "timeout", "broken"].any (Py.contains errorMsg)

/-- A call whose future is resolved, or rejected with an error. -/
def Call.answer (call : Call κ) (error : Option String) : Call κ :=
  match call.phase, error with
  | .queued, none => { call with phase := .done }
  | .queued, some errorMsg =>
    if call.forget && decide (call.attempt < limiterMaxRetries) && transient errorMsg then
      { call with attempt := call.attempt + 1, phase := .sleeping }
    else { call with phase := .done }
  | _, _ => call

/-- What the worker has popped: a key, a function and the calls whose futures await it. -/
structure LimiterTask (κ : Type) where
  key : κ
  func : Nat
  futures : List Nat
  deriving DecidableEq

/-- The limiter; `executed` records the functions that were executed, in their order. -/
structure Limiter (κ : Type) where
  queueList : List κ := []
  queueMap : Dict κ (Nat × List Nat) := {}
  worker : Option (LimiterTask κ) := none
  calls : List (Call κ) := []
  executed : List Nat := []

inductive LimiterAction (κ : Type) where
  | enqueue (key : κ)
  | fireAndForget (key : κ)
  | put (call : Nat)
  | pop
  | finish (error : Option String)

namespace Limiter

/-- `_enqueue_internal_multi`: a queued key gets the new function and keeps its place. -/
def enqueueInternalMulti (limiter : Limiter κ) (func : Nat) (futures : List Nat) (key : κ)
    (front : Bool) : Limiter κ :=
  match limiter.queueMap.get? key with
  | some (_, old) => { limiter with queueMap := limiter.queueMap.set key (func, old ++ futures) }
  | none =>
    { limiter with
      queueMap := limiter.queueMap.set key (func, futures)
      queueList := if front then key :: limiter.queueList else limiter.queueList ++ [key] }

def enqueueInternal (limiter : Limiter κ) (func : Nat) (key : κ) : Limiter κ :=
  limiter.enqueueInternalMulti func [func] key false

/-- A call puts its function: at once by `enqueue`, from its task by `fire_and_forget`. -/
def put (limiter : Limiter κ) (number : Nat) (call : Call κ) : Option (Limiter κ) :=
  match call.phase with
  | .starting | .sleeping =>
    let awaiting : Call κ := { call with phase := .queued }
    some (({ limiter with calls := limiter.calls.set number awaiting } : Limiter κ).enqueueInternal
      number call.key)
  | .queued | .done => none

/-- The worker takes the first key's function. -/
def pop (limiter : Limiter κ) : Option (Limiter κ) :=
  match limiter.worker, limiter.queueList with
  | none, key :: rest =>
    match limiter.queueMap.get? key with
    | some (func, futures) =>
      some { limiter with
        queueList := rest
        queueMap := limiter.queueMap.erase key
        worker := some ⟨key, func, futures⟩ }
    | none => some { limiter with queueList := rest }
  | _, _ => none

/-- The worker's function returns or raises, and its futures are answered. -/
def finish (limiter : Limiter κ) (error : Option String) : Option (Limiter κ) :=
  match limiter.worker with
  | some task =>
    some { limiter with
      worker := none
      calls := limiter.calls.mapIdx fun number call =>
        if number ∈ task.futures then call.answer error else call
      executed := limiter.executed ++ [task.func] }
  | none => none

/-- A new submission. -/
def submit (limiter : Limiter κ) (call : Call κ) : Limiter κ :=
  { limiter with calls := limiter.calls ++ [call] }

def enqueue (limiter : Limiter κ) (key : κ) : Limiter κ :=
  (limiter.submit { key := key, forget := false, phase := .queued }).enqueueInternal
    limiter.calls.length key

def fireAndForget (limiter : Limiter κ) (key : κ) : Limiter κ :=
  limiter.submit { key := key, forget := true }

def step (limiter : Limiter κ) (action : LimiterAction κ) : Option (Limiter κ) :=
  match action with
  | .enqueue key => some (limiter.enqueue key)
  | .fireAndForget key => some (limiter.fireAndForget key)
  | .put number => limiter.calls[number]?.bind (limiter.put number)
  | .pop => limiter.pop
  | .finish error => limiter.finish error

end Limiter

def limiterMachine (κ : Type) [DecidableEq κ] : Machine (Limiter κ) (LimiterAction κ) where
  init limiter := limiter = {}
  step := Limiter.step

/-! ### What is asked -/

namespace Limiter

/-- The key that a function was submitted under. -/
def keyOf (limiter : Limiter κ) (func : Nat) : Option κ := limiter.calls[func]?.map Call.key

/-- The function has been put into the queue. -/
def Put (limiter : Limiter κ) (func : Nat) : Prop :=
  ∃ call, limiter.calls[func]? = some call ∧ call.phase ≠ .starting

/-- The functions of a list that were submitted under a key. -/
def under (limiter : Limiter κ) (key : κ) (funcs : List Nat) : List Nat :=
  funcs.filter fun func => decide (limiter.keyOf func = some key)

/-- Nothing under the key is queued, being executed, or still to be put for the first time. -/
def Drained (limiter : Limiter κ) (key : κ) : Prop :=
  limiter.queueMap.get? key = none ∧ (∀ task, limiter.worker = some task → task.key ≠ key) ∧
    ∀ func, limiter.keyOf func = some key → limiter.Put func

end Limiter

/-- **The latest edit wins**: the functions of a key are executed in the order of their submission, and
the last one executed for a drained key is the last one submitted. -/
structure LatestWins (limiter : Limiter κ) : Prop where
  ordered : limiter.executed.Pairwise fun earlier later =>
    limiter.keyOf earlier = limiter.keyOf later → earlier ≤ later
  drained : ∀ key, limiter.Drained key →
    (limiter.under key limiter.executed).getLast? =
      (limiter.under key (List.range limiter.calls.length)).getLast?

/-- A function is put only while nothing submitted later under its key has been put. -/
def InOrder (limiter : Limiter κ) (action : LimiterAction κ) : Prop :=
  match action with
  | .put func => ∀ later, func < later → limiter.keyOf later = limiter.keyOf func →
      ¬ limiter.Put later
  | _ => True

/-! ### The invariant -/

/-- The function is the last one under its key that has been put. -/
def Newest (limiter : Limiter κ) (key : κ) (func : Nat) : Prop :=
  limiter.keyOf func = some key ∧ limiter.Put func ∧
    ∀ later, func < later → limiter.keyOf later = some key → ¬ limiter.Put later

/-- While functions are put in order, the queue holds the newest one of each key, and the newest one is
in the queue, with the worker, or the last one executed. -/
structure Latest (limiter : Limiter κ) : Prop where
  entry : ∀ key func futures, limiter.queueMap.get? key = some (func, futures) →
    Newest limiter key func
  taken : ∀ task, limiter.worker = some task → limiter.keyOf task.func = some task.key ∧
    limiter.Put task.func ∧
    ∀ func ∈ limiter.executed, limiter.keyOf func = some task.key → func ≤ task.func
  put : ∀ func ∈ limiter.executed, limiter.Put func
  ordered : limiter.executed.Pairwise fun earlier later =>
    limiter.keyOf earlier = limiter.keyOf later → earlier ≤ later
  last : ∀ key func, Newest limiter key func →
    (∃ entry, limiter.queueMap.get? key = some entry) ∨
    (∃ futures, limiter.worker = some ⟨key, func, futures⟩) ∨
    (limiter.under key limiter.executed).getLast? = some func

theorem Limiter.under_congr {limiter after : Limiter κ} {funcs : List Nat} (key : κ)
    (keys : ∀ func ∈ funcs, after.keyOf func = limiter.keyOf func) :
    after.under key funcs = limiter.under key funcs := by
  unfold Limiter.under
  apply List.filter_congr
  intro func member
  rw [keys func member]

theorem Limiter.under_concat_of_eq {limiter : Limiter κ} {key : κ} {func : Nat} (funcs : List Nat)
    (same : limiter.keyOf func = some key) :
    limiter.under key (funcs ++ [func]) = limiter.under key funcs ++ [func] := by
  unfold Limiter.under
  rw [List.filter_append, List.filter_singleton, decide_eq_true same]
  rfl

theorem Limiter.under_concat_of_ne {limiter : Limiter κ} {key : κ} {func : Nat} (funcs : List Nat)
    (other : limiter.keyOf func ≠ some key) :
    limiter.under key (funcs ++ [func]) = limiter.under key funcs := by
  unfold Limiter.under
  rw [List.filter_append, List.filter_singleton, decide_eq_false other]
  exact List.append_nil _

/-- A change of the calls that puts nothing. -/
theorem Latest.frame {limiter after : Limiter κ} (latest : Latest limiter)
    (put : ∀ func, after.Put func ↔ limiter.Put func)
    (keys : ∀ func, limiter.Put func → after.keyOf func = limiter.keyOf func)
    (queueMap : after.queueMap = limiter.queueMap) (worker : after.worker = limiter.worker)
    (executed : after.executed = limiter.executed) : Latest after := by
  have newest : ∀ key func, Newest after key func ↔ Newest limiter key func := by
    intro key func
    constructor
    · rintro ⟨belongs, here, later⟩
      have before := (put func).mp here
      refine ⟨(keys func before).symm.trans belongs, before, ?_⟩
      intro other behind same there
      exact later other behind ((keys other there).trans same) ((put other).mpr there)
    · rintro ⟨belongs, here, later⟩
      refine ⟨(keys func here).trans belongs, (put func).mpr here, ?_⟩
      intro other behind same there
      have before := (put other).mp there
      exact later other behind ((keys other before).symm.trans same) before
  refine ⟨?_, ?_, ?_, ?_, ?_⟩
  · intro key func futures there
    rw [queueMap] at there
    exact (newest key func).mpr (latest.entry key func futures there)
  · intro task there
    rw [worker] at there
    obtain ⟨belongs, here, behind⟩ := latest.taken task there
    refine ⟨(keys _ here).trans belongs, (put _).mpr here, ?_⟩
    intro func member same
    rw [executed] at member
    exact behind func member ((keys func (latest.put func member)).symm.trans same)
  · intro func member
    rw [executed] at member
    exact (put func).mpr (latest.put func member)
  · rw [executed]
    refine latest.ordered.imp_of_mem ?_
    intro earlier later first second ordered same
    rw [keys earlier (latest.put earlier first), keys later (latest.put later second)] at same
    exact ordered same
  · intro key func here
    rw [queueMap, worker, executed,
      Limiter.under_congr key fun func member => keys func (latest.put func member)]
    exact latest.last key func ((newest key func).mp here)

/-- **A function is put in order**: it becomes the newest one of its key, and the queue holds it. -/
theorem Latest.enqueue {limiter after : Limiter κ} (latest : Latest limiter) {key : κ} {func : Nat}
    {futures : List Nat} (put : ∀ other, after.Put other ↔ other = func ∨ limiter.Put other)
    (keys : ∀ other, limiter.Put other → after.keyOf other = limiter.keyOf other)
    (belongs : after.keyOf func = some key)
    (inOrder : ∀ later, func < later → after.keyOf later = some key → ¬ limiter.Put later)
    (queueMap : ∀ other, after.queueMap.get? other =
      if other = key then some (func, futures) else limiter.queueMap.get? other)
    (worker : after.worker = limiter.worker) (executed : after.executed = limiter.executed) :
    Latest after := by
  have newest : Newest after key func := by
    refine ⟨belongs, (put func).mpr (.inl rfl), ?_⟩
    intro later behind same there
    rcases (put later).mp there with rfl | before
    · exact absurd behind (Nat.lt_irrefl _)
    · exact inOrder later behind same before
  have others : ∀ other, other ≠ key → ∀ place,
      Newest after other place ↔ Newest limiter other place := by
    intro other apart place
    have away : ∀ place, after.keyOf place = some other → place ≠ func := by
      rintro place same rfl
      rw [belongs] at same
      exact apart (Option.some.inj same).symm
    constructor
    · rintro ⟨same, there, later⟩
      have before := ((put place).mp there).resolve_left (away place same)
      refine ⟨(keys place before).symm.trans same, before, ?_⟩
      intro next behind equal known
      exact later next behind ((keys next known).trans equal) ((put next).mpr (.inr known))
    · rintro ⟨same, there, later⟩
      refine ⟨(keys place there).trans same, (put place).mpr (.inr there), ?_⟩
      intro next behind equal known
      have before := ((put next).mp known).resolve_left (away next equal)
      exact later next behind ((keys next before).symm.trans equal) before
  refine ⟨?_, ?_, ?_, ?_, ?_⟩
  · intro other place waiting there
    rw [queueMap] at there
    split_ifs at there with same
    · obtain ⟨rfl, -⟩ := Prod.mk.inj (Option.some.inj there)
      rw [same]
      exact newest
    · exact (others other same place).mpr (latest.entry other place waiting there)
  · intro task there
    rw [worker] at there
    obtain ⟨same, here, behind⟩ := latest.taken task there
    refine ⟨(keys _ here).trans same, (put _).mpr (.inr here), ?_⟩
    intro place member equal
    rw [executed] at member
    exact behind place member ((keys place (latest.put place member)).symm.trans equal)
  · intro place member
    rw [executed] at member
    exact (put place).mpr (.inr (latest.put place member))
  · rw [executed]
    refine latest.ordered.imp_of_mem ?_
    intro earlier later first second ordered same
    rw [keys earlier (latest.put earlier first), keys later (latest.put later second)] at same
    exact ordered same
  · intro other place here
    rw [queueMap]
    split_ifs with same
    · exact .inl ⟨_, rfl⟩
    · rw [worker, executed,
        Limiter.under_congr other fun place member => keys place (latest.put place member)]
      exact latest.last other place ((others other same place).mp here)

/-! ### The steps -/

/-- What `_enqueue_internal` does to the queue. -/
theorem Limiter.enqueueInternal_get? (limiter : Limiter κ) (func : Nat) (key : κ) :
    ∃ futures, ∀ other, (limiter.enqueueInternal func key).queueMap.get? other =
      if other = key then some (func, futures) else limiter.queueMap.get? other := by
  unfold Limiter.enqueueInternal Limiter.enqueueInternalMulti
  cases there : limiter.queueMap.get? key with
  | some entry => exact ⟨_, fun other => Dict.get?_set limiter.queueMap key other _⟩
  | none => exact ⟨_, fun other => Dict.get?_set limiter.queueMap key other _⟩

theorem Limiter.enqueueInternal_rest (limiter : Limiter κ) (func : Nat) (key : κ) :
    (limiter.enqueueInternal func key).calls = limiter.calls ∧
      (limiter.enqueueInternal func key).worker = limiter.worker ∧
      (limiter.enqueueInternal func key).executed = limiter.executed := by
  unfold Limiter.enqueueInternal Limiter.enqueueInternalMulti
  cases limiter.queueMap.get? key <;> exact ⟨rfl, rfl, rfl⟩

omit [DecidableEq κ] in
theorem Limiter.keyOf_congr {limiter after : Limiter κ} (calls : after.calls = limiter.calls)
    (func : Nat) : after.keyOf func = limiter.keyOf func := by
  unfold Limiter.keyOf
  rw [calls]

omit [DecidableEq κ] in
theorem Limiter.put_congr {limiter after : Limiter κ} (calls : after.calls = limiter.calls)
    (func : Nat) : after.Put func ↔ limiter.Put func := by
  unfold Limiter.Put
  rw [calls]

omit [DecidableEq κ] in
/-- A function that has been put has been submitted. -/
theorem Limiter.Put.submitted {limiter : Limiter κ} {func : Nat} (put : limiter.Put func) :
    func < limiter.calls.length := by
  obtain ⟨call, found, -⟩ := put
  exact (List.getElem?_eq_some_iff.mp found).1

omit [DecidableEq κ] in
/-- A new submission changes no earlier one. -/
theorem Limiter.keyOf_submit {limiter : Limiter κ} {func : Nat} (call : Call κ)
    (inside : func < limiter.calls.length) :
    (limiter.submit call).keyOf func = limiter.keyOf func := by
  unfold Limiter.keyOf Limiter.submit
  rw [List.getElem?_append_left inside]

omit [DecidableEq κ] in
theorem Limiter.put_submit (limiter : Limiter κ) (call : Call κ) (func : Nat) :
    (limiter.submit call).Put func ↔
      func = limiter.calls.length ∧ call.phase ≠ .starting ∨ limiter.Put func := by
  unfold Limiter.Put Limiter.submit
  dsimp only
  rw [List.getElem?_append]
  split_ifs with inside
  · refine ⟨.inr, ?_⟩
    rintro (⟨rfl, -⟩ | put)
    · exact absurd inside (Nat.lt_irrefl _)
    · exact put
  · constructor
    · rintro ⟨other, found, put⟩
      have bound := (List.getElem?_eq_some_iff.mp found).1
      rw [List.length_singleton] at bound
      have same := List.mem_singleton.mp (List.mem_of_getElem? found)
      exact .inl ⟨by omega, same ▸ put⟩
    · rintro (⟨rfl, put⟩ | ⟨other, found, -⟩)
      · rw [Nat.sub_self]
        exact ⟨call, rfl, put⟩
      · exact absurd (List.getElem?_eq_some_iff.mp found).1 inside

theorem Latest.enqueue_step {limiter : Limiter κ} (latest : Latest limiter) (key : κ) :
    Latest (limiter.enqueue key) := by
  let call : Call κ := { key := key, forget := false, phase := .queued }
  obtain ⟨futures, queueMap⟩ :=
    (limiter.submit call).enqueueInternal_get? limiter.calls.length key
  obtain ⟨calls, worker, executed⟩ :=
    (limiter.submit call).enqueueInternal_rest limiter.calls.length key
  refine latest.enqueue ?_ ?_ ?_ ?_ queueMap worker executed
  · intro other
    refine (Limiter.put_congr calls other).trans ((limiter.put_submit call other).trans ?_)
    exact or_congr_left (and_iff_left nofun)
  · intro other there
    exact (Limiter.keyOf_congr calls other).trans (Limiter.keyOf_submit call there.submitted)
  · refine (Limiter.keyOf_congr calls _).trans ?_
    unfold Limiter.keyOf Limiter.submit
    rw [List.getElem?_concat_length]
    rfl
  · intro later behind _ there
    exact absurd there.submitted (Nat.not_lt_of_lt behind)

theorem Latest.fireAndForget_step {limiter : Limiter κ} (latest : Latest limiter) (key : κ) :
    Latest (limiter.fireAndForget key) := by
  refine latest.frame ?_ ?_ rfl rfl rfl
  · intro func
    refine (limiter.put_submit _ func).trans (or_iff_right ?_)
    rintro ⟨-, started⟩
    exact started rfl
  · intro func there
    exact Limiter.keyOf_submit _ there.submitted

theorem Latest.put_step {limiter next : Limiter κ} (latest : Latest limiter) {number : Nat}
    (inOrder : InOrder limiter (.put number))
    (stepped : limiter.step (.put number) = some next) : Latest next := by
  obtain ⟨call, found, stepped⟩ := Option.bind_eq_some_iff.mp stepped
  have changed : next = (({ limiter with
      calls := limiter.calls.set number { call with phase := .queued } } :
        Limiter κ).enqueueInternal number call.key) := by
    unfold Limiter.put at stepped
    split at stepped
    · exact (Option.some.inj stepped).symm
    · exact (Option.some.inj stepped).symm
    · exact nomatch stepped
    · exact nomatch stepped
  obtain ⟨futures, queueMap⟩ := Limiter.enqueueInternal_get? ({ limiter with
    calls := limiter.calls.set number { call with phase := .queued } } : Limiter κ) number call.key
  obtain ⟨calls, worker, executed⟩ := Limiter.enqueueInternal_rest ({ limiter with
    calls := limiter.calls.set number { call with phase := .queued } } : Limiter κ) number call.key
  rw [← changed] at queueMap calls worker executed
  have belongs : limiter.keyOf number = some call.key := by
    unfold Limiter.keyOf
    rw [found]
    rfl
  have keys : ∀ func, next.keyOf func = limiter.keyOf func := by
    intro func
    unfold Limiter.keyOf
    rw [calls]
    by_cases same : func = number
    · subst same
      rw [List.getElem?_set_self', found]
      rfl
    · rw [List.getElem?_set_ne fun equal => same equal.symm]
  refine latest.enqueue ?_ (fun func _ => keys func) ((keys number).trans belongs) ?_ queueMap worker
    executed
  · intro func
    unfold Limiter.Put
    rw [calls]
    by_cases same : func = number
    · subst same
      rw [List.getElem?_set_self', found]
      exact iff_of_true ⟨_, rfl, nofun⟩ (.inl rfl)
    · rw [List.getElem?_set_ne fun equal => same equal.symm]
      exact (or_iff_right same).symm
  · intro later behind same
    rw [keys, ← belongs] at same
    exact inOrder later behind same

theorem Latest.pop_step {limiter next : Limiter κ} (latest : Latest limiter)
    (stepped : limiter.pop = some next) : Latest next := by
  unfold Limiter.pop at stepped
  split at stepped
  · rename_i key rest idle listed
    split at stepped
    · rename_i func futures there
      obtain rfl := Option.some.inj stepped
      have newest := latest.entry key func futures there
      refine ⟨?_, ?_, latest.put, latest.ordered, ?_⟩
      · intro other place waiting kept
        rw [Dict.get?_erase] at kept
        split_ifs at kept
        exact latest.entry other place waiting kept
      · intro task same
        obtain rfl := Option.some.inj same
        refine ⟨newest.1, newest.2.1, ?_⟩
        intro place member belongs
        by_contra behind
        exact newest.2.2 place (Nat.lt_of_not_le behind) belongs (latest.put place member)
      · intro other place here
        have here : Newest limiter other place := here
        by_cases same : other = key
        · subst same
          have equal : place = func := by
            rcases Nat.lt_trichotomy place func with less | equal | more
            · exact absurd newest.2.1 (here.2.2 func less newest.1)
            · exact equal
            · exact absurd here.2.1 (newest.2.2 place more here.1)
          rw [equal]
          exact .inr (.inl ⟨futures, rfl⟩)
        · rcases latest.last other place here with ⟨entry, kept⟩ | ⟨waiting, busy⟩ | executed
          · refine .inl ⟨entry, ?_⟩
            rw [Dict.get?_erase, if_neg same]
            exact kept
          · rw [idle] at busy
            exact nomatch busy
          · exact .inr (.inr executed)
    · obtain rfl := Option.some.inj stepped
      exact ⟨latest.1, latest.2, latest.3, latest.4, latest.5⟩
  · exact nomatch stepped

omit [DecidableEq κ] in
/-- An answer neither puts a call nor takes it back. -/
theorem Call.answer_phase (call : Call κ) (error : Option String) :
    (call.answer error).phase = .starting ↔ call.phase = .starting := by
  unfold Call.answer
  split
  · rename_i queued
    rw [queued]
    exact iff_of_false nofun nofun
  · rename_i queued
    rw [queued]
    split_ifs <;> exact iff_of_false nofun nofun
  · rfl

omit [DecidableEq κ] in
theorem Call.answer_key (call : Call κ) (error : Option String) :
    (call.answer error).key = call.key := by
  unfold Call.answer
  split
  · rfl
  · split_ifs <;> rfl
  · rfl

theorem Latest.finish_step {limiter next : Limiter κ} (latest : Latest limiter)
    {error : Option String} (stepped : limiter.finish error = some next) : Latest next := by
  unfold Limiter.finish at stepped
  split at stepped
  · rename_i task busy
    obtain rfl := Option.some.inj stepped
    -- first the calls are answered, then the worker is free
    let answered : Limiter κ := { limiter with
      calls := limiter.calls.mapIdx fun number call =>
        if number ∈ task.futures then call.answer error else call }
    have there : ∀ func, answered.calls[func]? = limiter.calls[func]?.map fun call =>
        if func ∈ task.futures then call.answer error else call := by
      intro func
      exact List.getElem?_mapIdx
    have calm : Latest answered := by
      refine latest.frame ?_ ?_ rfl rfl rfl
      · intro func
        unfold Limiter.Put
        rw [there]
        cases limiter.calls[func]? with
        | none => exact iff_of_false nofun nofun
        | some call =>
          have phase : (if func ∈ task.futures then call.answer error else call).phase = .starting ↔
              call.phase = .starting := by
            split_ifs
            · exact call.answer_phase error
            · rfl
          constructor
          · rintro ⟨_, ⟨⟩, put⟩
            exact ⟨call, rfl, fun start => put (phase.mpr start)⟩
          · rintro ⟨_, ⟨⟩, put⟩
            exact ⟨_, rfl, fun start => put (phase.mp start)⟩
      · intro func _
        unfold Limiter.keyOf
        rw [there, Option.map_map]
        cases limiter.calls[func]? with
        | none => rfl
        | some call =>
          show some (if func ∈ task.futures then call.answer error else call).key = some call.key
          split_ifs
          · rw [call.answer_key]
          · rfl
    obtain ⟨belongs, put, behind⟩ := calm.taken task busy
    refine ⟨calm.entry, nofun, ?_, ?_, ?_⟩
    · intro func member
      rcases List.mem_append.mp member with before | last
      · exact calm.put func before
      · rw [List.mem_singleton.mp last]
        exact put
    · refine List.pairwise_append.mpr ⟨calm.ordered, List.pairwise_singleton _ _, ?_⟩
      intro earlier member later last same
      obtain rfl := List.mem_singleton.mp last
      exact behind earlier member (Eq.trans same belongs)
    · intro key func here
      have newest : Newest answered key func := here
      rcases calm.last key func newest with entry | ⟨futures, working⟩ | last
      · exact .inl entry
      · have same : some task = some (⟨key, func, futures⟩ : LimiterTask κ) := busy.symm.trans working
        obtain rfl := Option.some.inj same
        refine .inr (.inr ?_)
        show (answered.under key (limiter.executed ++ [func])).getLast? = some func
        rw [Limiter.under_concat_of_eq _ belongs, List.getLast?_concat]
      · refine .inr (.inr ?_)
        show (answered.under key (limiter.executed ++ [task.func])).getLast? = some func
        by_cases same : task.key = key
        · -- the worker's function is no older than the newest one executed
          have known : answered.keyOf task.func = some key := belongs.trans (congrArg some same)
          have equal : func = task.func := by
            have inside := List.mem_of_getLast? last
            have member := (List.mem_filter.mp inside).1
            have least := behind func member (newest.1.trans (congrArg some same.symm))
            by_contra apart
            exact newest.2.2 task.func (Nat.lt_of_le_of_ne least apart) known put
          rw [Limiter.under_concat_of_eq _ known, List.getLast?_concat, equal]
        · have other : answered.keyOf task.func ≠ some key := by
            intro known
            exact same (Option.some.inj (belongs.symm.trans known))
          rw [Limiter.under_concat_of_ne _ other]
          exact last
  · exact nomatch stepped

/-- **Every step in order keeps the invariant.** -/
theorem latest_of_step {limiter next : Limiter κ} {action : LimiterAction κ}
    (latest : Latest limiter) (inOrder : InOrder limiter action)
    (stepped : limiter.step action = some next) : Latest next := by
  cases action with
  | enqueue key =>
    obtain rfl := Option.some.inj stepped
    exact latest.enqueue_step key
  | fireAndForget key =>
    obtain rfl := Option.some.inj stepped
    exact latest.fireAndForget_step key
  | put number => exact latest.put_step inOrder stepped
  | pop => exact latest.pop_step stepped
  | finish error => exact latest.finish_step stepped

theorem latest_of_reachable {limiter : Limiter κ}
    (reached : (limiterMachine κ).Reachable InOrder limiter) : Latest limiter := by
  apply reached.invariant
  · rintro limiter rfl
    refine ⟨?_, nofun, nofun, List.Pairwise.nil, ?_⟩
    · intro key func futures there
      exact nomatch there
    · rintro key func ⟨-, put, -⟩
      exact absurd put.submitted (Nat.not_lt_zero _)
  · intro limiter action next latest inOrder stepped
    exact latest_of_step latest inOrder stepped

/-- The last one of some numbers below a bound. -/
theorem last_of_filter_range {count last : Nat} {kept : Nat → Bool}
    (found : ((List.range count).filter kept).getLast? = some last) :
    kept last = true ∧ ∀ later, last < later → later < count → kept later = false := by
  obtain ⟨front, split⟩ := List.getLast?_eq_some_iff.mp found
  have member : last ∈ (List.range count).filter kept := by
    rw [split]
    exact List.mem_append_right _ (List.mem_singleton_self _)
  refine ⟨(List.mem_filter.mp member).2, ?_⟩
  intro later behind inside
  by_contra holds
  have there : later ∈ (List.range count).filter kept :=
    List.mem_filter.mpr ⟨List.mem_range.mpr inside, Bool.of_not_eq_false holds⟩
  have sorted := (List.pairwise_lt_range (n := count)).filter kept
  rw [split] at there sorted
  rcases List.mem_append.mp there with early | late
  · have before := (List.pairwise_append.mp sorted).2.2 later early last
      (List.mem_singleton_self _)
    omega
  · rw [List.mem_singleton.mp late] at behind
    exact absurd behind (Nat.lt_irrefl _)

/-- **The latest edit wins** in every run that puts in order. -/
theorem latest_edit_wins {limiter : Limiter κ}
    (reached : (limiterMachine κ).Reachable InOrder limiter) : LatestWins limiter := by
  have latest := latest_of_reachable reached
  refine ⟨latest.ordered, ?_⟩
  intro key drained
  obtain ⟨empty, idle, put⟩ := drained
  cases found : (limiter.under key (List.range limiter.calls.length)).getLast? with
  | none =>
    have nobody := List.getLast?_eq_none_iff.mp found
    rw [List.getLast?_eq_none_iff]
    refine List.filter_eq_nil_iff.mpr ?_
    intro func member
    have submitted := (latest.put func member).submitted
    exact List.filter_eq_nil_iff.mp nobody func (List.mem_range.mpr submitted)
  | some func =>
    obtain ⟨belongs, later⟩ := last_of_filter_range found
    have known := of_decide_eq_true belongs
    have newest : Newest limiter key func := by
      refine ⟨known, put func known, ?_⟩
      intro other behind same there
      have away := later other behind there.submitted
      exact of_decide_eq_false away same
    rcases latest.last key func newest with ⟨entry, there⟩ | ⟨futures, busy⟩ | last
    · rw [empty] at there
      exact nomatch there
    · exact absurd rfl (idle _ busy)
    · exact last

/-- A retry that nothing has overtaken. -/
theorem retriedEdit_wins : ∃ limiter : Limiter String, (limiterMachine String).run {}
    [.fireAndForget "k", .put 0, .pop, .finish (some "read timeout"), .put 0, .pop, .finish none,
      .enqueue "k", .pop, .finish none] = some limiter ∧
    limiter.executed = [0, 0, 1] ∧ LatestWins limiter := by
  have ran : ∃ limiter : Limiter String, (limiterMachine String).run {}
      [.fireAndForget "k", .put 0, .pop, .finish (some "read timeout"), .put 0, .pop, .finish none,
        .enqueue "k", .pop, .finish none] = some limiter ∧ limiter.executed = [0, 0, 1] :=
    ⟨_, rfl, rfl⟩
  obtain ⟨limiter, ran, executed⟩ := ran
  refine ⟨limiter, ran, executed, latest_edit_wins (Machine.reachable_of_obeys rfl _ ?_ ran)⟩
  have first : ∀ limiter : Limiter String, limiter.calls.length = 1 → InOrder limiter (.put 0) := by
    intro limiter one later behind _ there
    have submitted := there.submitted
    omega
  exact Machine.obeys_cons rfl trivial (Machine.obeys_cons rfl (first _ rfl)
    (Machine.obeys_cons rfl trivial (Machine.obeys_cons rfl trivial
    (Machine.obeys_cons rfl (first _ rfl) (Machine.obeys_cons rfl trivial
    (Machine.obeys_cons rfl trivial (Machine.obeys_cons rfl trivial
    (Machine.obeys_cons rfl trivial (Machine.obeys_cons rfl trivial Machine.obeys_nil)))))))))

/-- **A stale retry**: the first edit times out, the second is executed, and the retry of the first one
is executed behind it. -/
theorem retriedEdit_overwrites_newer : ∃ limiter : Limiter String, (limiterMachine String).run {}
    [.fireAndForget "k", .put 0, .pop, .enqueue "k", .finish (some "read timeout"), .pop,
      .finish none, .put 0, .pop, .finish none] = some limiter ∧
    limiter.executed = [0, 1, 0] ∧ ¬ LatestWins limiter := by
  refine ⟨_, rfl, rfl, ?_⟩
  intro wins
  have sorted : ([0, 1, 0] : List Nat).Pairwise _ := wins.ordered
  have late := (List.pairwise_cons.mp (List.pairwise_cons.mp sorted).2).1 0
    (List.mem_singleton_self 0) rfl
  exact absurd late (by decide)

end ClaudeProxy
