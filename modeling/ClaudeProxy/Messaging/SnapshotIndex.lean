/-
**The index of the snapshot queue** (`_SnapshotQueue` of `trees/data.py`).

* `snapshotQueueMachine` — the four operations, in any order; `get_nowait` of an empty queue raises and leaves
  it as it is.
* `Indexed` — the set holds what the deque holds, and `remove_if_present` removes every occurrence.
* `TakesLast` — `get_nowait` takes an item that does not occur again behind it.
* **`indexed_iff_takesLast`** — a queue is indexed throughout exactly when every `get_nowait` does;
  `doublePut_loses` — an id that was put twice.
-/

import ClaudeProxy.Library.Transition
import ClaudeProxy.Messaging.TreeQueue

namespace ClaudeProxy

namespace SnapshotQueue

/-- `put`, whose body awaits nothing. -/
def put (queue : SnapshotQueue) (item : String) : SnapshotQueue :=
  ⟨queue.deque ++ [item], item :: queue.index⟩

/-- What `remove_if_present` returns. -/
def isPresent (queue : SnapshotQueue) (item : String) : Bool := decide (item ∈ queue.index)

end SnapshotQueue

inductive QueueAction where
  | put (item : String)
  | putNowait (item : String)
  | getNowait
  | removeIfPresent (item : String)
  deriving DecidableEq

def SnapshotQueue.step (queue : SnapshotQueue) : QueueAction → SnapshotQueue
  | .put item => queue.put item
  | .putNowait item => queue.putNowait item
  | .getNowait => (queue.getNowait.map Prod.snd).getD queue
  | .removeIfPresent item => queue.removeIfPresent item

def snapshotQueueMachine : Machine SnapshotQueue QueueAction where
  init queue := queue = SnapshotQueue.empty
  step queue action := some (queue.step action)

/-! ### What is asked -/

namespace SnapshotQueue

/-- **The index is exact**, and what is queued can be removed. -/
structure Indexed (queue : SnapshotQueue) : Prop where
  same : ∀ item, item ∈ queue.index ↔ item ∈ queue.deque
  removes : ∀ item ∈ queue.deque, queue.isPresent item = true ∧
    (queue.removeIfPresent item).deque = queue.deque.filter (· ≠ item)

/-- `get_nowait` takes an item that does not occur again behind it. -/
def TakesLast (queue : SnapshotQueue) : QueueAction → Prop
  | .getNowait => ∀ item rest, queue.deque = item :: rest → item ∉ rest
  | _ => True

theorem indexed_iff {queue : SnapshotQueue} :
    queue.Indexed ↔ ∀ item, item ∈ queue.index ↔ item ∈ queue.deque := by
  refine ⟨Indexed.same, fun same => ⟨same, fun item queued => ?_⟩⟩
  have inside := (same item).mpr queued
  refine ⟨decide_eq_true inside, ?_⟩
  rw [removeIfPresent, if_pos inside]

variable {queue : SnapshotQueue}

theorem Indexed.put (indexed : queue.Indexed) (item : String) : (queue.put item).Indexed := by
  refine indexed_iff.mpr fun other => ?_
  show other ∈ item :: queue.index ↔ other ∈ queue.deque ++ [item]
  rw [List.mem_cons, List.mem_append, List.mem_singleton, indexed.same other]
  exact or_comm

theorem Indexed.removeIfPresent (indexed : queue.Indexed) (item : String) :
    (queue.removeIfPresent item).Indexed := by
  rw [SnapshotQueue.removeIfPresent]
  split_ifs
  · refine indexed_iff.mpr fun other => ?_
    rw [List.mem_filter, List.mem_filter, indexed.same other]
  · exact indexed

/-- **`get_nowait`** keeps the index exact only if the item does not occur again. -/
theorem Indexed.getNowait_iff (indexed : queue.Indexed) :
    (queue.step .getNowait).Indexed ↔ queue.TakesLast .getNowait := by
  cases waiting : queue.deque with
  | nil =>
    have stays : queue.step .getNowait = queue := by
      rw [step, getNowait, waiting]
      rfl
    rw [stays]
    refine iff_of_true indexed fun item rest same => ?_
    rw [waiting] at same
    cases same
  | cons item rest =>
    have taken : queue.step .getNowait = ⟨rest, queue.index.filter (· ≠ item)⟩ := by
      rw [step, getNowait, waiting]
      rfl
    rw [taken, indexed_iff]
    constructor
    · intro exact_ first behind same
      rw [waiting] at same
      cases same
      intro again
      have kept := (exact_ item).mpr again
      exact absurd rfl (of_decide_eq_true (List.mem_filter.mp kept).2)
    · intro last other
      have fresh := last item rest waiting
      rw [List.mem_filter, indexed.same other, waiting, List.mem_cons, decide_eq_true_iff]
      constructor
      · rintro ⟨rfl | inside, different⟩
        · exact absurd rfl different
        · exact inside
      · intro inside
        exact ⟨.inr inside, fun same => fresh (same ▸ inside)⟩

end SnapshotQueue

open SnapshotQueue (Indexed TakesLast)

/-- **Exactly these runs are indexed**: in a run of the queue, the set index holds what the deque holds
and `remove_if_present` removes every occurrence of a queued id, in every state, if and only if every
`get_nowait` takes an id that does not occur again. -/
theorem indexed_iff_takesLast (actions : List QueueAction) :
    snapshotQueueMachine.Throughout SnapshotQueue.empty actions Indexed ↔
      snapshotQueueMachine.Obeys SnapshotQueue.empty actions TakesLast := by
  obtain ⟨last, ran⟩ : ∃ last, snapshotQueueMachine.run SnapshotQueue.empty actions = some last := by
    induction actions using List.reverseRecOn with
    | nil => exact ⟨_, rfl⟩
    | append_singleton past action ih =>
      obtain ⟨middle, ran⟩ := ih
      exact ⟨middle.step action, by rw [Machine.run_concat, ran]; rfl⟩
  have starts : Indexed SnapshotQueue.empty := SnapshotQueue.indexed_iff.mpr fun _ => Iff.rfl
  refine (Machine.throughout_iff_obeys (⟨trivial, starts⟩ : True ∧ _) (fun _ _ _ _ _ => trivial) ?_
    actions ran).2
  intro queue action next _ indexed stepped
  obtain rfl := Option.some.inj stepped
  cases action with
  | put item => exact iff_of_true (indexed.put item) trivial
  | putNowait item => exact iff_of_true (indexed.put item) trivial
  | getNowait => exact indexed.getNowait_iff
  | removeIfPresent item => exact iff_of_true (indexed.removeIfPresent item) trivial

/-- **An id that was put twice and taken once** is still queued, and cannot be removed. -/
theorem doublePut_loses :
    ¬ snapshotQueueMachine.Throughout SnapshotQueue.empty [.put "42", .putNowait "42", .getNowait]
      Indexed := by
  intro all
  have indexed := all _ List.prefix_rfl ⟨["42"], []⟩ (by decide)
  exact absurd (indexed.removes "42" (by decide)).1 (by decide)

end ClaudeProxy
