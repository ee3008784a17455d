/-
**The requests that wait for a provider** (`_execute_request_with_retry_and_fallback` in
`api/services.py`, where no candidate can be had).

A request puts itself into the queue before it waits, and takes an entry out of the queue when it goes on,
whichever entry comes first.

* `Room` — the queue, and the requests that wait; `roomMachine` — they arrive and leave in any order.
* `RoomKept` — a provider's heap has as many entries as requests wait for it.
* **`room_counts_waiters`** — of the entries of a provider, the queue holds the last ones, as many as there
  are requests that wait for it, although a request may take out the entry of another one.
-/

import ClaudeProxy.Library.Transition
import ClaudeProxy.Reliability.RequestQueue

namespace ClaudeProxy

/-! ### The room -/

/-- A request that waits, and the provider that it waits for. -/
structure Waiter where
  number : Nat
  providerId : String
  deriving DecidableEq

/-- The queue with the requests that wait; `arrived` and `taken` list the entries that were put into the
queue and taken out of it. -/
structure Room where
  queue : RequestQueue := {}
  waiters : List Waiter := []
  arrived : List QueuedRequest := []
  taken : List (Option QueuedRequest) := []

inductive RoomAction where
  | arrive (providerId : String) (payload : List (String × Json))
  | leave (waiter : Waiter)

namespace Room

/-- A request finds no candidate: `enqueue`, with the priority 1. -/
def arrive (room : Room) (providerId : String) (payload : List (String × Json)) : Room :=
  let (queue, entry) := room.queue.enqueue providerId payload 1
  { room with
    queue := queue
    waiters := room.waiters ++ [⟨room.arrived.length, providerId⟩]
    arrived := room.arrived ++ [entry] }

/-- It goes on, or is cancelled: `dequeue`, whose result is dropped. -/
def leave (room : Room) (waiter : Waiter) : Room :=
  let (queue, entry) := room.queue.dequeue waiter.providerId
  { room with
    queue := queue
    waiters := room.waiters.erase waiter
    taken := room.taken ++ [entry] }

def step (room : Room) : RoomAction → Option Room
  | .arrive providerId payload => some (room.arrive providerId payload)
  | .leave waiter => if waiter ∈ room.waiters then some (room.leave waiter) else none

/-- The requests that wait for a provider. -/
def waitersOf (room : Room) (providerId : String) : List Waiter :=
  room.waiters.filter (·.providerId = providerId)

/-- The entries that were put into the queue of a provider. -/
def arrivedOf (room : Room) (providerId : String) : List QueuedRequest :=
  room.arrived.filter (·.providerId = providerId)

end Room

def roomMachine : Machine Room RoomAction where
  init room := room = {}
  step := Room.step

/-! ### The invariant -/

/-- An item that goes before no other one is put behind them. -/
theorem orderedInsert_of_last {α : Type} {r : α → α → Prop} [DecidableRel r] {new : α} {items : List α}
    (last : ∀ item ∈ items, ¬ r new item) : items.orderedInsert r new = items ++ [new] := by
  induction items with
  | nil => rfl
  | cons item rest ih =>
    rw [List.orderedInsert_cons, if_neg (last item List.mem_cons_self),
      ih fun other member => last other (List.mem_cons_of_mem _ member), List.cons_append]

theorem filter_concat {α : Type} (items : List α) (new : α) (p : α → Bool) :
    (items ++ [new]).filter p = items.filter p ++ if p new then [new] else [] := by
  rw [List.filter_append, List.filter_cons, List.filter_nil]

/-- **A provider's heap**: its entries have one priority and are the last ones that were put into it, as
many as there are requests that wait. -/
structure HeapKept (room : Room) (providerId : String) : Prop where
  plain : ∀ entry ∈ room.queue.heapOf providerId,
    entry.negPriority = -1 ∧ entry.sequence ≤ room.queue.counter
  newest : ∃ gone, room.arrivedOf providerId =
    gone ++ (room.queue.heapOf providerId).map QueueEntry.request
  counts : (room.queue.heapOf providerId).length = (room.waitersOf providerId).length

/-- The invariant of the room. -/
structure RoomKept (room : Room) : Prop where
  heaps : ∀ providerId, HeapKept room providerId
  served : none ∉ room.taken

namespace RoomKept

variable {room : Room}

theorem empty : RoomKept {} where
  heaps _ := ⟨nofun, ⟨[], rfl⟩, rfl⟩
  served := nofun

theorem heapOf_enqueue (queue : RequestQueue) (providerId other : String)
    (payload : List (String × Json)) :
    (queue.enqueue providerId payload 1).1.heapOf other =
      if other = providerId then
        (queue.heapOf providerId).orderedInsert QueueEntry.lt
          ⟨-1, queue.counter + 1, ⟨providerId, payload, 1, queue.futures.length⟩⟩
      else queue.heapOf other :=
  KeepsList.heapOf_set { queue with
    counter := queue.counter + 1, futures := queue.futures ++ [.pending] } providerId other _

/-- **A request arrives.** -/
theorem arrive (kept : RoomKept room) (providerId : String) (payload : List (String × Json)) :
    RoomKept (room.arrive providerId payload) := by
  refine ⟨fun other => ?_, kept.served⟩
  obtain ⟨plain, ⟨gone, newest⟩, counts⟩ := kept.heaps other
  have heap := heapOf_enqueue room.queue providerId other payload
  have arrived : (room.arrive providerId payload).arrivedOf other = room.arrivedOf other ++
      if other = providerId then [⟨providerId, payload, 1, room.queue.futures.length⟩] else [] := by
    refine (filter_concat _ _ _).trans ?_
    exact congrArg _ (if_congr (decide_eq_true_iff.trans eq_comm) rfl rfl)
  have waits : (room.arrive providerId payload).waitersOf other = room.waitersOf other ++
      if other = providerId then [⟨room.arrived.length, providerId⟩] else [] := by
    refine (filter_concat _ _ _).trans ?_
    exact congrArg _ (if_congr (decide_eq_true_iff.trans eq_comm) rfl rfl)
  have heapIs : (room.arrive providerId payload).queue.heapOf other = room.queue.heapOf other ++
      if other = providerId then
        [⟨-1, room.queue.counter + 1, ⟨providerId, payload, 1, room.queue.futures.length⟩⟩]
      else [] := by
    refine heap.trans ?_
    by_cases same : other = providerId
    · subst same
      rw [if_pos rfl, if_pos rfl]
      refine orderedInsert_of_last fun entry member => ?_
      obtain ⟨one, older⟩ := plain entry member
      rintro (less | ⟨-, younger⟩)
      · rw [one] at less
        exact lt_irrefl _ less
      · exact absurd younger (by dsimp only; omega)
    · rw [if_neg same, if_neg same, List.append_nil]
  refine ⟨?_, ?_, ?_⟩
  · intro entry member
    rw [heapIs] at member
    show _ ∧ entry.sequence ≤ room.queue.counter + 1
    rcases List.mem_append.mp member with old | new
    · exact ⟨(plain entry old).1, (plain entry old).2.trans (Nat.le_succ _)⟩
    · split_ifs at new with same
      · rw [List.mem_singleton.mp new]
        exact ⟨rfl, le_rfl⟩
      · cases new
  · rw [heapIs, arrived, newest]
    refine ⟨gone, ?_⟩
    rw [List.map_append, List.append_assoc]
    split_ifs <;> rfl
  · rw [heapIs, waits, List.length_append, List.length_append, counts]
    split_ifs <;> rfl

/-- A waiter that leaves is one less for its provider. -/
theorem waitersOf_leave (room : Room) {waiter : Waiter} (waits : waiter ∈ room.waiters)
    (other : String) : ((room.leave waiter).waitersOf other).length +
      (if other = waiter.providerId then 1 else 0) = (room.waitersOf other).length := by
  have perm := (List.perm_cons_erase waits).filter fun one => decide (one.providerId = other)
  have length := perm.length_eq
  show ((room.waiters.erase waiter).filter _).length + _ = (room.waiters.filter _).length
  rw [length, List.filter_cons]
  by_cases same : other = waiter.providerId
  · rw [if_pos same, if_pos (decide_eq_true same.symm), List.length_cons]
  · rw [if_neg same, if_neg (by simpa using Ne.symm same)]
    rfl

/-- **A request leaves**, and takes the first entry of its provider with it. -/
theorem leave (kept : RoomKept room) {waiter : Waiter} (waits : waiter ∈ room.waiters) :
    RoomKept (room.leave waiter) := by
  have own := kept.heaps waiter.providerId
  have some_ : 0 < (room.queue.heapOf waiter.providerId).length := by
    rw [own.counts]
    exact List.length_pos_of_mem (List.mem_filter.mpr ⟨waits, decide_eq_true rfl⟩)
  obtain ⟨first, rest, heap⟩ := List.exists_cons_of_length_pos some_
  have found : room.queue.queues.get? waiter.providerId = some (first :: rest) := by
    unfold RequestQueue.heapOf at heap
    cases found : room.queue.queues.get? waiter.providerId with
    | none =>
      rw [found] at heap
      cases heap
    | some entries =>
      rw [found] at heap
      exact congrArg some heap
  have next : room.queue.dequeue waiter.providerId =
      ({ room.queue with queues := room.queue.queues.set waiter.providerId rest },
        some first.request) := by
    unfold RequestQueue.dequeue
    rw [found]
  have queue : (room.leave waiter).queue =
      { room.queue with queues := room.queue.queues.set waiter.providerId rest } :=
    congrArg Prod.fst next
  have taken : (room.leave waiter).taken = room.taken ++ [some first.request] := by
    show room.taken ++ [(room.queue.dequeue waiter.providerId).2] = _
    rw [next]
  refine ⟨fun other => ?_, ?_⟩
  · obtain ⟨plain, ⟨gone, newest⟩, counts⟩ := kept.heaps other
    have fewer := waitersOf_leave room waits other
    have heapIs : (room.leave waiter).queue.heapOf other =
        if other = waiter.providerId then rest else room.queue.heapOf other := by
      rw [queue]
      exact KeepsList.heapOf_set _ _ _ _
    by_cases same : other = waiter.providerId
    · rw [if_pos same] at heapIs fewer
      rw [same, heap] at plain newest counts
      rw [List.length_cons, ← same] at counts
      refine ⟨?_, ?_, ?_⟩
      · rw [heapIs, queue]
        exact fun entry member => plain entry (List.mem_cons_of_mem _ member)
      · rw [heapIs]
        refine ⟨gone ++ [first.request], ?_⟩
        show room.arrivedOf other = _
        rw [same, newest, List.map_cons, List.append_assoc, List.singleton_append]
      · rw [heapIs]
        omega
    · rw [if_neg same] at heapIs fewer
      refine ⟨?_, ?_, ?_⟩
      · rw [heapIs, queue]
        exact plain
      · rw [heapIs]
        exact ⟨gone, newest⟩
      · rw [heapIs, counts]
        exact fewer.symm
  · rw [taken]
    intro member
    rcases List.mem_append.mp member with before | here
    · exact kept.served before
    · cases List.mem_singleton.mp here

end RoomKept

theorem kept_of_roomMachine {room : Room}
    (reached : roomMachine.Reachable Machine.unguarded room) : RoomKept room := by
  refine Machine.Reachable.invariant ?_ ?_ reached
  · rintro _ rfl
    exact .empty
  · intro room action next kept _ stepped
    cases action with
    | arrive providerId payload =>
      obtain rfl := Option.some.inj stepped
      exact kept.arrive providerId payload
    | leave waiter =>
      obtain ⟨waits, same⟩ := Option.ite_none_right_eq_some.mp stepped
      obtain rfl := Option.some.inj same
      exact kept.leave waits

/-- **The queue counts the requests that wait.** In whatever order they arrive and leave: a provider's queue
is as long as the list of requests that wait for it, it holds the entries that were put in last, and a
request that leaves always finds one to take out. -/
theorem room_counts_waiters {room : Room}
    (reached : roomMachine.Reachable Machine.unguarded room) (providerId : String) :
    room.queue.size (some providerId) = (room.waitersOf providerId).length ∧
      (room.queue.heapOf providerId).map QueueEntry.request =
        (room.arrivedOf providerId).drop
          ((room.arrivedOf providerId).length - (room.waitersOf providerId).length) ∧
      none ∉ room.taken := by
  have kept := kept_of_roomMachine reached
  obtain ⟨-, ⟨gone, newest⟩, counts⟩ := kept.heaps providerId
  refine ⟨counts, ?_, kept.served⟩
  have many : (room.arrivedOf providerId).length - (room.waitersOf providerId).length = gone.length := by
    rw [newest, List.length_append, List.length_map, counts]
    exact Nat.add_sub_cancel _ _
  rw [many, newest, List.drop_left]

/-- Two requests wait for one provider, and the second one leaves first: it takes the entry of the first
one. -/
theorem second_takes_first : ∃ room, roomMachine.run {}
      [.arrive "groq" [], .arrive "groq" [("model", .str "m")], .leave ⟨1, "groq"⟩] = some room ∧
    room.taken.map (Option.map QueuedRequest.future) = [some 0] ∧
    room.queue.size (some "groq") = (room.waitersOf "groq").length := by
  have shape : (roomMachine.run {}
      [.arrive "groq" [], .arrive "groq" [("model", .str "m")], .leave ⟨1, "groq"⟩]).map
        (fun room => room.taken.map (Option.map QueuedRequest.future)) = some [some 0] := by
    decide +kernel
  obtain ⟨room, ran, taken⟩ := Option.map_eq_some_iff.mp shape
  have reached := Machine.reachable_of_run_unguarded _ rfl ran
  exact ⟨room, ran, taken, (room_counts_waiters reached "groq").1⟩

end ClaudeProxy
