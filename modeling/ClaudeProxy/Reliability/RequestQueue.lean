/-
**The request queue** (`core/reliability/request_queue.py`).

* `RequestQueue` — a heap for each provider, whose entries are ordered by their negated priority and by a
  counter; the lock makes each operation one step.
* `WaitingList` — what the queue is for: the requests that wait, in the order of their arrival.
* `KeepsList` — a queue holds a waiting list.
* **`requestQueue_serves`** — whatever is enqueued, dequeued, cleared and settled, in any order, the queue
  answers as the waiting list does: a provider's oldest request of the highest priority is served first.
-/

import ClaudeProxy.Library.Dict
import ClaudeProxy.Library.StableQueue
import ClaudeProxy.Json
import Mathlib.Data.List.Nodup

namespace ClaudeProxy

/-! ### The queue -/

/-- The state of a future. -/
inductive RequestFuture where
  | pending
  | done
  | cancelled
  deriving DecidableEq, Repr

/-- `QueuedRequest`; its future is known by its number. -/
structure QueuedRequest where
  providerId : String
  payload : List (String × Json)
  priority : Int
  future : Nat

/-- A tuple of a provider's heap. The counter tells any two of them apart, so that the requests are never
compared. -/
structure QueueEntry where
  negPriority : Int
  sequence : Nat
  request : QueuedRequest

/-- A tuple is less than another one. -/
def QueueEntry.lt (first second : QueueEntry) : Prop :=
  first.negPriority < second.negPriority ∨
    first.negPriority = second.negPriority ∧ first.sequence < second.sequence

instance : DecidableRel QueueEntry.lt := fun first second =>
  inferInstanceAs (Decidable (first.negPriority < second.negPriority ∨
    first.negPriority = second.negPriority ∧ first.sequence < second.sequence))

/-- `RequestQueue`, with all futures that it has made. -/
structure RequestQueue where
  queues : Dict String (List QueueEntry) := ∅
  counter : Nat := 0
  futures : List RequestFuture := []

/-- `future.cancel()`, of one that is not done. -/
def cancelFuture (futures : List RequestFuture) (future : Nat) : List RequestFuture :=
  futures.modify future fun state => if state = .pending then .cancelled else state

namespace RequestQueue

/-- The heap of a provider, in the order in which it gives out its entries. -/
def heapOf (queue : RequestQueue) (providerId : String) : List QueueEntry :=
  (queue.queues.get? providerId).getD []

def enqueue (queue : RequestQueue) (providerId : String) (payload : List (String × Json))
    (priority : Int) : RequestQueue × QueuedRequest :=
  let counter := queue.counter + 1
  let req : QueuedRequest := ⟨providerId, payload, priority, queue.futures.length⟩
  let heap := (queue.heapOf providerId).orderedInsert QueueEntry.lt ⟨-priority, counter, req⟩
  ({ queues := queue.queues.set providerId heap
     counter := counter
     futures := queue.futures ++ [.pending] }, req)

def dequeue (queue : RequestQueue) (providerId : String) : RequestQueue × Option QueuedRequest :=
  match queue.queues.get? providerId with
  | none | some [] => (queue, none)
  | some (entry :: rest) =>
    ({ queue with queues := queue.queues.set providerId rest }, some entry.request)

def size (queue : RequestQueue) : Option String → Nat
  | some providerId => (queue.heapOf providerId).length
  | none => queue.queues.values.foldr (fun heap total => heap.length + total) 0

/-- `clear`: the pending futures of all queues are cancelled. -/
def clear (queue : RequestQueue) : RequestQueue :=
  { queue with
    queues := ∅
    futures := queue.queues.values.flatten.foldl
      (fun futures entry => cancelFuture futures entry.request.future) queue.futures }

end RequestQueue

/-- What is done with a queue; a request that is dequeued may be settled by who holds it. -/
inductive QueueOperation where
  | enqueue (providerId : String) (payload : List (String × Json)) (priority : Int)
  | dequeue (providerId : String)
  | size (providerId : Option String)
  | clear
  | settle (future : Nat)
  | future (future : Nat)

/-- What an operation returns. -/
inductive QueueAnswer where
  | request (request : Option QueuedRequest)
  | size (size : Nat)
  | future (state : Option RequestFuture)
  | nothing

def settleFuture (futures : List RequestFuture) (future : Nat) : List RequestFuture :=
  futures.modify future fun state => if state = .pending then .done else state

def RequestQueue.perform (queue : RequestQueue) : QueueOperation → RequestQueue × QueueAnswer
  | .enqueue providerId payload priority =>
    let (queue, req) := queue.enqueue providerId payload priority
    (queue, .request (some req))
  | .dequeue providerId =>
    let (queue, req) := queue.dequeue providerId
    (queue, .request req)
  | .size providerId => (queue, .size (queue.size providerId))
  | .clear => (queue.clear, .nothing)
  | .settle future => ({ queue with futures := settleFuture queue.futures future }, .nothing)
  | .future future => (queue, .future queue.futures[future]?)

/-- The answers to a list of operations. -/
def RequestQueue.answers (queue : RequestQueue) : List QueueOperation → List QueueAnswer
  | [] => []
  | operation :: rest =>
    (queue.perform operation).2 :: RequestQueue.answers (queue.perform operation).1 rest

/-! ### What it is for -/

/-- **The requests that wait**, in the order of their arrival. -/
structure WaitingList where
  waiting : List QueuedRequest := []
  futures : List RequestFuture := []

namespace WaitingList

def ofProvider (list : WaitingList) (providerId : String) : List QueuedRequest :=
  list.waiting.filter (·.providerId = providerId)

/-- The first request of the highest priority. -/
def next (list : WaitingList) (providerId : String) : Option QueuedRequest :=
  (list.ofProvider providerId).find? fun request =>
    (list.ofProvider providerId).all fun other => other.priority ≤ request.priority

def perform (list : WaitingList) : QueueOperation → WaitingList × QueueAnswer
  | .enqueue providerId payload priority =>
    let req : QueuedRequest := ⟨providerId, payload, priority, list.futures.length⟩
    (⟨list.waiting ++ [req], list.futures ++ [.pending]⟩, .request (some req))
  | .dequeue providerId =>
    match list.next providerId with
    | none => (list, .request none)
    | some req =>
      ({ list with waiting := list.waiting.filter (·.future ≠ req.future) }, .request (some req))
  | .size (some providerId) => (list, .size (list.ofProvider providerId).length)
  | .size none => (list, .size list.waiting.length)
  | .clear =>
    ({ waiting := []
       futures := list.futures.mapIdx fun future state =>
         if future ∈ list.waiting.map QueuedRequest.future ∧ state = .pending then .cancelled
         else state }, .nothing)
  | .settle future => ({ list with futures := settleFuture list.futures future }, .nothing)
  | .future future => (list, .future list.futures[future]?)

def answers (list : WaitingList) : List QueueOperation → List QueueAnswer
  | [] => []
  | operation :: rest => (list.perform operation).2 :: answers (list.perform operation).1 rest

end WaitingList

/-! ### The sizes of all heaps -/

/-- What an assignment changes in a sum over the values. -/
theorem total_values_set {α : Type} (dict : Dict String α) (key : String) (value : α) (f : α → Nat) :
    (dict.set key value).values.foldr (fun value total => f value + total) 0 +
        ((dict.get? key).map f).getD 0 =
      dict.values.foldr (fun value total => f value + total) 0 + f value := by
  show ((Assoc.set key value dict.entries).map Prod.snd).foldr (fun value total => f value + total) 0 +
      ((Assoc.get? key dict.entries).map f).getD 0 =
    (dict.entries.map Prod.snd).foldr (fun value total => f value + total) 0 + f value
  induction dict.entries with
  | nil => simp [Assoc.set]
  | cons entry rest ih =>
    rw [Assoc.get?_cons, Assoc.set]
    split_ifs with same
    · simp only [List.map_cons, List.foldr_cons, Option.map_some, Option.getD_some]
      omega
    · simp only [List.map_cons, List.foldr_cons]
      omega

/-! ### A queue holds a waiting list -/

/-- The tuple of a request. -/
def QueuedRequest.entry (request : QueuedRequest) : QueueEntry :=
  ⟨-request.priority, request.future + 1, request⟩

/-- A request's tuple is the less one. -/
def QueuedRequest.before (first second : QueuedRequest) : Prop := first.entry.lt second.entry

instance : DecidableRel QueuedRequest.before := fun first second =>
  inferInstanceAs (Decidable (first.entry.lt second.entry))

/-- A new request is put before those of a lower priority. -/
theorem QueuedRequest.before_iff {new other : QueuedRequest} (older : other.future < new.future) :
    new.before other ↔ other.priority < new.priority := by
  unfold before QueueEntry.lt entry
  dsimp only
  omega

/-- **The queue holds these requests.** -/
structure KeepsList (queue : RequestQueue) (list : WaitingList) : Prop where
  futures : queue.futures = list.futures
  counter : queue.counter = list.futures.length
  aged : list.waiting.Pairwise fun earlier later => earlier.future < later.future
  young : ∀ request ∈ list.waiting, request.future < list.futures.length
  heaps : ∀ providerId, ∃ ranked, queue.heapOf providerId = ranked.map QueuedRequest.entry ∧
    Ranks QueuedRequest.priority QueuedRequest.future (list.ofProvider providerId) ranked
  total : queue.queues.values.foldr (fun heap total => heap.length + total) 0 = list.waiting.length

namespace KeepsList

variable {queue : RequestQueue} {list : WaitingList}

theorem empty : KeepsList {} {} where
  futures := rfl
  counter := rfl
  aged := .nil
  young := nofun
  heaps _ := ⟨[], rfl, .nil⟩
  total := rfl

theorem heapOf_set (queue : RequestQueue) (providerId other : String) (heap : List QueueEntry) :
    ({ queue with queues := queue.queues.set providerId heap } : RequestQueue).heapOf other =
      if other = providerId then heap else queue.heapOf other := by
  unfold RequestQueue.heapOf
  dsimp only
  rw [Dict.get?_set]
  split_ifs <;> rfl

/-- **A request arrives.** -/
theorem enqueue (keeps : KeepsList queue list) (providerId : String) (payload : List (String × Json))
    (priority : Int) :
    KeepsList (queue.enqueue providerId payload priority).1
      ⟨list.waiting ++ [⟨providerId, payload, priority, list.futures.length⟩],
        list.futures ++ [.pending]⟩ := by
  obtain ⟨sameFutures, counter, aged, young, heaps, total⟩ := keeps
  obtain ⟨ranked, heap, ranks⟩ := heaps providerId
  set new : QueuedRequest := ⟨providerId, payload, priority, list.futures.length⟩ with isNew
  have older : ∀ other ∈ list.ofProvider providerId, other.future < new.future := fun other member =>
    young other (List.mem_of_mem_filter member)
  have inserted : (queue.heapOf providerId).orderedInsert QueueEntry.lt
      ⟨-priority, queue.counter + 1, ⟨providerId, payload, priority, queue.futures.length⟩⟩ =
        (ranked.orderedInsert QueuedRequest.before new).map QueuedRequest.entry := by
    rw [heap, counter, sameFutures]
    exact (List.map_orderedInsert QueuedRequest.before QueueEntry.lt QueuedRequest.entry ranked new
      (fun _ _ => Iff.rfl) (fun _ _ => Iff.rfl)).symm
  refine ⟨?_, ?_, ?_, ?_, fun other => ?_, ?_⟩
  · exact congrArg (· ++ [RequestFuture.pending]) sameFutures
  · show queue.counter + 1 = _
    rw [counter, List.length_append, List.length_singleton]
  · refine List.pairwise_append.mpr ⟨aged, List.pairwise_singleton _ _, ?_⟩
    intro request member other isOther
    rw [List.mem_singleton.mp isOther]
    exact young request member
  · intro request member
    rw [List.length_append, List.length_singleton]
    rcases List.mem_append.mp member with before | here
    · exact Nat.lt_succ_of_lt (young request before)
    · rw [List.mem_singleton.mp here]
      exact Nat.lt_succ_self _
  · by_cases same : other = providerId
    · subst same
      refine ⟨ranked.orderedInsert QueuedRequest.before new, ?_, ?_⟩
      · refine (heapOf_set queue other other _).trans ?_
        rw [if_pos rfl]
        exact inserted
      · have arrives : (WaitingList.mk (list.waiting ++ [new]) (list.futures ++ [.pending])).ofProvider
            other = list.ofProvider other ++ [new] := by
          unfold WaitingList.ofProvider
          rw [List.filter_append, List.filter_cons_of_pos (by simp [isNew]), List.filter_nil]
        rw [arrives]
        exact ranks.put (fun item member => QueuedRequest.before_iff (older item member)) older
    · obtain ⟨others, heap, ranks⟩ := heaps other
      refine ⟨others, ?_, ?_⟩
      · refine (heapOf_set queue providerId other _).trans ?_
        rw [if_neg same]
        exact heap
      · have stays : (WaitingList.mk (list.waiting ++ [new]) (list.futures ++ [.pending])).ofProvider
            other = list.ofProvider other := by
          unfold WaitingList.ofProvider
          rw [List.filter_append, List.filter_cons_of_neg (by simpa [isNew] using Ne.symm same),
            List.filter_nil, List.append_nil]
        rw [stays]
        exact ranks
  · have changed := total_values_set queue.queues providerId ((queue.heapOf providerId).orderedInsert
      QueueEntry.lt ⟨-priority, queue.counter + 1, ⟨providerId, payload, priority,
        queue.futures.length⟩⟩) List.length
    have grown := List.orderedInsert_length QueueEntry.lt (queue.heapOf providerId)
      ⟨-priority, queue.counter + 1, ⟨providerId, payload, priority, queue.futures.length⟩⟩
    have old : ((queue.queues.get? providerId).map List.length).getD 0 =
        (queue.heapOf providerId).length := by
      unfold RequestQueue.heapOf
      cases queue.queues.get? providerId <;> rfl
    rw [List.length_append, List.length_singleton]
    show (queue.queues.set providerId _).values.foldr (fun heap total => heap.length + total) 0 = _
    omega

/-- The requests that wait without the one that is served. -/
theorem length_without {request : QueuedRequest} (keeps : KeepsList queue list)
    (inside : request ∈ list.waiting) :
    (list.waiting.filter fun other => other.future ≠ request.future).length + 1 =
      list.waiting.length := by
  obtain ⟨before, after, split⟩ := List.append_of_mem inside
  have aged := keeps.aged
  rw [split] at aged ⊢
  obtain ⟨-, behind, crossing⟩ := List.pairwise_append.mp aged
  have front : before.filter (fun other => decide (other.future ≠ request.future)) = before := by
    refine List.filter_eq_self.mpr fun other member => decide_eq_true ?_
    exact (crossing other member request List.mem_cons_self).ne
  have back : after.filter (fun other => decide (other.future ≠ request.future)) = after := by
    refine List.filter_eq_self.mpr fun other member => decide_eq_true ?_
    exact ((List.pairwise_cons.mp behind).1 other member).ne'
  rw [List.filter_append, List.filter_cons_of_neg (by simp), front, back, List.length_append,
    List.length_append, List.length_cons]
  omega

/-- A future tells a request that waits. -/
theorem eq_of_future {first second : QueuedRequest} (keeps : KeepsList queue list)
    (firstIn : first ∈ list.waiting) (secondIn : second ∈ list.waiting)
    (same : first.future = second.future) : first = second := by
  have apart : (list.waiting.map QueuedRequest.future).Nodup :=
    List.pairwise_map.mpr (keeps.aged.imp fun older => older.ne)
  exact List.inj_on_of_nodup_map apart firstIn secondIn same

/-- What is left of a provider's requests. -/
theorem ofProvider_without (list : WaitingList) (served : QueuedRequest) (providerId : String) :
    WaitingList.ofProvider { list with
        waiting := list.waiting.filter fun other => other.future ≠ served.future } providerId =
      (list.ofProvider providerId).filter fun other => other.future ≠ served.future := by
  unfold WaitingList.ofProvider
  dsimp only
  rw [List.filter_filter, List.filter_filter]
  exact List.filter_congr fun _ _ => Bool.and_comm _ _

/-- **A request is served**: the one that the waiting list says. -/
theorem dequeue (keeps : KeepsList queue list) (providerId : String) :
    (queue.dequeue providerId).2 = list.next providerId ∧
      KeepsList (queue.dequeue providerId).1 (list.perform (.dequeue providerId)).1 := by
  obtain ⟨ranked, heap, ranks⟩ := keeps.heaps providerId
  have first := ranks.head
  unfold WaitingList.perform WaitingList.next
  dsimp only
  rw [← first]
  cases ranked with
  | nil =>
    have none_ : queue.dequeue providerId = (queue, none) := by
      unfold RequestQueue.heapOf at heap
      unfold RequestQueue.dequeue
      cases found : queue.queues.get? providerId with
      | none => rfl
      | some entries =>
        rw [found] at heap
        obtain rfl : entries = [] := heap
        rfl
    rw [none_]
    exact ⟨rfl, keeps⟩
  | cons served rest =>
    have found : queue.queues.get? providerId = some ((served :: rest).map QueuedRequest.entry) := by
      unfold RequestQueue.heapOf at heap
      cases found : queue.queues.get? providerId with
      | none =>
        rw [found] at heap
        cases heap
      | some entries =>
        rw [found] at heap
        exact congrArg some heap
    have next : queue.dequeue providerId =
        ({ queue with queues := queue.queues.set providerId (rest.map QueuedRequest.entry) },
          some served) := by
      unfold RequestQueue.dequeue
      rw [found]
      rfl
    have inside : served ∈ list.ofProvider providerId := ranks.perm.mem_iff.mp List.mem_cons_self
    have waits : served ∈ list.waiting := List.mem_of_mem_filter inside
    have isOf : served.providerId = providerId := of_decide_eq_true (List.mem_filter.mp inside).2
    rw [next]
    refine ⟨rfl, ⟨keeps.futures, keeps.counter, keeps.aged.filter _, ?_, fun other => ?_, ?_⟩⟩
    · exact fun request member => keeps.young request (List.mem_of_mem_filter member)
    · rw [heapOf_set]
      by_cases same : other = providerId
      · subst same
        rw [if_pos rfl]
        refine ⟨rest, rfl, ?_⟩
        have left := ofProvider_without list served other
        exact left ▸ ranks.take
      · rw [if_neg same]
        obtain ⟨others, heap, ranks⟩ := keeps.heaps other
        refine ⟨others, heap, ?_⟩
        have left := ofProvider_without list served other
        have all : (list.ofProvider other).filter (fun request => request.future ≠ served.future) =
            list.ofProvider other := by
          refine List.filter_eq_self.mpr fun request member => decide_eq_true fun equal => same ?_
          -- two requests that wait and have one future are the same
          have together := (List.mem_filter.mp member).1
          have one : request = served := keeps.eq_of_future together waits equal
          have isOther : request.providerId = other := of_decide_eq_true (List.mem_filter.mp member).2
          rw [← isOther, one, isOf]
        rw [all] at left
        exact left ▸ ranks
    · have changed := total_values_set queue.queues providerId (rest.map QueuedRequest.entry) List.length
      have fewer := keeps.length_without waits
      rw [found] at changed
      simp only [Option.map_some, Option.getD_some, List.length_map, List.length_cons] at changed
      have total := keeps.total
      show (queue.queues.set providerId _).values.foldr (fun heap total => heap.length + total) 0 =
        (list.waiting.filter fun other => other.future ≠ served.future).length
      omega

/-- Whatever is cancelled, one after another. -/
theorem getElem?_foldl_cancel (entries : List QueueEntry) (futures : List RequestFuture) (place : Nat) :
    (entries.foldl (fun futures entry => cancelFuture futures entry.request.future) futures)[place]? =
      futures[place]?.map fun state =>
        if (∃ entry ∈ entries, entry.request.future = place) ∧ state = .pending then .cancelled
        else state := by
  induction entries generalizing futures with
  | nil => simp
  | cons entry rest ih =>
    rw [List.foldl_cons, ih, cancelFuture, List.getElem?_modify]
    cases futures[place]? with
    | none => simp
    | some state =>
      by_cases here : entry.request.future = place
      · by_cases waits : state = .pending
        · simp [here, waits]
        · simp [here, waits]
      · simp [here]

/-- The requests that wait are those of all heaps. -/
theorem mem_heaps_iff (keeps : KeepsList queue list) (request : QueuedRequest) :
    (∃ entry ∈ queue.queues.values.flatten, entry.request = request) ↔ request ∈ list.waiting := by
  constructor
  · rintro ⟨entry, member, rfl⟩
    obtain ⟨heap, inside, member⟩ := List.mem_flatten.mp member
    obtain ⟨providerId, found⟩ := queue.queues.mem_values_iff.mp inside
    obtain ⟨ranked, same, ranks⟩ := keeps.heaps providerId
    unfold RequestQueue.heapOf at same
    rw [found, Option.getD_some] at same
    rw [same] at member
    obtain ⟨request, isRanked, rfl⟩ := List.mem_map.mp member
    exact List.mem_of_mem_filter (ranks.perm.mem_iff.mp isRanked)
  · intro member
    obtain ⟨ranked, same, ranks⟩ := keeps.heaps request.providerId
    have inside : request ∈ ranked :=
      ranks.perm.mem_iff.mpr (List.mem_filter.mpr ⟨member, decide_eq_true rfl⟩)
    have entry : request.entry ∈ queue.heapOf request.providerId :=
      same ▸ List.mem_map_of_mem inside
    unfold RequestQueue.heapOf at entry
    cases found : queue.queues.get? request.providerId with
    | none =>
      rw [found] at entry
      cases entry
    | some heap =>
      rw [found] at entry
      exact ⟨request.entry, List.mem_flatten.mpr
        ⟨heap, queue.queues.mem_values_iff.mpr ⟨_, found⟩, entry⟩, rfl⟩

/-- **The queue is cleared.** -/
theorem clear (keeps : KeepsList queue list) : KeepsList queue.clear (list.perform .clear).1 := by
  have futures : queue.clear.futures = (list.perform .clear).1.futures := by
    apply List.ext_getElem?
    intro place
    refine (getElem?_foldl_cancel _ _ _).trans ?_
    show _ = (list.futures.mapIdx _)[place]?
    rw [List.getElem?_mapIdx, keeps.futures]
    congr 1
    funext state
    have waits : (∃ entry ∈ queue.queues.values.flatten, entry.request.future = place) ↔
        place ∈ list.waiting.map QueuedRequest.future := by
      rw [List.mem_map]
      constructor
      · rintro ⟨entry, member, same⟩
        exact ⟨entry.request, (keeps.mem_heaps_iff _).mp ⟨entry, member, rfl⟩, same⟩
      · rintro ⟨request, member, same⟩
        obtain ⟨entry, inside, rfl⟩ := (keeps.mem_heaps_iff request).mpr member
        exact ⟨entry, inside, same⟩
    exact if_congr (and_congr_left fun _ => waits) rfl rfl
  refine ⟨futures, ?_, .nil, nofun, fun providerId => ⟨[], rfl, .nil⟩, rfl⟩
  show queue.counter = (list.futures.mapIdx _).length
  rw [List.length_mapIdx]
  exact keeps.counter

/-- The size of a provider's heap, and of all of them. -/
theorem size (keeps : KeepsList queue list) (providerId : Option String) :
    QueueAnswer.size (queue.size providerId) = (list.perform (.size providerId)).2 := by
  cases providerId with
  | none => exact congrArg QueueAnswer.size keeps.total
  | some providerId =>
    obtain ⟨ranked, heap, ranks⟩ := keeps.heaps providerId
    refine congrArg QueueAnswer.size ?_
    show (queue.heapOf providerId).length = (list.ofProvider providerId).length
    rw [heap, List.length_map, ranks.perm.length_eq]

/-- **Every operation** is answered as the waiting list does it, and goes on keeping it. -/
theorem perform (keeps : KeepsList queue list) (operation : QueueOperation) :
    (queue.perform operation).2 = (list.perform operation).2 ∧
      KeepsList (queue.perform operation).1 (list.perform operation).1 := by
  cases operation with
  | enqueue providerId payload priority =>
    refine ⟨?_, keeps.enqueue providerId payload priority⟩
    show QueueAnswer.request (some ⟨providerId, payload, priority, queue.futures.length⟩) = _
    rw [keeps.futures]
    rfl
  | dequeue providerId =>
    obtain ⟨served, kept⟩ := keeps.dequeue providerId
    refine ⟨?_, kept⟩
    show QueueAnswer.request (queue.dequeue providerId).2 = _
    rw [served]
    unfold WaitingList.perform
    dsimp only
    cases list.next providerId <;> rfl
  | size providerId =>
    refine ⟨keeps.size providerId, ?_⟩
    cases providerId <;> exact keeps
  | clear => exact ⟨rfl, keeps.clear⟩
  | settle future =>
    have length : (settleFuture list.futures future).length = list.futures.length :=
      List.length_modify _ _ _
    refine ⟨rfl, ⟨congrArg (settleFuture · future) keeps.futures, ?_, keeps.aged, ?_, keeps.heaps,
      keeps.total⟩⟩
    · exact keeps.counter.trans length.symm
    · exact fun request member => (keeps.young request member).trans_eq length.symm
  | future future =>
    refine ⟨?_, keeps⟩
    show QueueAnswer.future queue.futures[future]? = QueueAnswer.future list.futures[future]?
    rw [keeps.futures]

end KeepsList

/-- **The queue serves as it should.** Whatever is done with it, in any order, it answers as a list of the
requests that wait, from which a provider's oldest request of the highest priority is served. -/
theorem requestQueue_serves (operations : List QueueOperation) :
    RequestQueue.answers {} operations = WaitingList.answers {} operations := by
  have general : ∀ (queue : RequestQueue) (list : WaitingList), KeepsList queue list →
      queue.answers operations = list.answers operations := by
    induction operations with
    | nil => exact fun _ _ _ => rfl
    | cons operation rest ih =>
      intro queue list keeps
      obtain ⟨answer, kept⟩ := keeps.perform operation
      rw [RequestQueue.answers, WaitingList.answers, answer, ih _ _ kept]
  exact general _ _ KeepsList.empty

end ClaudeProxy
