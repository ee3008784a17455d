/-
**What the service caches** (`resolve_multiplexer_and_yield` in `api/services.py`).

* `CachingService` — streams with their multiplexers and readers, and the cache that they share.
* `FollowsStream` — the invariant: a multiplexer holds what its stream gave, and ended as the stream did.
* `IsSuccess` — the chunks are the complete stream of one provider, which ended normally and carries
  no transport error.
* `AnswersCleanly` — the attempt that answers completes without an error, and nothing was sent before
  it.
* **`stores_only_successes_iff`** — the cache gets nothing but successes exactly when every stream is
  answered cleanly, or when nothing is cached at all.
-/

import ClaudeProxy.Provider.ErrorTail
import ClaudeProxy.Service.Fallback
import ClaudeProxy.Service.FanOut
import ClaudeProxy.Service.ResponseCache

namespace ClaudeProxy

open Output

variable {χ ε κ : Type}

/-! ### The model -/

/-- A chunk of the service's stream, under the name of its attempt. -/
abbrev ServedChunk := AttemptId × ProviderChunk

/-- The service: its cache, the stream of each multiplexer, and the request of each reader. -/
structure CachingService (κ : Type) where
  sha256 : ByteArray → κ
  config : CacheConfig
  enableExactCache : Bool
  streams : Nat → FallbackRequest ProviderChunk
  requests : Nat → Nat → MessagesRequest

structure ServiceState (κ : Type) where
  multiplexers : Nat → Multiplexer ServedChunk PyError
  cache : CacheStore κ ServedChunk

/-- A party of a multiplexer takes a step, or a request looks into the cache. -/
inductive ServiceAction where
  | serve (stream : Nat) (action : MultiplexerAction ServedChunk PyError) (now : Int)
  | look (request : MessagesRequest) (now : Int)

/-- Whether the stream does this: it gives its chunks in order, and ends behind the last one. -/
def Output.allows [DecidableEq χ] (stream : Output χ) (mux : Multiplexer χ ε) :
    MultiplexerAction χ ε → Bool
  | .receive chunk => stream.chunks[mux.chunks.length]? = some chunk
  | .complete => mux.chunks.length = stream.chunks.length && stream.ending = .completes
  | .fail _ => mux.chunks.length = stream.chunks.length && stream.ending = .fails
  | .abort => mux.chunks.length = stream.chunks.length && stream.ending = .aborts
  | _ => true

namespace CachingService

variable [DecidableEq κ] (service : CachingService κ)

/-- What stands behind the loop of `resolve_multiplexer_and_yield`; it is reached when the reader
ends. -/
def saveToCache (cache : CacheStore κ ServedChunk) (request : MessagesRequest)
    (reader : Reader ServedChunk PyError) (now : Int) : CacheStore κ ServedChunk :=
  if reader.phase = .gone .ended ∧ service.enableExactCache = true ∧ reader.yielded ≠ [] then
    (ResponseCache.set service.sha256 service.config cache request reader.yielded none now).getD cache
  else cache

/-- The cache after a party's step. -/
def cacheAfter (cache : CacheStore κ ServedChunk) (stream : Nat)
    (mux : Multiplexer ServedChunk PyError) (action : MultiplexerAction ServedChunk PyError)
    (now : Int) : CacheStore κ ServedChunk :=
  match action with
  | .leave number =>
    match mux.readers[number]? with
    | some reader => service.saveToCache cache (service.requests stream number) reader now
    | none => cache
  | _ => cache

/-- The stream behind a multiplexer. -/
def output (stream : Nat) : Output ServedChunk :=
  executeRequestWithRetryAndFallback (service.streams stream)

def machine : Machine (ServiceState κ) ServiceAction where
  init state := state = ⟨fun _ => {}, ∅⟩
  step state
    | .serve stream action now =>
      if (service.output stream).allows (state.multiplexers stream) action then
        ((state.multiplexers stream).step action).map fun mux =>
          { multiplexers := Function.update state.multiplexers stream mux
            cache := service.cacheAfter state.cache stream mux action now }
      else none
    | .look request now =>
      some { state with cache := (ResponseCache.get service.sha256 state.cache request now).2 }

end CachingService

/-! ### Only successes -/

/-- The service's stream ended normally, and the chunks are the complete stream of one provider, which
ended normally and carries no transport error. -/
def IsSuccess (request : FallbackRequest ProviderChunk) (chunks : List ServedChunk) : Prop :=
  (executeRequestWithRetryAndFallback request).ending = .completes ∧
    ∃ attempt, chunks = (request.providerStream attempt).chunks.map (attempt, ·) ∧
      (request.providerStream attempt).ending = .completes ∧
      ∀ chunk ∈ (request.providerStream attempt).chunks, chunk.carriesError = false

/-- Whenever a party of a stream takes a step, the cache stays as it was, or gets a success of that
stream. -/
def CachingService.StoresOnlySuccesses [DecidableEq κ] (service : CachingService κ) : Prop :=
  ∀ state stream action now next, service.machine.Reachable Machine.unguarded state →
    service.machine.step state (.serve stream action now) = some next →
    next.cache = state.cache ∨
      ∃ number chunks, IsSuccess (service.streams stream) chunks ∧
        ResponseCache.set service.sha256 service.config state.cache (service.requests stream number)
          chunks none now = some next.cache

/-- If a run answers and anything was sent, it completes without a transport error, and the runs before
it, which failed, sent nothing. -/
def AnswersCleanly (runs : List (Output ProviderChunk)) : Prop :=
  ∀ earlier answer later, runs = earlier ++ answer :: later →
    (∀ run ∈ earlier, run.ending = .fails) → answer.ending ≠ .fails →
    (∃ run ∈ earlier ++ [answer], run.chunks ≠ []) →
    answer.ending = .completes ∧ (∀ run ∈ earlier, run.chunks = []) ∧
      ∀ chunk ∈ answer.chunks, chunk.carriesError = false

/-! ### A multiplexer follows its stream -/

/-- The multiplexer holds a beginning of the stream; when it has ended, all of it. -/
structure FollowsStream (stream : Output χ) (mux : Multiplexer χ ε) : Prop where
  produced : mux.produced <+: stream.chunks
  ended : ∀ ending, mux.ending = some ending →
    mux.produced = stream.chunks ∧ stream.ending = ending

theorem followsStream_init (stream : Output χ) : FollowsStream stream ({} : Multiplexer χ ε) :=
  ⟨List.nil_prefix, nofun⟩

/-- A step that leaves the stream alone. -/
theorem FollowsStream.frame {stream : Output χ} {mux next : Multiplexer χ ε}
    (follows : FollowsStream stream mux) (produced : next.produced = mux.produced)
    (ending : next.ending = mux.ending) :
    FollowsStream stream next := by
  refine ⟨?_, ?_⟩
  · rw [produced]
    exact follows.produced
  · rw [produced, ending]
    exact follows.ended

/-- The stream ends behind its last chunk. -/
theorem FollowsStream.finish {stream : Output χ} {mux next : Multiplexer χ ε}
    (follows : FollowsStream stream mux) (produced : mux.produced = mux.chunks)
    (same : next.produced = mux.chunks) (all : mux.chunks.length = stream.chunks.length)
    (ending : next.ending = some stream.ending) :
    FollowsStream stream next := by
  have complete : mux.chunks = stream.chunks := by
    apply List.IsPrefix.eq_of_length (produced ▸ follows.produced) all
  refine ⟨?_, ?_⟩
  · rw [same, complete]
  · intro other known
    rw [ending] at known
    exact ⟨same.trans complete, Option.some.inj known⟩

theorem FollowsStream.step [DecidableEq χ] {stream : Output χ} {mux next : Multiplexer χ ε}
    {action : MultiplexerAction χ ε} (follows : FollowsStream stream mux) (sound : Sound mux)
    (allowed : stream.allows mux action = true) (stepped : mux.step action = some next) :
    FollowsStream stream next := by
  have flags := sound.producer
  unfold ProducerSound at flags
  cases Multiplexer.effect_of_step stepped with
  | join => exact follows.frame rfl rfl
  | iterate _ moved =>
    obtain ⟨chunks, producer, -, ending⟩ := moved.stream
    exact follows.frame (Multiplexer.produced_of_stream chunks producer) ending
  | produce moved =>
    cases moved with
    | @receive chunk here =>
      rw [here] at flags
      refine ⟨?_, ?_⟩
      · obtain ⟨rest, split⟩ := follows.produced
        have whole : mux.chunks ++ rest = stream.chunks := by
          rw [Multiplexer.produced_of_producer here] at split
          exact split
        have next := of_decide_eq_true allowed
        rw [← whole, List.getElem?_append_right le_rfl, Nat.sub_self] at next
        obtain ⟨rest, rfl⟩ : ∃ more, rest = chunk :: more := by
          cases rest with
          | nil => cases next
          | cons head more => exact ⟨more, by rw [Option.some.inj next]⟩
        exact ⟨rest, by rw [← whole]; exact List.append_assoc ..⟩
      · intro ending known
        rw [flags.2.2] at known
        cases known
    | complete here | fail here | abort here =>
      obtain ⟨all, ending⟩ := Bool.and_eq_true_iff.mp allowed
      exact follows.finish (Multiplexer.produced_of_producer here) rfl (of_decide_eq_true all)
        (by rw [of_decide_eq_true ending])
    | append here | notifyError here | notifyDone here =>
      exact follows.frame (Multiplexer.produced_of_producer here).symm rfl

/-- **A reader that ended has the whole stream**, and the stream did not fail. -/
theorem FollowsStream.of_ended {stream : Output χ} {mux : Multiplexer χ ε}
    (follows : FollowsStream stream mux) (sound : Sound mux) {number : Nat} {reader : Reader χ ε}
    (found : mux.readers[number]? = some reader) (ended : reader.phase = .gone .ended) :
    reader.yielded = stream.chunks ∧ stream.ending ≠ .fails := by
  have here := sound.readers number reader found
  unfold ReaderSound at here
  rw [ended] at here
  obtain ⟨-, done, noError, all⟩ := here
  obtain ⟨produced, ending, known, raised⟩ := sound.settled done
  obtain ⟨whole, same⟩ := follows.ended ending known
  refine ⟨all.trans (produced.symm.trans whole), ?_⟩
  rw [same]
  intro fails
  have isSome := raised.mpr fails
  rw [noError] at isSome
  cases isSome

/-! ### A clean answer is a success -/

/-- What an answer and the attempts before it send. -/
theorem executeRequest_of_answer {request : FallbackRequest χ}
    {earlier later : List (AttemptId × Output χ)} {answer : AttemptId × Output χ}
    (order : attemptOrder request = earlier ++ answer :: later)
    (fails : ∀ run ∈ earlier, run.2.ending = .fails) (settles : answer.2.ending ≠ .fails) :
    executeRequestWithRetryAndFallback request =
      ⟨earlier.flatMap (fun run => (label run).chunks) ++ (label answer).chunks,
        answer.2.ending⟩ := by
  have failed : ∀ run ∈ earlier.map label, run.ending = .fails := by
    intro run member
    obtain ⟨attempt, inside, rfl⟩ := List.mem_map.mp member
    exact fails attempt inside
  have answers : (label answer).ending ≠ .fails := settles
  rw [executeRequest_eq_firstOf, order, List.map_append, List.map_cons,
    firstOf_of_answer failed answers, List.flatMap_map]
  rfl

/-- The order splits where its runs do. -/
theorem split_order {order : List (AttemptId × Output χ)} {earlier later : List (Output χ)}
    {answer : Output χ} (split : order.map Prod.snd = earlier ++ answer :: later) :
    ∃ before name after, order = before ++ (name, answer) :: after ∧ before.map Prod.snd = earlier := by
  obtain ⟨before, rest, rfl, here, there⟩ := List.map_eq_append_iff.mp split
  obtain ⟨⟨name, run⟩, after, rfl, rfl, -⟩ := List.map_eq_cons_iff.mp there
  exact ⟨before, name, after, rfl, here⟩

/-- The chunks that were sent say which attempts sent any. -/
theorem sent_iff (earlier : List (AttemptId × Output χ)) (answer : AttemptId × Output χ) :
    (earlier.flatMap fun run => (label run).chunks) ++ (label answer).chunks ≠ [] ↔
      ∃ run ∈ earlier.map Prod.snd ++ [answer.2], run.chunks ≠ [] := by
  rw [← not_iff_not, not_not, List.append_eq_nil_iff, List.flatMap_eq_nil_iff]
  push Not
  simp only [label_chunks_eq_nil, List.forall_mem_append, List.forall_mem_map, List.forall_mem_singleton]

/-- **A stream that is answered cleanly is a success**, and any other answer is none. -/
theorem answersCleanly_iff (request : FallbackRequest ProviderChunk) :
    AnswersCleanly ((attemptOrder request).map Prod.snd) ↔
      ((executeRequestWithRetryAndFallback request).ending ≠ .fails →
        (executeRequestWithRetryAndFallback request).chunks ≠ [] →
        IsSuccess request (executeRequestWithRetryAndFallback request).chunks) := by
  constructor
  · intro clean settles sent
    rw [executeRequest_eq_firstOf] at settles
    obtain ⟨labelled, last, after, split, fails, ends⟩ := exists_answer settles
    obtain ⟨earlier, rest, order, rfl, there⟩ := List.map_eq_append_iff.mp split
    obtain ⟨answer, later, rfl, rfl, -⟩ := List.map_eq_cons_iff.mp there
    have failed : ∀ run ∈ earlier, run.2.ending = .fails := by
      intro run member
      exact fails (label run) (List.mem_map_of_mem member)
    have result := executeRequest_of_answer order failed ends
    rw [result] at sent
    obtain ⟨completes, silent, noError⟩ := clean (earlier.map Prod.snd) answer.2 (later.map Prod.snd)
      (by rw [order, List.map_append, List.map_cons]) (List.forall_mem_map.mpr failed) ends
      ((sent_iff earlier answer).mp sent)
    have nothing : (earlier.flatMap fun run => (label run).chunks) = [] := by
      apply List.flatMap_eq_nil_iff.mpr
      intro run member
      exact label_chunks_eq_nil.mpr (List.forall_mem_map.mp silent run member)
    have member : answer ∈ attemptOrder request := by
      rw [order]
      exact List.mem_append_right _ List.mem_cons_self
    obtain ⟨attempt, stream, provider⟩ := of_mem_attemptOrder member
    rw [stream] at completes
    have whole : request.providerStream answer.1 = ⟨answer.2.chunks, .completes⟩ := by
      rw [provider, stream, Attempt.rawStream_of_completes completes]
    rw [result, nothing, List.nil_append]
    refine ⟨?_, answer.1, ?_, ?_, ?_⟩
    · rw [result, stream]
      exact completes
    · rw [whole]
      rfl
    · rw [whole]
    · rw [whole]
      exact noError
  · intro success earlier answer later split fails settles sent
    obtain ⟨before, name, after, order, rfl⟩ := split_order split
    have result := executeRequest_of_answer order (List.forall_mem_map.mp fails) settles
    have something : (executeRequestWithRetryAndFallback request).chunks ≠ [] := by
      rw [result]
      exact (sent_iff before (name, answer)).mpr sent
    have notFailed : (executeRequestWithRetryAndFallback request).ending ≠ .fails := by
      rw [result]
      exact settles
    obtain ⟨completes, provider, same, -, noError⟩ := success notFailed something
    rw [result] at completes same
    dsimp only at completes same
    have named : ∀ chunk ∈ (before.flatMap fun run => (label run).chunks) ++
        (label (name, answer)).chunks, chunk.1 = provider := by
      intro chunk member
      rw [same] at member
      obtain ⟨_, -, rfl⟩ := List.mem_map.mp member
      rfl
    -- the answer has a chunk, so the provider is its own
    have own : name = provider := by
      have member : (name, answer) ∈ attemptOrder request := by
        rw [order]
        exact List.mem_append_right _ List.mem_cons_self
      obtain ⟨attempt, stream, -⟩ := of_mem_attemptOrder member
      dsimp only at stream
      rw [stream] at completes
      obtain ⟨chunk, rest, chunks⟩ := List.exists_cons_of_ne_nil (Attempt.yields_of_completes completes)
      apply named (name, chunk)
      apply List.mem_append_right
      show _ ∈ List.map _ answer.chunks
      rw [stream, chunks]
      exact List.mem_cons_self
    -- and no attempt before it has the same name
    have silent : ∀ run ∈ before, run.2.chunks = [] := by
      intro run member
      by_contra yields
      obtain ⟨chunk, rest, chunks⟩ := List.exists_cons_of_ne_nil yields
      have theirs : run.1 = provider := by
        apply named (run.1, chunk)
        apply List.mem_append_left
        rw [List.mem_flatMap]
        refine ⟨run, member, ?_⟩
        show _ ∈ List.map _ run.2.chunks
        rw [chunks]
        exact List.mem_cons_self
      have apart := attemptOrder_nodup request
      rw [order, List.map_append, List.nodup_append] at apart
      exact apart.2.2 run.1 (List.mem_map_of_mem member) name List.mem_cons_self
        (theirs.trans own.symm)
    refine ⟨completes, List.forall_mem_map.mpr silent, ?_⟩
    have nothing : (before.flatMap fun run => (label run).chunks) = [] := by
      apply List.flatMap_eq_nil_iff.mpr
      intro run member
      exact label_chunks_eq_nil.mpr (silent run member)
    rw [nothing, List.nil_append, ← own] at same
    have whole : answer.chunks = (request.providerStream name).chunks := by
      apply List.map_injective_iff.mpr (Prod.mk_right_injective name)
      exact same
    rw [whole, own]
    exact noError

/-! ### A reader that reads everything -/

section LateReader

variable [DecidableEq χ] (stream : Output χ)

/-- The steps that the stream allows, but for a reader's last one. -/
def Reading (mux : Multiplexer χ ε) (action : MultiplexerAction χ ε) : Prop :=
  stream.allows mux action = true ∧ ∀ number, action ≠ .leave number

/-- The multiplexer when its stream has ended, with one reader. -/
def readBy (reader : Reader χ ε) : Multiplexer χ ε where
  chunks := stream.chunks
  done := true
  producer := .finished
  ending := some stream.ending
  readers := [reader]

/-- The reader that has yielded so many chunks. -/
def havingRead (phase : ReaderPhase ε) (count : Nat) : Reader χ ε where
  phase := phase
  idx := count
  registered := true
  yielded := stream.chunks.take count

/-- The stream gives its chunks. -/
theorem steps_produce : ∀ count ≤ stream.chunks.length,
    (multiplexerMachine χ ε).Steps (Reading stream) {} { chunks := stream.chunks.take count } := by
  intro count
  induction count with
  | zero => exact fun _ => .refl
  | succ count ih =>
    intro inside
    have inside : count < stream.chunks.length := inside
    have chunk : stream.chunks[count]? = some stream.chunks[count] := List.getElem?_eq_getElem inside
    have received : (multiplexerMachine χ ε).Steps (Reading stream) {}
        { chunks := stream.chunks.take count, producer := .appending stream.chunks[count] } := by
      refine (ih inside.le).by_ (.receive stream.chunks[count]) ⟨?_, nofun⟩ rfl
      rw [Output.allows]
      simp only [List.length_take_of_le inside.le, chunk, decide_true]
    refine received.by_ .append ⟨rfl, nofun⟩ ?_
    rw [List.take_add_one, chunk]
    rfl

/-- It ends, and one reader comes. -/
theorem steps_end (settles : stream.ending ≠ .fails) :
    (multiplexerMachine χ ε).Steps (Reading stream) {}
      (readBy stream (havingRead stream .looping 0)) := by
  have all := @steps_produce χ ε _ stream stream.chunks.length le_rfl
  rw [List.take_length] at all
  have closing : (multiplexerMachine χ ε).Steps (Reading stream) {}
      { chunks := stream.chunks, done := true, producer := .closing, ending := some stream.ending } := by
    cases ending : stream.ending with
    | completes => exact all.by_ .complete ⟨by simp [Output.allows, ending], nofun⟩ rfl
    | fails => exact absurd ending settles
    | aborts => exact all.by_ .abort ⟨by simp [Output.allows, ending], nofun⟩ rfl
  have finished : (multiplexerMachine χ ε).Steps (Reading stream) {}
      { chunks := stream.chunks, done := true, producer := .finished, ending := some stream.ending } :=
    closing.by_ .notifyDone ⟨rfl, nofun⟩ rfl
  have joined : (multiplexerMachine χ ε).Steps (Reading stream) {} (readBy stream {}) :=
    finished.by_ .join ⟨rfl, nofun⟩ rfl
  exact joined.by_ (.register 0) ⟨rfl, nofun⟩ rfl

/-- The reader yields every chunk. -/
theorem steps_read (settles : stream.ending ≠ .fails) : ∀ count ≤ stream.chunks.length,
    (multiplexerMachine χ ε).Steps (Reading stream) {}
      (readBy stream (havingRead stream .looping count)) := by
  intro count
  induction count with
  | zero => exact fun _ => steps_end stream settles
  | succ count ih =>
    intro inside
    have inside : count < stream.chunks.length := inside
    have chunk : stream.chunks[count]? = some stream.chunks[count] := List.getElem?_eq_getElem inside
    let yielding : Reader χ ε := { havingRead stream .suspended count with
      yielded := stream.chunks.take count ++ [stream.chunks[count]] }
    have suspended : (multiplexerMachine χ ε).Steps (Reading stream) {}
        { readBy stream yielding with holder := some 0 } := by
      refine (ih inside.le).by_ (.enter 0) ⟨rfl, nofun⟩ ?_
      show some (Multiplexer.enter _ 0 (havingRead stream .looping count)) = _
      rw [Multiplexer.enter_of_chunk 0 chunk]
      rfl
    refine suspended.by_ (.resume 0) ⟨rfl, nofun⟩ ?_
    rw [havingRead, List.take_add_one, chunk]
    rfl

/-- And it leaves when it has read them all. -/
theorem steps_leave (settles : stream.ending ≠ .fails) :
    (multiplexerMachine χ ε).Steps (Reading stream) {}
      (readBy stream (havingRead stream (.leaving .ended) stream.chunks.length)) := by
  refine (steps_read stream settles _ le_rfl).by_ (.enter 0) ⟨rfl, nofun⟩ ?_
  show some (Multiplexer.enter _ 0 (havingRead stream .looping stream.chunks.length)) = _
  have past : stream.chunks[stream.chunks.length]? = none := List.getElem?_eq_none le_rfl
  rw [Multiplexer.enter_of_end 0 past rfl rfl]
  rfl

end LateReader

/-! ### What a step stores -/

namespace CachingService

variable [DecidableEq κ] {service : CachingService κ}

/-- Every multiplexer is sound and follows its stream. -/
def Served (service : CachingService κ) (state : ServiceState κ) : Prop :=
  ∀ stream, Sound (state.multiplexers stream) ∧
    FollowsStream (service.output stream) (state.multiplexers stream)

/-- What a party's step does. -/
theorem serve_cases {state next : ServiceState κ} {stream : Nat}
    {action : MultiplexerAction ServedChunk PyError} {now : Int}
    (stepped : service.machine.step state (.serve stream action now) = some next) :
    ∃ mux, (service.output stream).allows (state.multiplexers stream) action = true ∧
      (state.multiplexers stream).step action = some mux ∧
      next = { multiplexers := Function.update state.multiplexers stream mux
               cache := service.cacheAfter state.cache stream mux action now } := by
  unfold machine at stepped
  dsimp only at stepped
  split_ifs at stepped with allowed
  obtain ⟨mux, moved, rfl⟩ := Option.map_eq_some_iff.mp stepped
  exact ⟨mux, allowed, moved, rfl⟩

omit [DecidableEq κ] in
theorem served_of_serve {state : ServiceState κ} (served : service.Served state) {stream : Nat}
    {action : MultiplexerAction ServedChunk PyError} {mux : Multiplexer ServedChunk PyError}
    (allowed : (service.output stream).allows (state.multiplexers stream) action = true)
    (moved : (state.multiplexers stream).step action = some mux) (other : Nat) :
    Sound (Function.update state.multiplexers stream mux other) ∧
      FollowsStream (service.output other) (Function.update state.multiplexers stream mux other) := by
  by_cases same : other = stream
  · subst same
    rw [Function.update_self]
    obtain ⟨sound, follows⟩ := served other
    exact ⟨sound_of_step sound moved, follows.step sound allowed moved⟩
  · rw [Function.update_of_ne same]
    exact served other

/-- **The invariant holds in every reachable state.** -/
theorem served_of_reachable {state : ServiceState κ}
    (reached : service.machine.Reachable Machine.unguarded state) : service.Served state := by
  apply reached.invariant
  · rintro state rfl stream
    exact ⟨⟨⟨rfl, rfl, rfl⟩, nofun, nofun⟩, followsStream_init _⟩
  · intro state action next served _ stepped
    cases action with
    | serve stream action now =>
      obtain ⟨mux, allowed, moved, rfl⟩ := serve_cases stepped
      exact served_of_serve served allowed moved
    | look request now =>
      obtain rfl := Option.some.inj stepped
      exact served

/-- **What a step stores.** The cache stays as it was, or gets the whole stream, which did not fail. -/
theorem stored_of_step {state next : ServiceState κ} (served : service.Served state) {stream : Nat}
    {action : MultiplexerAction ServedChunk PyError} {now : Int}
    (stepped : service.machine.step state (.serve stream action now) = some next) :
    next.cache = state.cache ∨
      service.enableExactCache = true ∧ (service.output stream).ending ≠ .fails ∧
        (service.output stream).chunks ≠ [] ∧
        ∃ number, ResponseCache.set service.sha256 service.config state.cache
          (service.requests stream number) (service.output stream).chunks none now =
            some next.cache := by
  obtain ⟨mux, allowed, moved, rfl⟩ := serve_cases stepped
  have here := served_of_serve served allowed moved stream
  rw [Function.update_self] at here
  dsimp only
  unfold cacheAfter
  split
  · rename_i number
    split
    · rename_i reader found
      unfold saveToCache
      split_ifs with saves
      · obtain ⟨ended, enabled, something⟩ := saves
        obtain ⟨all, settles⟩ := here.2.of_ended here.1 found ended
        rw [all] at something ⊢
        cases answer : ResponseCache.set service.sha256 service.config state.cache
            (service.requests stream number) (service.output stream).chunks none now with
        | none => exact .inl rfl
        | some cache => exact .inr ⟨enabled, settles, something, number, answer⟩
      · exact .inl rfl
    · exact .inl rfl
  · exact .inl rfl

/-- A cache that can hold nothing stays empty. -/
theorem cache_empty {state : ServiceState κ} (cannot : ¬service.config.Holds)
    (reached : service.machine.Reachable Machine.unguarded state) : state.cache = ∅ := by
  have both : service.Served state ∧ state.cache = ∅ := by
    refine @Machine.Reachable.invariant _ _ _ _ (fun state => service.Served state ∧ state.cache = ∅)
      ?_ ?_ state reached
    · rintro state rfl
      exact ⟨served_of_reachable (.init rfl), rfl⟩
    · rintro state action next ⟨served, empty⟩ _ stepped
      cases action with
      | serve stream action now =>
        have stored := stored_of_step served stepped
        obtain ⟨mux, allowed, moved, rfl⟩ := serve_cases stepped
        refine ⟨served_of_serve served allowed moved, ?_⟩
        rcases stored with same | ⟨-, -, -, number, stored⟩
        · exact same.trans empty
        · rw [empty, ResponseCache.set_empty_of_not_holds service.sha256 cannot] at stored
          cases stored
      | look request now =>
        obtain rfl := Option.some.inj stepped
        refine ⟨served, ?_⟩
        dsimp only
        rw [empty]
        rfl
  exact both.2

/-- The service with one multiplexer that has moved, and an empty cache. -/
def alone (stream : Nat) (mux : Multiplexer ServedChunk PyError) : ServiceState κ :=
  ⟨Function.update (fun _ => {}) stream mux, ∅⟩

omit [DecidableEq κ] in
theorem alone_multiplexer (stream : Nat) (mux : Multiplexer ServedChunk PyError) :
    (alone stream mux : ServiceState κ).multiplexers stream = mux := by
  simp only [alone, Function.update_self]

/-- A step of that multiplexer. -/
theorem step_alone {stream : Nat} {mux next : Multiplexer ServedChunk PyError}
    {action : MultiplexerAction ServedChunk PyError}
    (allowed : (service.output stream).allows mux action = true) (moved : mux.step action = some next) :
    service.machine.step (alone stream mux) (.serve stream action 0) =
      some ⟨Function.update (fun _ => {}) stream next,
        service.cacheAfter ∅ stream next action 0⟩ := by
  unfold machine
  dsimp only
  rw [alone_multiplexer, if_pos allowed, moved, Option.map_some]
  unfold alone
  rw [Function.update_idem]

/-- The steps at one multiplexer, while nothing is stored. -/
theorem reachable_of_steps {stream : Nat} {mux : Multiplexer ServedChunk PyError}
    (steps : (multiplexerMachine ServedChunk PyError).Steps (Reading (service.output stream)) {} mux) :
    service.machine.Reachable Machine.unguarded (alone stream mux) := by
  induction steps with
  | refl =>
    refine .init ?_
    rw [alone, Function.update_eq_self]
    rfl
  | @tail mux next action _ allowed moved reached =>
    have stepped := @step_alone κ _ service stream mux next action allowed.1 moved
    refine .step reached trivial (stepped.trans ?_)
    cases action with
    | leave number => exact absurd rfl (allowed.2 number)
    | _ => rfl

/-- **A stream that does not fail can be stored**: a reader that comes late reads it all. -/
theorem stores_output {stream : Nat} (enabled : service.enableExactCache = true)
    (settles : (service.output stream).ending ≠ .fails)
    (something : (service.output stream).chunks ≠ []) :
    ∃ state next, service.machine.Reachable Machine.unguarded state ∧ state.cache = ∅ ∧
      service.machine.step state (.serve stream (.leave 0) 0) = some next ∧
      next.cache = (ResponseCache.set service.sha256 service.config ∅ (service.requests stream 0)
        (service.output stream).chunks none 0).getD ∅ := by
  have reached := reachable_of_steps (steps_leave (service.output stream) settles)
  refine ⟨_, _, reached, rfl, step_alone rfl rfl, ?_⟩
  show service.saveToCache ∅ (service.requests stream 0) _ 0 = _
  unfold saveToCache
  have all : (service.output stream).chunks.take (service.output stream).chunks.length ≠ [] := by
    rw [List.take_length]
    exact something
  rw [if_pos ⟨rfl, enabled, all⟩]
  show (ResponseCache.set _ _ _ _ (List.take _ _) _ _).getD ∅ = _
  rw [List.take_length]

/-- What can be stored is a success, if only successes are. -/
theorem StoresOnlySuccesses.isSuccess (only : service.StoresOnlySuccesses)
    (enabled : service.enableExactCache = true) (holds : service.config.Holds) {stream : Nat}
    (settles : (service.output stream).ending ≠ .fails)
    (something : (service.output stream).chunks ≠ []) :
    IsSuccess (service.streams stream) (service.output stream).chunks := by
  obtain ⟨state, next, reached, empty, stepped, stored⟩ := stores_output enabled settles something
  rw [ResponseCache.set_empty service.sha256 holds, Option.getD_some] at stored
  rcases only state stream _ 0 next reached stepped with same | ⟨number, chunks, success, there⟩
  · rw [stored, empty] at same
    have entries := congrArg Dict.entries same
    cases entries
  · rw [empty, ResponseCache.set_empty service.sha256 holds, stored] at there
    have entries := congrArg Dict.entries (Option.some.inj there)
    obtain ⟨entry, -⟩ := List.cons_eq_cons.mp entries
    have same := congrArg CacheEntry.chunks (Prod.mk.inj entry).2
    dsimp only at same
    rw [← same]
    exact success

end CachingService

/-- **When only successes are cached.** Whatever a stream's readers store is the complete stream of one
provider that ended normally and carries no transport error, and any other stream leaves the cache as
it was, exactly if: where the exact cache is on, has room and a lifetime that is a `float`, every stream is
answered cleanly. -/
theorem stores_only_successes_iff [DecidableEq κ] (service : CachingService κ) :
    service.StoresOnlySuccesses ↔
      (service.enableExactCache = true → 0 < service.config.maxSize → service.config.ttl < floatLimit →
        ∀ stream, AnswersCleanly ((attemptOrder (service.streams stream)).map Prod.snd)) := by
  constructor
  · intro only enabled room lives stream
    rw [answersCleanly_iff]
    exact only.isSuccess enabled ⟨room, lives⟩
  · intro clean state stream action now next reached stepped
    rcases CachingService.stored_of_step (CachingService.served_of_reachable reached) stepped with
      same | ⟨enabled, settles, something, number, stored⟩
    · exact .inl same
    · have holds : service.config.Holds := by
        by_contra cannot
        rw [CachingService.cache_empty cannot reached,
          ResponseCache.set_empty_of_not_holds service.sha256 cannot] at stored
        cases stored
      have success := (answersCleanly_iff _).mp (clean enabled holds.1 holds.2 stream) settles something
      exact .inr ⟨number, _, success, stored⟩

/-- The upstream refuses every connection. -/
def refusedCall : NativeCall where
  runtime := emptyObjectRuntime
  upstream _ _ := .refused (.httpStatus 400)
  thinkingEnabled := true
  tools := []
  body := []
  model := "model"
  inputTokens := 1
  errorMessage _ := "Invalid request sent to provider."
  freshMessageId := "msg_1"
  measured _ _ _ := ⟨100, 0, 0⟩

/-- A service whose only provider is that one. -/
def refusedService : CachingService (Array UInt8) where
  sha256 := ByteArray.data
  config := ⟨3600, 128⟩
  enableExactCache := true
  streams _ :=
    { candidates := [{
        available := fun _ => true
        admitted := true
        acquired := true
        attempts := fun _ =>
          { prepared := true
            rawStream := nativeStream refusedCall earlyTransparentMaxRetries 0
            stall := none
            recorded := true } }]
      rounds := 1
      enableParallelProviderRace := false
      task1Done := true }
  requests _ _ := freeChoice

/-- Its stream is the error message of the refused connection, and ends normally. -/
theorem refusedService_output :
    refusedService.output 0 =
      ⟨(inErrorTail (emitErrorEvents refusedCall "Invalid request sent to provider.")).map
        ((0, 1), ·), .completes⟩ := by
  decide +kernel

/-- The error message of the refused connection is cached as an answer. -/
theorem refusedConnection_is_cached :
    (refusedService.output 0).chunks.map (·.2.event) =
        emitErrorEvents refusedCall "Invalid request sent to provider." ∧
      (refusedService.output 0).ending = .completes ∧
      (∃ state next, refusedService.machine.Reachable Machine.unguarded state ∧
        state.cache = ∅ ∧ refusedService.machine.step state (.serve 0 (.leave 0) 0) = some next ∧
        (ResponseCache.get refusedService.sha256 next.cache freeChoice 1).1 =
          some (refusedService.output 0).chunks) ∧
      ¬refusedService.StoresOnlySuccesses := by
  have settles : (refusedService.output 0).ending ≠ .fails := by
    rw [refusedService_output]
    exact nofun
  have something : (refusedService.output 0).chunks ≠ [] := by
    rw [refusedService_output]
    exact nofun
  refine ⟨?_, ?_, ?_, ?_⟩
  · rw [refusedService_output]
    rfl
  · rw [refusedService_output]
  · obtain ⟨state, next, reached, empty, stepped, stored⟩ :=
      @CachingService.stores_output _ _ refusedService 0 rfl settles something
    refine ⟨state, next, reached, empty, stepped, ?_⟩
    rw [stored, ResponseCache.set_empty _ ⟨by decide, hour_lt_floatLimit⟩, Option.getD_some]
    exact ResponseCache.get_stored _ freeChoice _ (by decide)
  · intro only
    obtain ⟨-, attempt, same, -, noError⟩ := only.isSuccess rfl ⟨by decide, hour_lt_floatLimit⟩ settles something
    obtain ⟨chunk, member, carries⟩ := @inErrorTail_carriesError
      (emitErrorEvents refusedCall "Invalid request sent to provider.") nofun
    have sent : ((0, 1), chunk) ∈ (refusedService.output 0).chunks := by
      rw [refusedService_output]
      exact List.mem_map_of_mem member
    rw [same] at sent
    obtain ⟨other, inside, equal⟩ := List.mem_map.mp sent
    have clean := noError other inside
    rw [(Prod.mk.inj equal).2, carries] at clean
    cases clean

end ClaudeProxy
