/-
**One response, several attempts.**

* `watchdogStream`, `Attempt.stream`, `attemptProvider`, `raceStreams`,
  `executeRequestWithRetryAndFallback` — the nested generators of `ClaudeProxyService`; the chunks
  stay abstract and carry the name of the attempt that they come from.
* `attemptOrder` — the attempts in the order in which they are made, as far as the request and the
  providers determine it.
* `executeRequest_eq_firstOf` — the service makes the attempts of that order until one does not fail.
* **`one_attempt_iff`** — the client gets the chunks of one single attempt exactly when no two of the
  attempts that are made yield a chunk.
-/

import ClaudeProxy.Library.Fallback
import Mathlib.Data.List.Range

namespace ClaudeProxy

open Output

variable {χ : Type*}

/-! ### One attempt -/

/-- What happens in one turn of the loop of `attempt_provider`. -/
structure Attempt (χ : Type*) where
  /-- `_get_provider`, `preflight_stream` and `stream_response` return. -/
  prepared : Bool
  /-- The stream of the provider. -/
  rawStream : Output χ
  /-- The chunk (or end) that `watchdog_stream` waits for in vain. -/
  stall : Option Nat
  /-- `record_request` returns. -/
  recorded : Bool

/-- Ends the stream with a `StreamingTimeoutError` where it stalls. -/
def watchdogStream (stall : Option Nat) (stream : Output χ) : Output χ :=
  match stall with
  | none => stream
  | some received =>
    if received ≤ stream.chunks.length then ⟨stream.chunks.take received, .fails⟩ else stream

/-- `anext` raises when the generator has nothing to yield. -/
def firstChunk (stream : Output χ) : Output χ :=
  match stream.chunks, stream.ending with
  | [], .completes => .failed
  | _, _ => stream

/-- What one attempt yields. -/
def Attempt.stream (attempt : Attempt χ) : Output χ :=
  if attempt.prepared then
    let watched := firstChunk (watchdogStream attempt.stall attempt.rawStream)
    match watched.ending with
    | .completes => if attempt.recorded then watched else ⟨watched.chunks, .fails⟩
    | .fails | .aborts => watched
  else .failed

/-! ### The service -/

/-- A candidate: whether it can be used, and how each attempt with it goes. -/
structure Candidate (χ : Type*) where
  /-- In that round it is not in a blackout, its breaker is not open, and it has a key. -/
  available : Nat → Bool
  /-- The guard of its circuit breaker lets the request pass. -/
  admitted : Bool
  /-- Its semaphore can be built and is acquired. -/
  acquired : Bool
  attempts : Nat → Attempt χ

/-- A request, as far as the order of its attempts depends on it. -/
structure FallbackRequest (χ : Type*) where
  /-- The candidates after load balancing. -/
  candidates : List (Candidate χ)
  /-- How many rounds of the eligibility check fit into its 30 seconds. -/
  rounds : Nat
  enableParallelProviderRace : Bool
  /-- The first of the two racing tasks is among those done first. -/
  task1Done : Bool

/-- The place of the candidate, and the number of the attempt. -/
abbrev AttemptId := Nat × Nat

def maxRetries : Nat := 3

/-- The loop of `attempt_provider`: an attempt that raises is made again. -/
def retryLoop (attempts : Nat → Output χ) (attempt : Nat) : Nat → Output χ
  | 0 => attempts attempt
  | retries + 1 => (attempts attempt).orElse (retryLoop attempts (attempt + 1) retries)

/-- The attempt of that number, its chunks under its name. -/
def Candidate.labelled (candidate : Candidate χ) (place attempt : Nat) :
    Output (AttemptId × χ) :=
  label ((place, attempt), (candidate.attempts attempt).stream)

def attemptProvider (candidate : Candidate χ × Nat) : Output (AttemptId × χ) :=
  if candidate.1.acquired then retryLoop (candidate.1.labelled candidate.2) 1 maxRetries
  else .failed

/-- The generator whose first chunk is there first, or the other one if it fails before it. -/
def raceStreams {τ : Type*} (task1Done : Bool) (iter1 iter2 : Output τ) : Output τ :=
  let (winner, loser) := if task1Done then (iter1, iter2) else (iter2, iter1)
  match firstChunk winner with
  | ⟨[], .fails⟩ => firstChunk loser
  | stream => stream

/-- One candidate after the other, each under the guard of its breaker. -/
def sequential : List (Candidate χ × Nat) → Output (AttemptId × χ)
  | [] => .failed
  | candidate :: rest =>
    if candidate.1.admitted then (attemptProvider candidate).orElse (sequential rest)
    else sequential rest

/-- The first round that finds a candidate; behind the last one, the first candidate alone. -/
def FallbackRequest.eligible (request : FallbackRequest χ) : List (Candidate χ) :=
  let found round := request.candidates.filter (·.available round)
  match (List.range request.rounds).find? fun round => !(found round).isEmpty with
  | some round => found round
  | none => (request.candidates.find? (·.available request.rounds)).toList

def executeRequestWithRetryAndFallback (request : FallbackRequest χ) :
    Output (AttemptId × χ) :=
  match request.enableParallelProviderRace, request.eligible.zipIdx with
  | true, candidate1 :: candidate2 :: rest =>
    (raceStreams request.task1Done (attemptProvider candidate1) (attemptProvider candidate2)).orElse
      (sequential rest)
  | _, eligible => sequential eligible

/-- The chunk sequence of an attempt: what its provider yields. -/
def FallbackRequest.chunkSequence (request : FallbackRequest χ) (attempt : AttemptId) : List χ :=
  match request.eligible[attempt.1]? with
  | some candidate => (candidate.attempts attempt.2).rawStream.chunks
  | none => []

/-- The stream of the attempt's provider. -/
def FallbackRequest.providerStream (request : FallbackRequest χ) (attempt : AttemptId) : Output χ :=
  match request.eligible[attempt.1]? with
  | some candidate => (candidate.attempts attempt.2).rawStream
  | none => .failed

/-! ### The order of the attempts -/

/-- The attempts that may be made with a candidate. -/
def attemptsOf (candidate : Candidate χ × Nat) : List (AttemptId × Output χ) :=
  if candidate.1.acquired then
    (List.range' 1 (maxRetries + 1)).map fun attempt =>
      ((candidate.2, attempt), (candidate.1.attempts attempt).stream)
  else []

/-- No attempt with the candidate would yield a chunk. -/
def isSilent (candidate : Candidate χ × Nat) : Bool :=
  (attemptsOf candidate).all fun attempt => attempt.2.chunks.isEmpty

/-- The candidates in the order in which they are tried. -/
def candidateOrder (request : FallbackRequest χ) : List (Candidate χ × Nat) :=
  match request.enableParallelProviderRace, request.eligible.zipIdx with
  | true, candidate1 :: candidate2 :: rest =>
    let (winner, loser) :=
      if request.task1Done then (candidate1, candidate2) else (candidate2, candidate1)
    winner :: (if isSilent winner then [loser] else []) ++ rest.filter (·.1.admitted)
  | _, eligible => eligible.filter (·.1.admitted)

def attemptOrder (request : FallbackRequest χ) : List (AttemptId × Output χ) :=
  (candidateOrder request).flatMap attemptsOf

/-! ### The service follows the order -/

theorem retryLoop_eq_firstOf (attempts : Nat → Output χ) (attempt retries : Nat) :
    retryLoop attempts attempt retries =
      firstOf ((List.range' attempt (retries + 1)).map attempts) := by
  induction retries generalizing attempt with
  | zero => exact (orElse_failed _).symm
  | succ retries ih => rw [retryLoop, ih, List.range'_succ (s := attempt), List.map_cons, firstOf_cons]

theorem attemptProvider_eq_firstOf (candidate : Candidate χ × Nat) :
    attemptProvider candidate = firstOf ((attemptsOf candidate).map label) := by
  unfold attemptProvider attemptsOf
  split
  · rw [retryLoop_eq_firstOf, List.map_map]
    rfl
  · rfl

theorem sequential_eq_firstOf (candidates : List (Candidate χ × Nat)) :
    sequential candidates =
      firstOf (((candidates.filter (·.1.admitted)).flatMap attemptsOf).map label) := by
  induction candidates with
  | nil => rfl
  | cons candidate rest ih =>
    rw [sequential, List.filter_cons, ih]
    split
    · rw [List.flatMap_cons, List.map_append, firstOf_append, attemptProvider_eq_firstOf]
    · rfl

theorem mem_attemptsOf {candidate : Candidate χ × Nat} {run : AttemptId × Output χ}
    (member : run ∈ attemptsOf candidate) :
    ∃ attempt, run = ((candidate.2, attempt), (candidate.1.attempts attempt).stream) := by
  rw [attemptsOf] at member
  split at member
  · obtain ⟨attempt, -, rfl⟩ := List.mem_map.mp member
    exact ⟨attempt, rfl⟩
  · cases member

/-- A generator that has a chunk when it completes is not changed by waiting for the first one. -/
theorem firstChunk_eq_self {stream : Output χ}
    (yields : stream.ending = .completes → stream.chunks ≠ []) : firstChunk stream = stream := by
  unfold firstChunk
  split
  · exact absurd ‹_› (yields ‹_›)
  · rfl

/-- An attempt does not complete without a chunk. -/
theorem Attempt.yields_of_completes {attempt : Attempt χ}
    (completes : attempt.stream.ending = .completes) : attempt.stream.chunks ≠ [] := by
  have first : ∀ stream : Output χ, (firstChunk stream).ending = .completes →
      (firstChunk stream).chunks ≠ [] := by
    rintro ⟨chunks, ending⟩ completes
    cases chunks <;> cases ending <;> simp_all [firstChunk]
  unfold Attempt.stream at completes ⊢
  split at completes <;> [skip; cases completes]
  rw [if_pos ‹_›]
  dsimp only at completes ⊢
  split at completes
  · split at completes <;> [skip; cases completes]
    simp only [*, if_true]
    exact first _ ‹_›
  all_goals simp_all

theorem attemptProvider_yields {candidate : Candidate χ × Nat}
    (completes : (attemptProvider candidate).ending = .completes) :
    (attemptProvider candidate).chunks ≠ [] := by
  rw [attemptProvider_eq_firstOf] at completes ⊢
  refine firstOf_completes (fun run member completes => ?_) completes
  obtain ⟨attempt, listed, rfl⟩ := List.mem_map.mp member
  obtain ⟨number, rfl⟩ := mem_attemptsOf listed
  intro empty
  exact @Attempt.yields_of_completes χ (candidate.1.attempts number) completes
    (label_chunks_eq_nil.mp empty)

theorem isSilent_iff (candidate : Candidate χ × Nat) :
    isSilent candidate = true ↔ ∀ run ∈ (attemptsOf candidate).map label, run.chunks = [] := by
  simp only [isSilent, List.all_eq_true, List.isEmpty_iff, List.forall_mem_map, label_chunks_eq_nil]

/-- A race makes the attempts of its winner, and those of the loser if the winner is silent. -/
theorem raceStreams_orElse (winner loser : Candidate χ × Nat) (rest : Output (AttemptId × χ)) :
    (raceStreams true (attemptProvider winner) (attemptProvider loser)).orElse rest =
      (firstOf (((winner :: if isSilent winner then [loser] else []).flatMap attemptsOf).map
        label)).orElse rest := by
  have self := fun candidate : Candidate χ × Nat =>
    firstChunk_eq_self (@attemptProvider_yields χ candidate)
  simp only [raceStreams, if_true, self]
  rw [List.flatMap_cons, List.map_append, firstOf_append, ← attemptProvider_eq_firstOf]
  by_cases silent : isSilent winner = true
  · have empty : (attemptProvider winner).chunks = [] := by
      rw [attemptProvider_eq_firstOf]
      exact firstOf_silent ((isSilent_iff winner).mp silent)
    rw [if_pos silent, List.flatMap_singleton, ← attemptProvider_eq_firstOf]
    generalize attemptProvider winner = stream at empty
    obtain ⟨chunks, ending⟩ := stream
    cases empty
    cases ending <;> simp [orElse]
  · rw [if_neg silent, List.flatMap_nil, List.map_nil, firstOf_nil, orElse_failed]
    split
    · rename_i fails
      refine absurd ((isSilent_iff winner).mpr fun run member => ?_) silent
      rw [attemptProvider_eq_firstOf] at fails
      rw [eq_failed_of_firstOf_eq_failed fails run member, failed_chunks]
    · rfl

theorem raceStreams_swap {τ : Type*} (iter1 iter2 : Output τ) :
    raceStreams false iter1 iter2 = raceStreams true iter2 iter1 := rfl

/-- The service makes the attempts of the order until one of them does not fail. -/
theorem executeRequest_eq_firstOf (request : FallbackRequest χ) :
    executeRequestWithRetryAndFallback request = firstOf ((attemptOrder request).map label) := by
  unfold executeRequestWithRetryAndFallback attemptOrder candidateOrder
  split
  · rw [sequential_eq_firstOf]
    cases request.task1Done with
    | true =>
      simp only [if_true]
      rw [raceStreams_orElse, List.flatMap_append, List.map_append, firstOf_append]
    | false =>
      simp only [Bool.false_eq_true, if_false]
      rw [raceStreams_swap, raceStreams_orElse, List.flatMap_append, List.map_append, firstOf_append]
  · exact sequential_eq_firstOf _

/-! ### One attempt at most -/

theorem watchdogStream_isPrefix (stall : Option Nat) (stream : Output χ) :
    (watchdogStream stall stream).chunks <+: stream.chunks := by
  unfold watchdogStream
  split
  · exact List.prefix_refl _
  · split
    · exact List.take_prefix _ _
    · exact List.prefix_refl _

theorem firstChunk_chunks (stream : Output χ) : (firstChunk stream).chunks = stream.chunks := by
  unfold firstChunk
  split
  · exact (‹stream.chunks = []›).symm
  · rfl

/-- An attempt yields a prefix of what its provider yields. -/
theorem Attempt.stream_isPrefix (attempt : Attempt χ) :
    attempt.stream.chunks <+: attempt.rawStream.chunks := by
  have watched := firstChunk_chunks (watchdogStream attempt.stall attempt.rawStream) ▸
    watchdogStream_isPrefix attempt.stall attempt.rawStream
  unfold Attempt.stream
  split
  · dsimp only
    split
    · split
      · exact watched
      · exact watched
    all_goals exact watched
  · exact List.nil_prefix

/-- An attempt completes with its provider's whole stream. -/
theorem Attempt.rawStream_of_completes {attempt : Attempt χ}
    (completes : attempt.stream.ending = .completes) :
    attempt.rawStream = ⟨attempt.stream.chunks, .completes⟩ := by
  have watched : ∀ stream : Output χ, (firstChunk (watchdogStream attempt.stall stream)).ending =
      .completes → firstChunk (watchdogStream attempt.stall stream) = stream := by
    intro stream completes
    have first : ∀ stream : Output χ, (firstChunk stream).ending = .completes →
        firstChunk stream = stream := by
      intro stream completes
      unfold firstChunk at completes ⊢
      split at completes
      · cases completes
      · rfl
    have same := first _ completes
    rw [same] at completes ⊢
    unfold watchdogStream at completes ⊢
    split at completes
    · rfl
    · split at completes
      · cases completes
      · rw [if_neg ‹_›]
  unfold Attempt.stream at completes ⊢
  split at completes <;> [skip; cases completes]
  rw [if_pos ‹_›]
  dsimp only at completes ⊢
  split at completes
  · rename_i ending
    split at completes <;> [skip; cases completes]
    rename_i recorded
    have same := watched _ ending
    simp only [recorded, if_true]
    rw [same] at ending ⊢
    rw [← ending]
  all_goals simp_all

/-- The order takes candidates from the eligible ones, each once. -/
theorem candidateOrder_sublist (request : FallbackRequest χ) :
    ∃ listed, listed.Perm request.eligible.zipIdx ∧ (candidateOrder request).Sublist listed := by
  unfold candidateOrder
  split
  · rename_i candidate1 candidate2 rest _ listed
    rw [listed]
    have order (winner loser : Candidate χ × Nat) :
        (winner :: (if isSilent winner then [loser] else []) ++
          rest.filter (·.1.admitted)).Sublist (winner :: loser :: rest) := by
      refine List.Sublist.cons_cons _ ?_
      split
      · exact List.filter_sublist.cons_cons _
      · exact List.filter_sublist.cons _
    cases request.task1Done with
    | true => exact ⟨_, List.Perm.refl _, order candidate1 candidate2⟩
    | false => exact ⟨_, List.Perm.swap _ _ _, order candidate2 candidate1⟩
  · exact ⟨_, List.Perm.refl _, List.filter_sublist⟩

/-- Every candidate of the order is an eligible one, under its place. -/
theorem getElem?_of_mem_candidateOrder {request : FallbackRequest χ}
    {candidate : Candidate χ × Nat} (member : candidate ∈ candidateOrder request) :
    request.eligible[candidate.2]? = some candidate.1 := by
  obtain ⟨listed, perm, sublist⟩ := candidateOrder_sublist request
  exact List.mem_zipIdx_iff_getElem?.mp (perm.mem_iff.mp (sublist.subset member))

/-- No candidate is tried twice. -/
theorem candidateOrder_nodup (request : FallbackRequest χ) :
    ((candidateOrder request).map Prod.snd).Nodup := by
  obtain ⟨listed, perm, sublist⟩ := candidateOrder_sublist request
  refine (sublist.map Prod.snd).nodup ((perm.map Prod.snd).nodup_iff.mpr ?_)
  rw [List.zipIdx_map_snd]
  exact List.nodup_range'

/-- The attempts with one candidate are told apart by their numbers. -/
theorem attemptsOf_nodup (candidate : Candidate χ × Nat) :
    ((attemptsOf candidate).map Prod.fst).Nodup := by
  unfold attemptsOf
  split
  · rw [List.map_map]
    exact List.Nodup.map (fun first second same => (Prod.mk.inj same).2) List.nodup_range'
  · exact List.nodup_nil

theorem attemptOrder_nodup (request : FallbackRequest χ) :
    ((attemptOrder request).map Prod.fst).Nodup := by
  rw [attemptOrder, List.map_flatMap, List.nodup_flatMap]
  refine ⟨fun candidate _ => attemptsOf_nodup candidate, ?_⟩
  refine (List.pairwise_map.mp (candidateOrder_nodup request)).imp fun apart name mine theirs => ?_
  obtain ⟨run, member, rfl⟩ := List.mem_map.mp mine
  obtain ⟨other, member', same⟩ := List.mem_map.mp theirs
  obtain ⟨number, rfl⟩ := mem_attemptsOf member
  obtain ⟨number', rfl⟩ := mem_attemptsOf member'
  exact apart (Prod.mk.inj same).1.symm

/-- Every run of the order is an attempt with the provider under its name. -/
theorem of_mem_attemptOrder {request : FallbackRequest χ} {run : AttemptId × Output χ}
    (member : run ∈ attemptOrder request) :
    ∃ attempt : Attempt χ, run.2 = attempt.stream ∧
      request.providerStream run.1 = attempt.rawStream := by
  obtain ⟨candidate, listed, member⟩ := List.mem_flatMap.mp member
  obtain ⟨number, rfl⟩ := mem_attemptsOf member
  refine ⟨candidate.1.attempts number, rfl, ?_⟩
  rw [FallbackRequest.providerStream, getElem?_of_mem_candidateOrder listed]

/-- **One response, one attempt.** The chunks that the client gets are a prefix of the chunk sequence
of one attempt exactly when, of any two attempts of the order that yield a chunk, the later one comes
behind an attempt that does not fail. -/
theorem one_attempt_iff (request : FallbackRequest χ) :
    IsOneRun request.chunkSequence (executeRequestWithRetryAndFallback request).chunks ↔
      Isolated ((attemptOrder request).map Prod.snd) := by
  rw [executeRequest_eq_firstOf]
  refine firstOf_isOneRun_iff (attemptOrder_nodup request) fun run member => ?_
  obtain ⟨candidate, listed, member⟩ := List.mem_flatMap.mp member
  obtain ⟨attempt, rfl⟩ := mem_attemptsOf member
  rw [FallbackRequest.chunkSequence, getElem?_of_mem_candidateOrder listed]
  exact Attempt.stream_isPrefix _

/-- One provider: its first attempt breaks off behind `Hel`, the second one answers. -/
def brokenOffHello : FallbackRequest String where
  candidates := [{
    available := fun _ => true
    admitted := true
    acquired := true
    attempts := fun attempt =>
      { prepared := true
        rawStream := if attempt = 1 then ⟨["Hel"], .fails⟩ else ⟨["Hello"], .completes⟩
        stall := none
        recorded := true } }]
  rounds := 1
  enableParallelProviderRace := false
  task1Done := true

/-- The retry's chunk is appended to the chunk of the attempt that failed. -/
theorem brokenOffHello_mixes_attempts :
    (executeRequestWithRetryAndFallback brokenOffHello).chunks =
      [((0, 1), "Hel"), ((0, 2), "Hello")] ∧
    ¬IsOneRun brokenOffHello.chunkSequence
      (executeRequestWithRetryAndFallback brokenOffHello).chunks := by
  have delivered : (executeRequestWithRetryAndFallback brokenOffHello).chunks =
      [((0, 1), "Hel"), ((0, 2), "Hello")] := by decide
  refine ⟨delivered, ?_⟩
  rw [delivered]
  rintro (empty | ⟨name, isPrefix⟩)
  · cases empty
  · obtain ⟨_, -, same⟩ := List.mem_map.mp (isPrefix.subset (List.mem_cons_self ..))
    obtain ⟨_, -, same'⟩ :=
      List.mem_map.mp (isPrefix.subset (List.mem_cons_of_mem _ (List.mem_cons_self ..)))
    have first := (Prod.mk.inj same).1
    have second := (Prod.mk.inj same').1
    exact absurd (first.symm.trans second) (by decide)

end ClaudeProxy
