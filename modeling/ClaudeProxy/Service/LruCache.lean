/-
**The response cache as a bounded map** (`get` and `set` of `core/reliability/cache.py`, in exact mode,
under `cache_ttl` and `cache_max_size` of `config/settings.py`).

* `CacheRun` — a cache under its calls, on a clock that does not run back, with a record of what each key
  was last given, unless that was evicted, and of when each key was last used.
* `Stores` — the ways in which `set` ends.
* `BoundedLru` — what is asked of the next call in any state: `set` does not raise, the size is bounded,
  `get` returns what the key was last given until that expires, and only the least recently used entry of
  a full cache is evicted.
* **`boundedLru_iff`** — so it is exactly where the cache may hold an entry; a cache of size zero raises
  at the first `set` (`sizeZero_raises`), and so does one whose lifetime is too long for a `float`.
-/

import ClaudeProxy.Library.Recency
import ClaudeProxy.Service.ResponseCache

namespace ClaudeProxy

variable {κ χ : Type} [DecidableEq κ]

/-- The entry that `set` makes. -/
def newEntry (config : CacheConfig) (request : MessagesRequest) (chunks : List χ)
    (customTtl : Option Int) (now : Int) : CacheEntry χ :=
  let ttl := customTtl.getD config.ttl
  ⟨chunks, now + (if 0 < ttl then ttl else 999999999), request⟩

/-! ### Runs -/

/-- A cache; the time and the number of the calls so far; the call that last used each key, by a `set` or
a `get` that returned its entry; and the entry of the last `set` of each key, unless it was evicted. -/
structure CacheRun (κ χ : Type) where
  cache : CacheStore κ χ := ∅
  clock : Int
  count : Nat := 0
  lastUsed : κ → Nat := fun _ => 0
  current : κ → Option (CacheEntry χ) := fun _ => none

namespace CacheRun

variable (sha256 : ByteArray → κ) (config : CacheConfig)

def get (run : CacheRun κ χ) (request : MessagesRequest) (now : Int) : CacheRun κ χ :=
  let (answer, cache) := ResponseCache.get sha256 run.cache request now
  { run with
    cache
    clock := now
    count := run.count + 1
    lastUsed :=
      if answer.isSome then
        Function.update run.lastUsed (generateExactKey sha256 request.modelDump) run.count
      else run.lastUsed }

/-- `set`; whatever was there and is not behind it has been evicted. -/
def set (run : CacheRun κ χ) (request : MessagesRequest) (chunks : List χ) (customTtl : Option Int)
    (now : Int) : CacheRun κ χ :=
  let exactKey := generateExactKey sha256 request.modelDump
  match ResponseCache.set sha256 config run.cache request chunks customTtl now with
  | none => { run with clock := now, count := run.count + 1 }
  | some cache =>
    { cache
      clock := now
      count := run.count + 1
      lastUsed := Function.update run.lastUsed exactKey run.count
      current := fun key =>
        if key = exactKey then some (newEntry config request chunks customTtl now)
        else if (run.cache.get? key).isSome ∧ (cache.get? key).isNone then none
        else run.current key }

/-- One call, at a time that is not before the last one. -/
def step (run : CacheRun κ χ) : CacheCall χ → Option (CacheRun κ χ)
  | .get request now => if now < run.clock then none else some (run.get sha256 request now)
  | .set request chunks customTtl now =>
    if now < run.clock then none else some (run.set sha256 config request chunks customTtl now)
  | .clear => some { run with cache := ∅, count := run.count + 1, current := fun _ => none }

end CacheRun

/-- A cache that begins empty. -/
def cacheRunMachine (sha256 : ByteArray → κ) (config : CacheConfig) :
    Machine (CacheRun κ χ) (CacheCall χ) where
  init run := run = { clock := run.clock }
  step := CacheRun.step sha256 config

/-! ### What is asked -/

/-- **A bounded map, least recently used first out.** -/
structure BoundedLru (sha256 : ByteArray → κ) (config : CacheConfig) (run : CacheRun κ χ) : Prop where
  stores : ∀ request chunks customTtl now, (∀ ttl, customTtl = some ttl → ttl < floatLimit) →
    ResponseCache.set sha256 config run.cache request chunks customTtl now ≠ none
  bounded : (run.cache.entries.length : Int) ≤ max config.maxSize 0
  serves : ∀ request now, run.clock ≤ now → (ResponseCache.get sha256 run.cache request now).1 =
    ((run.current (generateExactKey sha256 request.modelDump)).filter fun entry =>
      now < entry.expiresAt).map (·.chunks)
  evicts : ∀ request chunks customTtl now cache,
    ResponseCache.set sha256 config run.cache request chunks customTtl now = some cache →
    ∀ key, (run.cache.get? key).isSome → cache.get? key = none →
      config.maxSize ≤ run.cache.entries.length ∧
      ∀ other, (run.cache.get? other).isSome → other ≠ key → run.lastUsed key < run.lastUsed other

/-! ### How a call ends -/

/-- **The ways in which `set` ends.** -/
inductive Stores (config : CacheConfig) (cache : CacheStore κ χ) (key : κ) (entry : CacheEntry χ)
    (ttl : Int) : Option (CacheStore κ χ) → Prop
  | kept : (cache.get? key).isSome ∨ (cache.entries.length : Int) < config.maxSize →
    Stores config cache key entry ttl (some (cache.touch key entry))
  | evicted {oldest : κ × CacheEntry χ} {rest : List (κ × CacheEntry χ)} : cache.get? key = none →
    config.maxSize ≤ cache.entries.length → cache.entries = oldest :: rest →
    Stores config cache key entry ttl (some ((cache.erase oldest.1).touch key entry))
  | raised : config.maxSize ≤ 0 → cache.entries = [] → Stores config cache key entry ttl none
  | overflowed : floatLimit ≤ ttl → Stores config cache key entry ttl none

theorem ResponseCache.set_stores (sha256 : ByteArray → κ) (config : CacheConfig)
    (cache : CacheStore κ χ) (request : MessagesRequest) (chunks : List χ) (customTtl : Option Int)
    (now : Int) : Stores config cache (generateExactKey sha256 request.modelDump)
      (newEntry config request chunks customTtl now) (customTtl.getD config.ttl)
      (ResponseCache.set sha256 config cache request chunks customTtl now) := by
  unfold ResponseCache.set
  dsimp only
  generalize generateExactKey sha256 request.modelDump = key
  by_cases long : floatLimit ≤ customTtl.getD config.ttl
  · rw [if_pos long]
    exact .overflowed long
  rw [if_neg long]
  by_cases present : (cache.get? key).isSome
  · rw [if_pos present]
    exact .kept (.inl present)
  · have absent : cache.get? key = none := Option.not_isSome_iff_eq_none.mp present
    rw [if_neg present]
    by_cases full : config.maxSize ≤ (cache.entries.length : Int)
    · rw [if_pos full, popOldest]
      cases entries : cache.entries with
      | nil =>
        rw [entries] at full
        exact .raised full entries
      | cons oldest rest =>
        have same : (cache.erase oldest.1).erase key = cache.erase oldest.1 := by
          refine Dict.erase_of_none ?_
          rw [Dict.get?_erase, absent]
          exact ite_self none
        have ended : Stores config cache key (newEntry config request chunks customTtl now)
            (customTtl.getD config.ttl) _ := .evicted absent full entries
        rw [Dict.touch, same] at ended
        exact ended
    · have ended : Stores config cache key (newEntry config request chunks customTtl now)
          (customTtl.getD config.ttl) _ := .kept (.inr (Int.not_le.mp full))
      rw [if_neg full]
      rw [Dict.touch, Dict.erase_of_none absent] at ended
      exact ended

/-! ### The invariant -/

/-- What a run knows of its cache. -/
structure CacheRun.Tracked (config : CacheConfig) (run : CacheRun κ χ) : Prop where
  held : ∀ key entry, run.cache.get? key = some entry → run.current key = some entry
  gone : ∀ key entry, run.current key = some entry → run.cache.get? key = none →
    entry.expiresAt ≤ run.clock
  inOrder : InOrderOfUse run.lastUsed run.count run.cache
  bounded : (run.cache.entries.length : Int) ≤ max config.maxSize 0

namespace CacheRun.Tracked

variable {sha256 : ByteArray → κ} {config : CacheConfig} {run next : CacheRun κ χ}

/-- **A `get`** moves the entry that it returns, and removes one that has expired. -/
theorem get (tracked : run.Tracked config) (request : MessagesRequest) {now : Int}
    (passed : run.clock ≤ now) : (run.get sha256 request now).Tracked config := by
  unfold CacheRun.get ResponseCache.get
  dsimp only
  generalize isKey : generateExactKey sha256 request.modelDump = exactKey
  cases hit : hit? sha256 run.cache request now with
  | some entry =>
    rw [hit?, isKey, Option.filter_eq_some_iff] at hit
    have same : ∀ key, (run.cache.touch exactKey entry).get? key = run.cache.get? key := by
      intro key
      rw [Dict.get?_touch]
      split_ifs with here
      · rw [here, hit.1]
      · rfl
    refine ⟨fun key other found => ?_, fun key other isCurrent absent => ?_,
      tracked.inOrder.touch exactKey entry, ?_⟩
    · exact tracked.held key other ((same key).symm.trans found)
    · exact Int.le_trans (tracked.gone key other isCurrent ((same key).symm.trans absent)) passed
    · show ((run.cache.touch exactKey entry).entries.length : Int) ≤ _
      have fewer := Dict.length_erase_lt (Option.isSome_iff_exists.mpr ⟨entry, hit.1⟩)
      have most := tracked.bounded
      rw [Dict.entries_touch, List.length_append, List.length_singleton]
      omega
  | none =>
    rw [hit?, isKey, Option.filter_eq_none_iff] at hit
    refine ⟨fun key entry found => ?_, fun key entry isCurrent absent => ?_,
      (tracked.inOrder.erase exactKey).later, ?_⟩
    · rw [Dict.get?_erase] at found
      split_ifs at found
      exact tracked.held key entry found
    · show entry.expiresAt ≤ now
      rw [Dict.get?_erase] at absent
      split_ifs at absent with here
      · subst here
        cases found : run.cache.get? key with
        | none => exact Int.le_trans (tracked.gone key entry isCurrent found) passed
        | some other =>
          obtain rfl := Option.some.inj (isCurrent.symm.trans (tracked.held key other found))
          have stale := hit entry found
          rw [decide_eq_true_iff] at stale
          exact Int.not_lt.mp stale
      · exact Int.le_trans (tracked.gone key entry isCurrent absent) passed
    · have fewer := Dict.length_erase_le run.cache exactKey
      have most := tracked.bounded
      show ((run.cache.erase exactKey).entries.length : Int) ≤ _
      omega

/-- A key is given an entry, in a cache from which some were removed. -/
theorem store (tracked : run.Tracked config) {room : CacheStore κ χ} {key : κ} {entry : CacheEntry χ}
    {now : Int} (passed : run.clock ≤ now) (inOrder : InOrderOfUse run.lastUsed run.count room)
    (fewer : ∀ other, room.get? other = run.cache.get? other ∨ room.get? other = none)
    (bounded : ((room.touch key entry).entries.length : Int) ≤ max config.maxSize 0) :
    CacheRun.Tracked config
      { cache := room.touch key entry
        clock := now
        count := run.count + 1
        lastUsed := Function.update run.lastUsed key run.count
        current := fun other =>
          if other = key then some entry
          else if (run.cache.get? other).isSome ∧ ((room.touch key entry).get? other).isNone then none
          else run.current other } := by
  refine ⟨fun other found is => ?_, fun other found isCurrent absent => ?_, inOrder.touch key entry,
    bounded⟩
  · rw [Dict.get?_touch] at is
    dsimp only
    split_ifs at is with here
    · rw [if_pos here, is]
    · rw [if_neg here, if_neg fun evicted => ?_]
      · rcases fewer other with same | removed
        · exact tracked.held other found (same.symm.trans is)
        · rw [removed] at is
          cases is
      · rw [Dict.get?_touch, if_neg here, is] at evicted
        cases evicted.2
  · dsimp only at isCurrent absent ⊢
    rw [Dict.get?_touch] at absent
    split_ifs at absent with here
    rw [if_neg here] at isCurrent
    split_ifs at isCurrent with evicted
    rw [Dict.get?_touch, if_neg here, absent, not_and] at evicted
    have before : run.cache.get? other = none :=
      Option.not_isSome_iff_eq_none.mp fun present => evicted present rfl
    exact Int.le_trans (tracked.gone other found isCurrent before) passed

/-- **A `set`.** -/
theorem set (tracked : run.Tracked config) (request : MessagesRequest) (chunks : List χ)
    (customTtl : Option Int) {now : Int} (passed : run.clock ≤ now) :
    (run.set sha256 config request chunks customTtl now).Tracked config := by
  have most := tracked.bounded
  have stores := ResponseCache.set_stores sha256 config run.cache request chunks customTtl now
  unfold CacheRun.set
  dsimp only
  generalize ResponseCache.set sha256 config run.cache request chunks customTtl now = answer at stores ⊢
  generalize generateExactKey sha256 request.modelDump = exactKey at stores ⊢
  cases stores with
  | raised | overflowed =>
    exact ⟨tracked.held, fun key entry isCurrent absent =>
      Int.le_trans (tracked.gone key entry isCurrent absent) passed, tracked.inOrder.later, most⟩
  | kept room =>
    refine tracked.store passed tracked.inOrder (fun _ => .inl rfl) ?_
    rw [Dict.entries_touch, List.length_append, List.length_singleton]
    rcases room with present | short
    · have fewer := Dict.length_erase_lt present
      omega
    · have fewer := Dict.length_erase_le run.cache exactKey
      omega
  | evicted absent full entries =>
    rename_i oldest rest
    refine tracked.store passed (tracked.inOrder.erase oldest.1) (fun other => ?_) ?_
    · rw [Dict.get?_erase]
      split_ifs
      · exact .inr rfl
      · exact .inl rfl
    · have fewer := Dict.length_erase_le (run.cache.erase oldest.1) exactKey
      rw [Dict.erase_oldest entries] at fewer
      rw [entries, List.length_cons] at most
      rw [Dict.entries_touch, List.length_append, List.length_singleton]
      omega

theorem step (tracked : run.Tracked config) {call : CacheCall χ}
    (stepped : run.step sha256 config call = some next) : next.Tracked config := by
  cases call with
  | get request now =>
    obtain ⟨passed, same⟩ := Option.ite_none_left_eq_some.mp stepped
    obtain rfl := Option.some.inj same
    exact tracked.get request (Int.not_lt.mp passed)
  | set request chunks customTtl now =>
    obtain ⟨passed, same⟩ := Option.ite_none_left_eq_some.mp stepped
    obtain rfl := Option.some.inj same
    exact tracked.set request chunks customTtl (Int.not_lt.mp passed)
  | clear =>
    obtain rfl := Option.some.inj stepped
    exact ⟨fun _ _ found => (by cases found), fun _ _ isCurrent _ => (by cases isCurrent), .empty,
      Int.le_max_right _ _⟩

/-- **What the next call does**, if the cache may hold an entry. -/
theorem boundedLru (tracked : run.Tracked config) (holds : config.Holds) :
    BoundedLru sha256 config run where
  stores request chunks customTtl now lives raises := by
    have stores := ResponseCache.set_stores sha256 config run.cache request chunks customTtl now
    rw [raises] at stores
    cases stores with
    | raised noRoom => exact absurd holds.1 (Int.not_lt.mpr noRoom)
    | overflowed long =>
      cases customTtl with
      | none => exact absurd holds.2 (Int.not_lt.mpr long)
      | some ttl => exact absurd (lives ttl rfl) (Int.not_lt.mpr long)
  bounded := tracked.bounded
  serves request now passed := by
    unfold ResponseCache.get
    dsimp only
    have answer : hit? sha256 run.cache request now =
        (run.current (generateExactKey sha256 request.modelDump)).filter fun entry =>
          now < entry.expiresAt := by
      unfold hit?
      generalize generateExactKey sha256 request.modelDump = key
      cases found : run.cache.get? key with
      | some entry => rw [tracked.held key entry found]
      | none =>
        symm
        refine Option.filter_eq_none_iff.mpr fun entry isCurrent fresh => ?_
        have stale := tracked.gone key entry isCurrent found
        rw [decide_eq_true_iff] at fresh
        omega
    rw [← answer]
    cases hit? sha256 run.cache request now <;> rfl
  evicts request chunks customTtl now cache stored key present absent := by
    have stores := ResponseCache.set_stores sha256 config run.cache request chunks customTtl now
    rw [stored] at stores
    cases stores with
    | kept =>
      rw [Dict.get?_touch] at absent
      split_ifs at absent
      rw [absent] at present
      cases present
    | evicted fresh full entries =>
      rename_i oldest rest
      refine ⟨full, fun other there different => ?_⟩
      rw [Dict.get?_touch] at absent
      split_ifs at absent with here
      rw [Dict.get?_erase] at absent
      split_ifs at absent with isOldest
      · rw [isOldest] at different ⊢
        exact tracked.inOrder.oldest entries there different
      · rw [absent] at present
        cases present

end CacheRun.Tracked

theorem tracked_of_cacheRun {sha256 : ByteArray → κ} {config : CacheConfig} {run : CacheRun κ χ}
    (reached : (cacheRunMachine sha256 config).Reachable Machine.unguarded run) : run.Tracked config := by
  refine Machine.Reachable.invariant ?_ ?_ reached
  · intro run start
    rw [start]
    exact ⟨fun _ _ found => (by cases found), fun _ _ isCurrent _ => (by cases isCurrent), .empty,
      Int.le_max_right _ _⟩
  · intro run call next tracked _ stepped
    exact tracked.step stepped

/-- **When the cache is a bounded map.** In every state of every run: exactly if its size is at least one
and its lifetime is a `float`. -/
theorem boundedLru_iff (sha256 : ByteArray → κ) (config : CacheConfig) {run : CacheRun κ χ}
    (reached : (cacheRunMachine sha256 config).Reachable Machine.unguarded run) :
    BoundedLru sha256 config run ↔ 0 < config.maxSize ∧ config.ttl < floatLimit := by
  have tracked := tracked_of_cacheRun reached
  refine ⟨fun lru => ?_, tracked.boundedLru⟩
  have stores := lru.stores freeChoice [] none run.clock nofun
  by_contra cannot
  by_cases long : floatLimit ≤ config.ttl
  · refine stores ?_
    unfold ResponseCache.set
    exact if_pos long
  · have small : config.maxSize ≤ 0 := Int.not_lt.mp fun room => cannot ⟨room, Int.not_le.mp long⟩
    have most := tracked.bounded
    rw [Int.max_eq_right small] at most
    have empty : run.cache = ∅ := by
      have nothing : run.cache.entries = [] := List.length_eq_zero_iff.mp (by omega)
      cases isCache : run.cache with
      | mk entries nodupKeys =>
        rw [isCache] at nothing
        subst nothing
        rfl
    refine stores ?_
    rw [empty]
    exact ResponseCache.set_empty_of_not_holds sha256 cannot freeChoice [] run.clock

/-- Two answers, for a cache that may hold one. -/
def twoAnswers : List (CacheCall String) :=
  [.set freeChoice ["a"] none 0, .set forcedChoice ["b"] none 1]

theorem twoAnswers_boundedLru : ∃ run,
    (cacheRunMachine ByteArray.data ⟨3600, 1⟩).run { clock := 0 } twoAnswers = some run ∧
      (BoundedLru ByteArray.data ⟨3600, 1⟩ run ↔ 0 < (1 : Int) ∧ (3600 : Int) < floatLimit) := by
  obtain ⟨run, ran⟩ := Option.isSome_iff_exists.mp
    (by decide +kernel : ((cacheRunMachine ByteArray.data ⟨3600, 1⟩).run { clock := 0 }
      twoAnswers).isSome = true)
  have reached := Machine.reachable_of_run_unguarded twoAnswers rfl ran
  exact ⟨run, ran, boundedLru_iff ByteArray.data ⟨3600, 1⟩ reached⟩

/-- **With `CACHE_MAX_SIZE=0`** the first `set` raises. -/
theorem sizeZero_raises : ¬ ∀ run : CacheRun (Array UInt8) String,
    (cacheRunMachine ByteArray.data ⟨3600, 0⟩).Reachable Machine.unguarded run →
      BoundedLru ByteArray.data ⟨3600, 0⟩ run := by
  intro claimed
  exact (claimed { clock := 0 } (.init rfl)).stores freeChoice ["a"] none 0 nofun
    (ResponseCache.set_empty_of_not_holds ByteArray.data (fun holds => absurd holds.1 (by decide))
      freeChoice ["a"] 0)

end ClaudeProxy
