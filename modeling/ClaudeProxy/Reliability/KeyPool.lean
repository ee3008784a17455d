/-
**The key pool** (`core/reliability/key_pool.py`).

* `KeyEntry`, `KeyPool` — the keys of each provider and where its rotation stands.
* `tryCandidates` — the loop of `get_key`, with the pruning of the request times that it passes.
* `poolMachine` — the operations of a pool that loses no key, in any order, with a record of every key
  that `get_key` has returned. Nothing is awaited under the lock, so each is one step.
* `KeysTracked` — the request times of a key hold every return of it in the last hour.
* `report429_rests`, `toggleRevokeKey_revokes`, `updateKeyMeta_limits` — what an operation does to a key
  shows in what `get_key` returns.
* **`serves_of_reachable`** — `get_key` refuses only if no key is eligible, and a key it returns is
  neither revoked nor cooling down and within its hourly quota.
-/

import ClaudeProxy.Library.Dict
import ClaudeProxy.Library.Rotation
import ClaudeProxy.Library.Transition
import ClaudeProxy.Library.Window
import ClaudeProxy.Python

namespace ClaudeProxy

/-! ### The pool -/

/-- The ticks of an hour; a tick of either clock is a nanosecond. -/
def hour : Int := 3600 * 10 ^ 9

/-- An entry of the key database. -/
structure KeyEntry where
  key : String
  keyAlias : String
  revoked : Bool := false
  quota : Int := 0
  requestTimes : List Int := []
  cooldownExpiry : Int := 0
  deriving DecidableEq

/-- The keys of each provider, and the index at which its next search starts. -/
structure KeyPool where
  keyDb : Dict String (List KeyEntry) := {}
  indices : Dict String Nat := {}

/-- What the dashboard is shown of a key. -/
structure KeyStatus where
  providerId : String
  keyAlias : String
  revoked : Bool
  quota : Int
  cooldownRemaining : Int
  usedQuotaHour : Nat
  maskedKey : String
  keyHash : Int

/-- Change the first entry that meets a condition. -/
def updateFirst (found : KeyEntry → Bool) (change : KeyEntry → KeyEntry) : List KeyEntry → List KeyEntry
  | [] => []
  | entry :: rest =>
    if found entry then change entry :: rest else entry :: updateFirst found change rest

/-- The alias of a key that was given none. -/
def defaultAlias (providerId key : String) : String :=
  let shortKey := if 6 ≤ Py.len key then Py.drop key (Py.len key - 6) else "key"
  providerId ++ "-" ++ shortKey

/-- The first and the last letters of a key that is long enough. -/
def maskedKey (key : String) : String :=
  if 10 ≤ Py.len key then Py.take key 6 ++ "..." ++ Py.drop key (Py.len key - 4) else "..."

/-- The request times less than an hour back. -/
def KeyEntry.pruned (entry : KeyEntry) (nowReal : Int) : KeyEntry :=
  { entry with requestTimes := recent hour nowReal entry.requestTimes }

/-- What the loop of `get_key` makes of a candidate's request times. -/
def KeyEntry.checked (entry : KeyEntry) (nowReal : Int) : KeyEntry :=
  if 0 < entry.quota then entry.pruned nowReal else entry

/-- The usage time is recorded. -/
def KeyEntry.used (entry : KeyEntry) (nowReal : Int) : KeyEntry :=
  { entry with requestTimes := entry.requestTimes ++ [nowReal] }

/-- The loop of `get_key` over the indices that remain: the keys afterwards, and the index and the key
that it found. -/
def tryCandidates (nowMonotonic nowReal : Int) (keys : List KeyEntry) :
    List Nat → List KeyEntry × Option (Nat × String)
  | [] => (keys, none)
  | index :: rest =>
    match keys[index]? with
    | none => (keys, none)
    | some candidate =>
      if candidate.revoked then tryCandidates nowMonotonic nowReal keys rest
      else if nowMonotonic < candidate.cooldownExpiry then tryCandidates nowMonotonic nowReal keys rest
      else
        let candidate := candidate.checked nowReal
        if 0 < candidate.quota ∧ candidate.quota ≤ candidate.requestTimes.length then
          tryCandidates nowMonotonic nowReal (keys.set index candidate) rest
        else (keys.set index (candidate.used nowReal), some (index, candidate.key))

namespace KeyPool

def keysOf (pool : KeyPool) (providerId : String) : List KeyEntry :=
  (pool.keyDb.get? providerId).getD []

/-- The keys of a provider that has some are changed. -/
def withKeys (pool : KeyPool) (providerId : String) (change : List KeyEntry → List KeyEntry) : KeyPool :=
  match pool.keyDb.get? providerId with
  | none => pool
  | some keys => { pool with keyDb := pool.keyDb.set providerId (change keys) }

/-- `_add_key_in_memory`: a key that exists is given what is specified. -/
def addKey (pool : KeyPool) (providerId key : String) (keyAlias : Option String) (quota : Int)
    (revoked : Bool) : KeyPool :=
  let keys := pool.keysOf providerId
  let keyAlias := keyAlias.filter (· ≠ "")
  let keys :=
    if keys.any (·.key = key) then
      updateFirst (·.key = key) (fun entry =>
        { entry with
          keyAlias := keyAlias.getD entry.keyAlias
          quota := if quota = 0 then entry.quota else quota
          revoked }) keys
    else keys ++ [{ key, keyAlias := keyAlias.getD (defaultAlias providerId key), revoked, quota }]
  { pool with keyDb := pool.keyDb.set providerId keys }

/-- `get_key`: the next key that is not revoked, not on cooldown and under its quota. -/
def getKey (pool : KeyPool) (providerId : String) (nowMonotonic nowReal : Int) :
    KeyPool × Option String :=
  match pool.keyDb.get? providerId with
  | none | some [] => (pool, none)
  | some keys =>
    let n := keys.length
    let startIdx := (pool.indices.get? providerId).getD 0
    match tryCandidates nowMonotonic nowReal keys ((List.range n).map fun i => (startIdx + i) % n) with
    | (keys, none) => ({ pool with keyDb := pool.keyDb.set providerId keys }, none)
    | (keys, some (index, key)) =>
      ({ keyDb := pool.keyDb.set providerId keys
         indices := pool.indices.set providerId ((index + 1) % n) }, some key)

/-- `report_429`. -/
def report429 (pool : KeyPool) (providerId key : String) (cooldownDuration nowMonotonic : Int) :
    KeyPool :=
  pool.withKeys providerId <| updateFirst (·.key = key) fun entry =>
    { entry with cooldownExpiry := nowMonotonic + cooldownDuration }

/-- `report_success`. -/
def reportSuccess (pool : KeyPool) (providerId key : String) : KeyPool :=
  pool.withKeys providerId <| updateFirst (·.key = key) fun entry => { entry with cooldownExpiry := 0 }

/-- `is_on_cooldown`: a cooldown that is over is cleared. -/
def isOnCooldown (pool : KeyPool) (providerId key : String) (nowMonotonic : Int) : KeyPool × Bool :=
  match (pool.keysOf providerId).find? (·.key = key) with
  | none => (pool, false)
  | some entry =>
    if nowMonotonic < entry.cooldownExpiry then (pool, true)
    else (pool.reportSuccess providerId key, false)

/-- `get_all_keys_status`: the request times of every key are pruned. -/
def getAllKeysStatus (hash : String → Int) (pool : KeyPool) (nowMonotonic nowReal : Int) :
    KeyPool × List KeyStatus :=
  let keyDb := pool.keyDb.mapValues fun _ keys => keys.map (·.pruned nowReal)
  let status (providerId : String) (entry : KeyEntry) : KeyStatus :=
    { providerId
      keyAlias := entry.keyAlias
      revoked := entry.revoked
      quota := entry.quota
      cooldownRemaining := max 0 (entry.cooldownExpiry - nowMonotonic)
      usedQuotaHour := entry.requestTimes.length
      maskedKey := maskedKey entry.key
      keyHash := hash entry.key }
  ({ pool with keyDb }, keyDb.entries.flatMap fun (providerId, keys) => keys.map (status providerId))

/-- `toggle_revoke_key`. -/
def toggleRevokeKey (hash : String → Int) (pool : KeyPool) (providerId : String) (keyHash : Int) :
    KeyPool :=
  pool.withKeys providerId <| updateFirst (hash ·.key = keyHash) fun entry =>
    { entry with revoked := !entry.revoked }

/-- `update_key_meta`. -/
def updateKeyMeta (hash : String → Int) (pool : KeyPool) (providerId : String) (keyHash : Int)
    (keyAlias : String) (quota : Int) : KeyPool :=
  pool.withKeys providerId <| updateFirst (hash ·.key = keyHash) fun entry =>
    { entry with keyAlias, quota }

end KeyPool

/-! ### Runs -/

/-- A key that `get_key` returned, and when. -/
structure KeyReturn where
  providerId : String
  key : String
  time : Int
  deriving DecidableEq

/-- A pool, both clocks and every return of a key so far. -/
structure PoolRun where
  pool : KeyPool := {}
  nowMonotonic : Int
  nowReal : Int
  returned : List KeyReturn := []

inductive PoolAction where
  | addKey (providerId key : String) (keyAlias : Option String) (quota : Int) (revoked : Bool)
  | getKey (providerId : String) (nowMonotonic nowReal : Int)
  | report429 (providerId key : String) (cooldownDuration nowMonotonic : Int)
  | reportSuccess (providerId key : String)
  | isOnCooldown (providerId key : String) (nowMonotonic : Int)
  | getAllKeysStatus (nowMonotonic nowReal : Int)
  | toggleRevokeKey (providerId : String) (keyHash : Int)
  | updateKeyMeta (providerId : String) (keyHash : Int) (keyAlias : String) (quota : Int)

namespace PoolRun

/-- The times at which a key was returned. -/
def timesOf (returned : List KeyReturn) (providerId key : String) : List Int :=
  (returned.filter fun event => event.providerId = providerId ∧ event.key = key).map (·.time)

/-- `get_key`, and what it returned. -/
def getKey (run : PoolRun) (providerId : String) (nowMonotonic nowReal : Int) :
    PoolRun × Option String :=
  let (pool, answer) := run.pool.getKey providerId nowMonotonic nowReal
  ({ pool, nowMonotonic, nowReal
     returned := run.returned ++ (answer.map fun key => ⟨providerId, key, nowReal⟩).toList }, answer)

variable (hash : String → Int)

/-- One operation, at times that are not before the last ones. -/
def step (run : PoolRun) : PoolAction → Option PoolRun
  | .addKey providerId key keyAlias quota revoked =>
    some { run with pool := run.pool.addKey providerId key keyAlias quota revoked }
  | .getKey providerId nowMonotonic nowReal =>
    if run.nowMonotonic ≤ nowMonotonic ∧ run.nowReal ≤ nowReal then
      some (run.getKey providerId nowMonotonic nowReal).1
    else none
  | .report429 providerId key cooldownDuration nowMonotonic =>
    if run.nowMonotonic ≤ nowMonotonic then
      some { run with
        pool := run.pool.report429 providerId key cooldownDuration nowMonotonic
        nowMonotonic }
    else none
  | .reportSuccess providerId key => some { run with pool := run.pool.reportSuccess providerId key }
  | .isOnCooldown providerId key nowMonotonic =>
    if run.nowMonotonic ≤ nowMonotonic then
      some { run with pool := (run.pool.isOnCooldown providerId key nowMonotonic).1, nowMonotonic }
    else none
  | .getAllKeysStatus nowMonotonic nowReal =>
    if run.nowMonotonic ≤ nowMonotonic ∧ run.nowReal ≤ nowReal then
      some { run with
        pool := (run.pool.getAllKeysStatus hash nowMonotonic nowReal).1, nowMonotonic, nowReal }
    else none
  | .toggleRevokeKey providerId keyHash =>
    some { run with pool := run.pool.toggleRevokeKey hash providerId keyHash }
  | .updateKeyMeta providerId keyHash keyAlias quota =>
    some { run with pool := run.pool.updateKeyMeta hash providerId keyHash keyAlias quota }

end PoolRun

/-- A pool that begins without keys. -/
def poolMachine (hash : String → Int) : Machine PoolRun PoolAction where
  init run := run = { nowMonotonic := run.nowMonotonic, nowReal := run.nowReal }
  step := PoolRun.step hash

/-! ### What is asked -/

/-- A key that may be returned: neither revoked nor cooling down, and returned less often within the
last hour than its quota says. -/
structure KeyEntry.Eligible (returned : List KeyReturn) (providerId : String)
    (nowMonotonic nowReal : Int) (entry : KeyEntry) : Prop where
  valid : entry.revoked = false
  cool : entry.cooldownExpiry ≤ nowMonotonic
  underQuota : 0 < entry.quota →
    (recent hour nowReal (PoolRun.timesOf returned providerId entry.key)).length < entry.quota

/-- **What `get_key` serves**: it refuses only if no key is eligible, and a key that it returns is
neither revoked nor cooling down, and with this return within its quota. -/
structure PoolRun.Serves (run : PoolRun) (providerId : String) (nowMonotonic nowReal : Int) : Prop where
  refused : (run.getKey providerId nowMonotonic nowReal).2 = none →
    ∀ entry ∈ run.pool.keysOf providerId,
      ¬ entry.Eligible run.returned providerId nowMonotonic nowReal
  returned : ∀ key, (run.getKey providerId nowMonotonic nowReal).2 = some key →
    ∃ entry ∈ run.pool.keysOf providerId, entry.key = key ∧ entry.revoked = false ∧
      entry.cooldownExpiry ≤ nowMonotonic ∧
      (0 < entry.quota → (recent hour nowReal (PoolRun.timesOf
        (run.getKey providerId nowMonotonic nowReal).1.returned providerId key)).length ≤ entry.quota)

/-! ### The record of returns -/

namespace PoolRun

theorem timesOf_concat (returned : List KeyReturn) (event : KeyReturn) (providerId key : String) :
    timesOf (returned ++ [event]) providerId key = timesOf returned providerId key ++
      if event.providerId = providerId ∧ event.key = key then [event.time] else [] := by
  unfold timesOf
  rw [List.filter_append, List.map_append]
  by_cases same : event.providerId = providerId ∧ event.key = key
  · rw [List.filter_singleton, decide_eq_true same, cond_true, if_pos same]
    rfl
  · rw [List.filter_singleton, decide_eq_false same, cond_false, if_neg same]
    rfl

/-- A key that was never returned. -/
theorem timesOf_eq_nil {returned : List KeyReturn} {providerId key : String}
    (never : ∀ event ∈ returned, event.providerId = providerId → event.key ≠ key) :
    timesOf returned providerId key = [] := by
  unfold timesOf
  rw [List.map_eq_nil_iff, List.filter_eq_nil_iff]
  intro event member both
  rw [decide_eq_true_iff] at both
  exact never event member both.1 both.2

end PoolRun

open PoolRun (timesOf)

/-- **The keys of a provider, tracked**: no key occurs twice, the request times of each hold every
return of it in the last hour, and every key returned is still there. -/
structure KeysTracked (returned : List KeyReturn) (nowReal : Int) (providerId : String)
    (keys : List KeyEntry) : Prop where
  distinct : (keys.map (·.key)).Nodup
  keeps : ∀ entry ∈ keys, KeepsRecent hour nowReal entry.requestTimes
    (timesOf returned providerId entry.key)
  present : ∀ event ∈ returned, event.providerId = providerId → event.key ∈ keys.map (·.key)

theorem updateFirst_map {β : Type} (property : KeyEntry → β) (found : KeyEntry → Bool)
    (change : KeyEntry → KeyEntry) (same : ∀ entry, property (change entry) = property entry)
    (keys : List KeyEntry) : (updateFirst found change keys).map property = keys.map property := by
  induction keys with
  | nil => rfl
  | cons entry rest ih =>
    rw [updateFirst]
    split_ifs
    · rw [List.map_cons, List.map_cons, same]
    · rw [List.map_cons, List.map_cons, ih]

namespace KeysTracked

variable {returned : List KeyReturn} {nowReal after : Int} {providerId : String}
  {keys changed : List KeyEntry}

theorem nil (none_ : ∀ event ∈ returned, event.providerId ≠ providerId) :
    KeysTracked returned nowReal providerId [] where
  distinct := List.nodup_nil
  keeps _ member := (List.not_mem_nil member).elim
  present event member same := (none_ event member same).elim

theorem later (tracked : KeysTracked returned nowReal providerId keys) (passed : nowReal ≤ after) :
    KeysTracked returned after providerId keys where
  distinct := tracked.distinct
  keeps entry member := (tracked.keeps entry member).later passed
  present := tracked.present

/-- Whatever leaves the keys and their request times as they are. -/
theorem congr (tracked : KeysTracked returned nowReal providerId keys)
    (same : changed.map (fun entry => (entry.key, entry.requestTimes)) =
      keys.map (fun entry => (entry.key, entry.requestTimes))) :
    KeysTracked returned nowReal providerId changed := by
  have sameKeys : changed.map (·.key) = keys.map (·.key) := by
    have first := congrArg (List.map Prod.fst) same
    rw [List.map_map, List.map_map] at first
    exact first
  refine ⟨sameKeys ▸ tracked.distinct, fun entry member => ?_, sameKeys ▸ tracked.present⟩
  have inside : (entry.key, entry.requestTimes) ∈
      keys.map (fun entry => (entry.key, entry.requestTimes)) := by
    rw [← same]
    exact List.mem_map.mpr ⟨entry, member, rfl⟩
  obtain ⟨old, oldMember, equal⟩ := List.mem_map.mp inside
  obtain ⟨sameKey, sameTimes⟩ := Prod.mk.inj equal
  rw [← sameKey, ← sameTimes]
  exact tracked.keeps old oldMember

theorem update (tracked : KeysTracked returned nowReal providerId keys) (found : KeyEntry → Bool)
    {change : KeyEntry → KeyEntry} (sameKey : ∀ entry, (change entry).key = entry.key)
    (sameTimes : ∀ entry, (change entry).requestTimes = entry.requestTimes) :
    KeysTracked returned nowReal providerId (updateFirst found change keys) := by
  refine tracked.congr (updateFirst_map _ found change ?_ keys)
  intro entry
  rw [sameKey, sameTimes]

/-- A new key. -/
theorem concat (tracked : KeysTracked returned nowReal providerId keys) {entry : KeyEntry}
    (fresh : entry.key ∉ keys.map (·.key)) (unused : entry.requestTimes = []) :
    KeysTracked returned nowReal providerId (keys ++ [entry]) where
  distinct := by
    rw [List.map_append]
    exact List.nodup_append.mpr ⟨tracked.distinct, List.nodup_singleton _, by
      rintro key member _ last rfl
      rw [List.map_singleton, List.mem_singleton] at last
      exact fresh (last ▸ member)⟩
  keeps := by
    refine List.forall_mem_append.mpr ⟨tracked.keeps, ?_⟩
    intro other last
    obtain rfl := List.mem_singleton.mp last
    have never : timesOf returned providerId other.key = [] :=
      PoolRun.timesOf_eq_nil fun event member same isKey =>
        fresh (isKey ▸ tracked.present event member same)
    rw [unused, never]
    exact .refl
  present event member same := by
    rw [List.map_append]
    exact List.mem_append_left _ (tracked.present event member same)

/-- The entry of a key at a place, pruned or not. -/
theorem set (tracked : KeysTracked returned nowReal providerId keys) {index : Nat} {old entry : KeyEntry}
    (found : keys[index]? = some old) (sameKey : entry.key = old.key)
    (keeps : KeepsRecent hour nowReal entry.requestTimes (timesOf returned providerId old.key)) :
    KeysTracked returned nowReal providerId (keys.set index entry) := by
  have sameKeys := map_set_of_same found sameKey
  refine ⟨sameKeys ▸ tracked.distinct, fun other member => ?_, sameKeys ▸ tracked.present⟩
  rcases List.mem_or_eq_of_mem_set member with old | rfl
  · exact tracked.keeps other old
  · rw [sameKey]
    exact keeps

/-- A return of another provider's key. -/
theorem elsewhere (tracked : KeysTracked returned nowReal providerId keys) {event : KeyReturn}
    (other : event.providerId ≠ providerId) :
    KeysTracked (returned ++ [event]) nowReal providerId keys where
  distinct := tracked.distinct
  keeps entry member := by
    rw [PoolRun.timesOf_concat, if_neg fun both => other both.1, List.append_nil]
    exact tracked.keeps entry member
  present := by
    refine List.forall_mem_append.mpr ⟨tracked.present, ?_⟩
    intro last member same
    obtain rfl := List.mem_singleton.mp member
    exact absurd same other

/-- All request times are pruned. -/
theorem pruned (tracked : KeysTracked returned nowReal providerId keys) :
    KeysTracked returned nowReal providerId (keys.map (·.pruned nowReal)) := by
  have sameKeys : (keys.map (·.pruned nowReal)).map (·.key) = keys.map (·.key) := by
    rw [List.map_map]
    rfl
  refine ⟨sameKeys ▸ tracked.distinct, fun entry member => ?_, sameKeys ▸ tracked.present⟩
  obtain ⟨old, inside, rfl⟩ := List.mem_map.mp member
  exact (tracked.keeps old inside).prune

end KeysTracked

/-! ### The search -/

section Search

variable {returned : List KeyReturn} {nowMonotonic nowReal : Int} {providerId : String}
  {keys : List KeyEntry} {candidate : KeyEntry} {index : Nat}

/-- What a look at a key leaves, its request times apart. -/
def KeyEntry.untimed (entry : KeyEntry) : KeyEntry := { entry with requestTimes := [] }

theorem KeyEntry.checked_untimed : (candidate.checked nowReal).untimed = candidate.untimed := by
  unfold KeyEntry.checked
  split_ifs <;> rfl

theorem KeyEntry.key_of_untimed {entry other : KeyEntry} (same : entry.untimed = other.untimed) :
    entry.key = other.key :=
  show entry.untimed.key = other.untimed.key by rw [same]

theorem KeyEntry.Eligible.congr {entry other : KeyEntry} (same : other.untimed = entry.untimed)
    (eligible : entry.Eligible returned providerId nowMonotonic nowReal) :
    other.Eligible returned providerId nowMonotonic nowReal := by
  cases entry
  cases other
  simp only [KeyEntry.untimed, KeyEntry.mk.injEq] at same
  obtain ⟨rfl, rfl, rfl, rfl, -, rfl⟩ := same
  exact ⟨eligible.valid, eligible.cool, eligible.underQuota⟩

/-- The request times that were looked at are those of the last hour. -/
theorem KeyEntry.checked_keeps
    (keeps : KeepsRecent hour nowReal candidate.requestTimes
      (timesOf returned providerId candidate.key)) :
    KeepsRecent hour nowReal (candidate.checked nowReal).requestTimes
        (timesOf returned providerId candidate.key) ∧
      (0 < candidate.quota → (candidate.checked nowReal).requestTimes =
        recent hour nowReal (timesOf returned providerId candidate.key)) := by
  unfold KeyEntry.checked
  split_ifs with limited
  · exact ⟨keeps.prune, fun _ => keeps⟩
  · exact ⟨keeps, fun other => absurd other limited⟩

theorem KeyEntry.checked_key : (candidate.checked nowReal).key = candidate.key := by
  unfold KeyEntry.checked
  split_ifs <;> rfl

theorem KeyEntry.checked_quota : (candidate.checked nowReal).quota = candidate.quota := by
  unfold KeyEntry.checked
  split_ifs <;> rfl

/-- **A return is recorded**, and the key is still tracked. -/
theorem KeysTracked.record (tracked : KeysTracked returned nowReal providerId keys)
    (found : keys[index]? = some candidate) :
    KeysTracked (returned ++ [⟨providerId, candidate.key, nowReal⟩]) nowReal providerId
      (keys.set index ((candidate.checked nowReal).used nowReal)) := by
  have member := List.mem_of_getElem? found
  have sameKey : ((candidate.checked nowReal).used nowReal).key = candidate.key :=
    KeyEntry.checked_key
  have sameKeys := map_set_of_same found sameKey
  refine ⟨sameKeys ▸ tracked.distinct, ?_, ?_⟩
  · intro other inside
    rw [PoolRun.timesOf_concat]
    obtain ⟨place, placed⟩ := List.mem_iff_getElem?.mp inside
    rw [List.getElem?_set] at placed
    split_ifs at placed with here within
    · obtain rfl := Option.some.inj placed
      rw [if_pos ⟨rfl, sameKey.symm⟩, sameKey]
      exact (KeyEntry.checked_keeps (tracked.keeps candidate member)).1.append _
    · -- Another entry has another key, so that this return is none of its own.
      have apart : candidate.key ≠ other.key := by
        intro same
        have inRange : index < (keys.map (·.key)).length := by
          rw [List.length_map]
          exact (List.getElem?_eq_some_iff.mp found).1
        apply here
        apply (List.getElem?_inj inRange tracked.distinct).mp
        rw [List.getElem?_map, List.getElem?_map, found, placed, Option.map_some, Option.map_some, same]
      rw [if_neg fun both => apart both.2, List.append_nil]
      exact tracked.keeps other (List.mem_of_getElem? placed)
  · rw [sameKeys]
    refine List.forall_mem_append.mpr ⟨tracked.present, ?_⟩
    intro event last _
    obtain rfl := List.mem_singleton.mp last
    exact List.mem_map.mpr ⟨candidate, member, rfl⟩

/-- With this return, a key that was under its quota is within it. -/
theorem KeyEntry.Eligible.within (eligible : candidate.Eligible returned providerId nowMonotonic nowReal)
    (limited : 0 < candidate.quota) :
    (recent hour nowReal (timesOf (returned ++ [⟨providerId, candidate.key, nowReal⟩]) providerId
      candidate.key)).length ≤ candidate.quota := by
  have under := eligible.underQuota limited
  rw [PoolRun.timesOf_concat, if_pos ⟨rfl, rfl⟩, KeepsRecent.refl.length_concat (by decide)]
  omega

/-- What a search finds. -/
inductive Search (returned : List KeyReturn) (providerId : String) (nowMonotonic nowReal : Int)
    (keys : List KeyEntry) (indices : List Nat) : List KeyEntry × Option (Nat × String) → Prop
  | refused {changed : List KeyEntry} : KeysTracked returned nowReal providerId changed →
    (∀ index ∈ indices, ∀ entry, keys[index]? = some entry →
      ¬ entry.Eligible returned providerId nowMonotonic nowReal) →
    Search returned providerId nowMonotonic nowReal keys indices (changed, none)
  | found {changed : List KeyEntry} {entry : KeyEntry} {index : Nat} : entry ∈ keys →
    entry.Eligible returned providerId nowMonotonic nowReal →
    KeysTracked (returned ++ [⟨providerId, entry.key, nowReal⟩]) nowReal providerId changed →
    Search returned providerId nowMonotonic nowReal keys indices (changed, some (index, entry.key))

namespace Search

variable {indices : List Nat} {result : List KeyEntry × Option (Nat × String)}

/-- A candidate that is not eligible is passed over. -/
theorem skip (unfit : ¬ candidate.Eligible returned providerId nowMonotonic nowReal)
    (here : keys[index]? = some candidate)
    (search : Search returned providerId nowMonotonic nowReal keys indices result) :
    Search returned providerId nowMonotonic nowReal keys (index :: indices) result := by
  cases search with
  | refused tracked none_ =>
    refine .refused tracked (List.forall_mem_cons.mpr ⟨fun entry placed => ?_, none_⟩)
    rw [here] at placed
    obtain rfl := Option.some.inj placed
    exact unfit
  | found member eligible tracked => exact .found member eligible tracked

/-- Pruned request times make no difference to what is eligible. -/
theorem untimed {entry : KeyEntry} (here : keys[index]? = some candidate)
    (same : entry.untimed = candidate.untimed)
    (search : Search returned providerId nowMonotonic nowReal (keys.set index entry) indices result) :
    Search returned providerId nowMonotonic nowReal keys indices result := by
  cases search with
  | refused tracked none_ =>
    refine .refused tracked fun place member other placed eligible => ?_
    have corresponding : ((keys.set index entry).map (·.untimed))[place]? = some other.untimed := by
      rw [map_set_of_same here same, List.getElem?_map, placed, Option.map_some]
    rw [List.getElem?_map, Option.map_eq_some_iff] at corresponding
    obtain ⟨changed, placedChanged, sameChanged⟩ := corresponding
    exact none_ place member changed placedChanged (eligible.congr sameChanged)
  | found member eligible tracked =>
    rcases List.mem_or_eq_of_mem_set member with old | rfl
    · exact .found old eligible tracked
    · rw [KeyEntry.key_of_untimed same] at tracked ⊢
      exact .found (List.mem_of_getElem? here) (eligible.congr same.symm) tracked

end Search

/-- **The loop of `get_key`.** -/
theorem tryCandidates_search (nowMonotonic : Int) (indices : List Nat) : ∀ {keys : List KeyEntry},
    KeysTracked returned nowReal providerId keys → (∀ index ∈ indices, index < keys.length) →
    Search returned providerId nowMonotonic nowReal keys indices
      (tryCandidates nowMonotonic nowReal keys indices) := by
  induction indices with
  | nil =>
    intro keys tracked _
    exact .refused tracked fun index member => (List.not_mem_nil member).elim
  | cons index rest ih =>
    intro keys tracked inRange
    obtain ⟨within, later⟩ := List.forall_mem_cons.mp inRange
    have found := List.getElem?_eq_getElem within
    have member := List.mem_of_getElem? found
    generalize keys[index] = candidate at found member
    obtain ⟨keeps, times⟩ := KeyEntry.checked_keeps (tracked.keeps candidate member)
    rw [tryCandidates, found]
    dsimp only
    split_ifs with revoked cooling exhausted
    · refine .skip (fun eligible => ?_) found (ih tracked later)
      rw [eligible.valid] at revoked
      cases revoked
    · exact .skip (fun eligible => absurd cooling (Int.not_lt.mpr eligible.cool)) found
        (ih tracked later)
    · have search := ih (tracked.set found KeyEntry.checked_key keeps) (by simpa using later)
      refine .skip (fun eligible => ?_) found (search.untimed found KeyEntry.checked_untimed)
      rw [KeyEntry.checked_quota] at exhausted
      rw [times exhausted.1] at exhausted
      have under := eligible.underQuota exhausted.1
      omega
    · rw [KeyEntry.checked_key]
      refine .found member ⟨by simpa using revoked, Int.not_lt.mp cooling, fun limited => ?_⟩
        (tracked.record found)
      rw [KeyEntry.checked_quota, not_and] at exhausted
      have under := exhausted limited
      rw [times limited] at under
      omega

end Search

/-! ### The operations -/

namespace KeyPool

theorem keysOf_set (pool : KeyPool) (providerId other : String) (keys : List KeyEntry)
    (indices : Dict String Nat) :
    KeyPool.keysOf { keyDb := pool.keyDb.set providerId keys, indices } other =
      if other = providerId then keys else pool.keysOf other := by
  unfold keysOf
  rw [Dict.get?_set]
  split_ifs <;> rfl

theorem keysOf_withKeys (pool : KeyPool) (providerId other : String)
    {change : List KeyEntry → List KeyEntry} (nothing : change [] = []) :
    (pool.withKeys providerId change).keysOf other =
      if other = providerId then change (pool.keysOf providerId) else pool.keysOf other := by
  unfold withKeys
  split
  · rename_i none_
    split_ifs with same
    · rw [same, keysOf, none_]
      exact nothing.symm
    · rfl
  · rename_i keys found
    have known : pool.keysOf providerId = keys := by
      rw [keysOf, found]
      rfl
    rw [keysOf_set, known]

end KeyPool

/-- **What holds in every run**: the keys of every provider are tracked. -/
def PoolRun.Kept (run : PoolRun) : Prop :=
  ∀ providerId, KeysTracked run.returned run.nowReal providerId (run.pool.keysOf providerId)

namespace PoolRun.Kept

variable {run : PoolRun} {nowMonotonic nowReal : Int}

theorem tick (kept : run.Kept) (passed : run.nowReal ≤ nowReal) :
    PoolRun.Kept { run with nowMonotonic, nowReal } :=
  fun providerId => (kept providerId).later passed

/-- The keys of one provider are changed. -/
theorem setKeys (kept : run.Kept) (providerId : String) {keys : List KeyEntry}
    {indices : Dict String Nat} (tracked : KeysTracked run.returned run.nowReal providerId keys) :
    PoolRun.Kept { run with pool := { keyDb := run.pool.keyDb.set providerId keys, indices } } := by
  intro other
  show KeysTracked run.returned run.nowReal other (KeyPool.keysOf _ other)
  rw [KeyPool.keysOf_set]
  split_ifs with same
  · rw [same]
    exact tracked
  · exact kept other

/-- One key of a provider is changed, not its request times. -/
theorem update (kept : run.Kept) (providerId : String) (found : KeyEntry → Bool)
    {change : KeyEntry → KeyEntry} (sameKey : ∀ entry, (change entry).key = entry.key)
    (sameTimes : ∀ entry, (change entry).requestTimes = entry.requestTimes) :
    PoolRun.Kept { run with pool := run.pool.withKeys providerId (updateFirst found change) } := by
  intro other
  show KeysTracked run.returned run.nowReal other (KeyPool.keysOf _ other)
  rw [KeyPool.keysOf_withKeys _ _ _ rfl]
  split_ifs with same
  · rw [same]
    exact (kept providerId).update found sameKey sameTimes
  · exact kept other

theorem addKey (kept : run.Kept) (providerId key : String) (keyAlias : Option String) (quota : Int)
    (revoked : Bool) :
    PoolRun.Kept { run with pool := run.pool.addKey providerId key keyAlias quota revoked } := by
  refine kept.setKeys providerId ?_
  split
  · exact (kept providerId).update _ (fun _ => rfl) fun _ => rfl
  · rename_i absent
    refine (kept providerId).concat (fun member => absurd ?_ absent) rfl
    obtain ⟨entry, inside, same⟩ := List.mem_map.mp member
    exact List.any_eq_true.mpr ⟨entry, inside, by simpa using same⟩

theorem isOnCooldown (kept : run.Kept) (providerId key : String) :
    PoolRun.Kept { run with pool := (run.pool.isOnCooldown providerId key nowMonotonic).1 } := by
  unfold KeyPool.isOnCooldown
  split
  · exact kept
  · split_ifs
    · exact kept
    · exact kept.update providerId _ (fun _ => rfl) fun _ => rfl

theorem getAllKeysStatus (kept : run.Kept) (hash : String → Int) :
    PoolRun.Kept { run with
      pool := (run.pool.getAllKeysStatus hash nowMonotonic run.nowReal).1 } := by
  intro providerId
  have keys : (run.pool.getAllKeysStatus hash nowMonotonic run.nowReal).1.keysOf providerId =
      (run.pool.keysOf providerId).map (·.pruned run.nowReal) := by
    show ((run.pool.keyDb.mapValues fun _ keys => keys.map (·.pruned run.nowReal)).get? _).getD [] = _
    rw [Dict.get?_mapValues]
    unfold KeyPool.keysOf
    cases run.pool.keyDb.get? providerId <;> rfl
  show KeysTracked run.returned run.nowReal providerId (KeyPool.keysOf _ providerId)
  rw [keys]
  exact (kept providerId).pruned

end PoolRun.Kept

/-- Every key of a provider is tried. -/
theorem mem_rotation (startIdx n place : Nat) (within : place < n) :
    place ∈ (List.range n).map fun i => (startIdx + i) % n := by
  obtain ⟨before, after, split, -⟩ := circularFrom_split startIdx within
  rw [circularFrom] at split
  rw [split]
  exact List.mem_append_right before List.mem_cons_self

/-- **`get_key`** tracks what it serves. -/
structure KeyPool.Answers (returned : List KeyReturn) (providerId : String)
    (nowMonotonic nowReal : Int) (pool next : KeyPool) (answer : Option String) : Prop where
  others : ∀ other, other ≠ providerId → next.keysOf other = pool.keysOf other
  refused : answer = none → KeysTracked returned nowReal providerId (next.keysOf providerId) ∧
    ∀ entry ∈ pool.keysOf providerId, ¬ entry.Eligible returned providerId nowMonotonic nowReal
  found : ∀ key, answer = some key →
    KeysTracked (returned ++ [⟨providerId, key, nowReal⟩]) nowReal providerId (next.keysOf providerId) ∧
    ∃ entry ∈ pool.keysOf providerId, entry.key = key ∧
      entry.Eligible returned providerId nowMonotonic nowReal

theorem KeyPool.getKey_answers {returned : List KeyReturn} {nowReal : Int} {pool : KeyPool}
    {providerId : String} (nowMonotonic : Int)
    (tracked : KeysTracked returned nowReal providerId (pool.keysOf providerId)) :
    KeyPool.Answers returned providerId nowMonotonic nowReal pool
      (pool.getKey providerId nowMonotonic nowReal).1
      (pool.getKey providerId nowMonotonic nowReal).2 := by
  have empty : pool.keysOf providerId = [] →
      KeyPool.Answers returned providerId nowMonotonic nowReal pool pool none := by
    intro nothing
    refine ⟨fun _ _ => rfl, fun _ => ⟨tracked, ?_⟩, fun key some_ => by cases some_⟩
    rw [nothing]
    exact fun entry member => (List.not_mem_nil member).elim
  unfold KeyPool.getKey
  split
  · rename_i nothing
    apply empty
    rw [KeyPool.keysOf, nothing]
    rfl
  · rename_i nothing
    apply empty
    rw [KeyPool.keysOf, nothing]
    rfl
  · rename_i keys _ known
    have keysOf : pool.keysOf providerId = keys := by
      rw [KeyPool.keysOf, known]
      rfl
    rw [keysOf] at tracked
    have search := tryCandidates_search nowMonotonic
      ((List.range keys.length).map fun i => ((pool.indices.get? providerId).getD 0 + i) % keys.length)
      tracked (by
        intro place member
        obtain ⟨step, inRange, rfl⟩ := List.mem_map.mp member
        exact Nat.mod_lt _ (Nat.zero_lt_of_lt (List.mem_range.mp inRange)))
    dsimp only
    split
    · rename_i changed same
      rw [same] at search
      cases search with
      | refused after none_ =>
        refine ⟨fun other different => ?_, fun _ => ⟨?_, ?_⟩, fun key some_ => by cases some_⟩
        · rw [KeyPool.keysOf_set, if_neg different]
        · rw [KeyPool.keysOf_set, if_pos rfl]
          exact after
        · rw [keysOf]
          intro entry member
          obtain ⟨place, placed⟩ := List.mem_iff_getElem?.mp member
          exact none_ place (mem_rotation _ _ _ (List.getElem?_eq_some_iff.mp placed).1) entry placed
    · rename_i changed index key same
      rw [same] at search
      cases search with
      | found member eligible after =>
        refine ⟨fun other different => ?_, fun none_ => (by cases none_), fun key some_ => ?_⟩
        · rw [KeyPool.keysOf_set, if_neg different]
        · obtain rfl := Option.some.inj some_
          rw [KeyPool.keysOf_set, if_pos rfl, keysOf]
          exact ⟨after, _, member, rfl, eligible⟩

namespace PoolRun.Kept

variable {run : PoolRun} {nowMonotonic nowReal : Int}

/-- **`get_key`**: what is served, and that its return is recorded. -/
theorem getKey (kept : run.Kept) (providerId : String) (passed : run.nowReal ≤ nowReal) :
    (run.getKey providerId nowMonotonic nowReal).1.Kept ∧
      run.Serves providerId nowMonotonic nowReal := by
  have later : ∀ other, KeysTracked run.returned nowReal other (run.pool.keysOf other) :=
    fun other => (kept other).later passed
  have answers := KeyPool.getKey_answers nowMonotonic (later providerId)
  have next : (run.getKey providerId nowMonotonic nowReal).1.pool =
      (run.pool.getKey providerId nowMonotonic nowReal).1 := rfl
  have answer : (run.getKey providerId nowMonotonic nowReal).2 =
      (run.pool.getKey providerId nowMonotonic nowReal).2 := rfl
  have record : (run.getKey providerId nowMonotonic nowReal).1.returned = run.returned ++
      ((run.pool.getKey providerId nowMonotonic nowReal).2.map
        fun key => ⟨providerId, key, nowReal⟩).toList := rfl
  constructor
  · intro other
    rw [record, next]
    show KeysTracked _ nowReal other _
    cases found : (run.pool.getKey providerId nowMonotonic nowReal).2 with
    | none =>
      rw [Option.map_none, Option.toList_none, List.append_nil]
      by_cases same : other = providerId
      · rw [same]
        exact (answers.refused found).1
      · rw [answers.others other same]
        exact later other
    | some key =>
      rw [Option.map_some, Option.toList_some]
      by_cases same : other = providerId
      · rw [same]
        exact (answers.found key found).1
      · rw [answers.others other same]
        exact (later other).elsewhere (Ne.symm same)
  · refine ⟨fun none_ => (answers.refused none_).2, fun key found => ?_⟩
    obtain ⟨entry, member, rfl, eligible⟩ := (answers.found key found).2
    refine ⟨entry, member, rfl, eligible.valid, eligible.cool, fun limited => ?_⟩
    rw [record, ← answer, found]
    exact eligible.within limited

variable {hash : String → Int}

theorem step (kept : run.Kept) {action : PoolAction} {next : PoolRun}
    (stepped : run.step hash action = some next) : next.Kept := by
  cases action with
  | addKey providerId key keyAlias quota revoked =>
    obtain rfl := Option.some.inj stepped
    exact kept.addKey providerId key keyAlias quota revoked
  | getKey providerId nowMonotonic nowReal =>
    obtain ⟨⟨-, passed⟩, same⟩ := Option.ite_none_right_eq_some.mp stepped
    obtain rfl := Option.some.inj same
    exact (kept.getKey providerId passed).1
  | report429 providerId key cooldownDuration nowMonotonic =>
    obtain ⟨-, same⟩ := Option.ite_none_right_eq_some.mp stepped
    obtain rfl := Option.some.inj same
    exact kept.update providerId _ (fun _ => rfl) fun _ => rfl
  | reportSuccess providerId key =>
    obtain rfl := Option.some.inj stepped
    exact kept.update providerId _ (fun _ => rfl) fun _ => rfl
  | isOnCooldown providerId key nowMonotonic =>
    obtain ⟨-, same⟩ := Option.ite_none_right_eq_some.mp stepped
    obtain rfl := Option.some.inj same
    exact kept.isOnCooldown providerId key
  | getAllKeysStatus nowMonotonic nowReal =>
    obtain ⟨⟨-, passed⟩, same⟩ := Option.ite_none_right_eq_some.mp stepped
    obtain rfl := Option.some.inj same
    exact (kept.tick passed).getAllKeysStatus hash
  | toggleRevokeKey providerId keyHash =>
    obtain rfl := Option.some.inj stepped
    exact kept.update providerId _ (fun _ => rfl) fun _ => rfl
  | updateKeyMeta providerId keyHash keyAlias quota =>
    obtain rfl := Option.some.inj stepped
    exact kept.update providerId _ (fun _ => rfl) fun _ => rfl

end PoolRun.Kept

theorem kept_of_poolMachine {hash : String → Int} {run : PoolRun}
    (reached : (poolMachine hash).Reachable Machine.unguarded run) : run.Kept := by
  refine Machine.Reachable.invariant ?_ ?_ reached
  · intro run start providerId
    rw [start]
    exact .nil fun event member => (List.not_mem_nil member).elim
  · intro run action next kept _ stepped
    exact kept.step stepped

/-! ### What the operations do to a key -/

/-- Where at most one entry meets the condition, it is the one that is changed. -/
theorem updateFirst_eq_map {found : KeyEntry → Bool} (change : KeyEntry → KeyEntry)
    {keys : List KeyEntry}
    (single : keys.Pairwise fun first second => found first = true → found second = false) :
    updateFirst found change keys =
      keys.map fun entry => if found entry then change entry else entry := by
  induction keys with
  | nil => rfl
  | cons entry rest ih =>
    obtain ⟨apart, single⟩ := List.pairwise_cons.mp single
    rw [updateFirst, List.map_cons]
    split_ifs with here
    · congr 1
      refine (List.map_id rest).symm.trans (List.map_congr_left fun other member => ?_)
      rw [apart other member here]
      rfl
    · rw [ih single]

section Operations

variable {hash : String → Int} {run : PoolRun} {providerId key : String} {nowMonotonic nowReal : Int}

/-- **An operation on one key of a provider**, which it knows by a mark that no other key has. -/
theorem PoolRun.Kept.keysOf_update {μ : Type} [DecidableEq μ] (kept : run.Kept) (mark : String → μ)
    (change : KeyEntry → KeyEntry)
    (known : ∀ other ∈ run.pool.keysOf providerId, mark other.key = mark key → other.key = key) :
    (run.pool.withKeys providerId
        (updateFirst (fun other => mark other.key = mark key) change)).keysOf providerId =
      (run.pool.keysOf providerId).map fun other =>
        if other.key = key then change other else other := by
  rw [KeyPool.keysOf_withKeys _ _ _ rfl, if_pos rfl, updateFirst_eq_map]
  · refine List.map_congr_left fun other inside => ?_
    have same : mark other.key = mark key ↔ other.key = key := ⟨known other inside, congrArg mark⟩
    simp only [same, decide_eq_true_eq]
  · have distinct := (kept providerId).distinct
    rw [List.Nodup, List.pairwise_map] at distinct
    refine distinct.imp_of_mem fun {first second} isThere isThereToo apart isFirst => ?_
    rw [decide_eq_true_eq] at isFirst
    rw [decide_eq_false_iff_not]
    intro isSecond
    exact apart ((known first isThere isFirst).trans (known second isThereToo isSecond).symm)

/-- A key that `get_key` returns afterwards is as the operation left it. -/
theorem PoolRun.Kept.served_of_update (kept : run.Kept) (change : KeyEntry → KeyEntry)
    (sameKey : ∀ other, (change other).key = other.key)
    (sameTimes : ∀ other, (change other).requestTimes = other.requestTimes)
    (found : KeyEntry → Bool)
    (updated : (run.pool.withKeys providerId (updateFirst found change)).keysOf providerId =
      (run.pool.keysOf providerId).map fun other => if other.key = key then change other else other)
    (passed : run.nowReal ≤ nowReal)
    (served : (PoolRun.getKey
      { run with pool := run.pool.withKeys providerId (updateFirst found change) }
      providerId nowMonotonic nowReal).2 = some key) :
    ∃ old ∈ run.pool.keysOf providerId, old.key = key ∧ (change old).revoked = false ∧
      (change old).cooldownExpiry ≤ nowMonotonic ∧
      (0 < (change old).quota → (recent hour nowReal (timesOf (PoolRun.getKey
        { run with pool := run.pool.withKeys providerId (updateFirst found change) }
        providerId nowMonotonic nowReal).1.returned providerId key)).length ≤ (change old).quota) := by
  have keptOn := kept.update providerId found sameKey sameTimes
  obtain ⟨now, inside, isKey, valid, cool, within⟩ :=
    (keptOn.getKey providerId passed).2.returned _ served
  replace inside : now ∈
      (run.pool.withKeys providerId (updateFirst found change)).keysOf providerId := inside
  rw [updated] at inside
  obtain ⟨old, member, rfl⟩ := List.mem_map.mp inside
  have same : old.key = key := by
    split_ifs at isKey with same
    · exact same
    · exact isKey
  rw [if_pos same] at valid cool within
  exact ⟨old, member, same, valid, cool, within⟩

/-- **`report_429` starts the cooldown**: the key is not returned before it is over. -/
theorem report429_rests (reached : (poolMachine hash).Reachable Machine.unguarded run)
    (cooldownDuration reported : Int) (cooling : nowMonotonic < reported + cooldownDuration)
    (passed : run.nowReal ≤ nowReal) :
    (PoolRun.getKey
      { run with pool := run.pool.report429 providerId key cooldownDuration reported }
      providerId nowMonotonic nowReal).2 ≠ some key := by
  intro served
  have kept := kept_of_poolMachine reached
  obtain ⟨old, -, -, -, cool, -⟩ := kept.served_of_update
    (fun entry => { entry with cooldownExpiry := reported + cooldownDuration }) (fun _ => rfl)
    (fun _ => rfl) _ (kept.keysOf_update id _ fun _ _ => id) passed served
  exact absurd cooling (Int.not_lt.mpr cool)

/-- **`toggle_revoke_key` revokes**: a key that was not revoked is not returned after it. The keys of
the provider are told apart by their hashes. -/
theorem toggleRevokeKey_revokes (reached : (poolMachine hash).Reachable Machine.unguarded run)
    {entry : KeyEntry} (member : entry ∈ run.pool.keysOf providerId) (valid : entry.revoked = false)
    (known : ∀ other ∈ run.pool.keysOf providerId, hash other.key = hash entry.key →
      other.key = entry.key) (passed : run.nowReal ≤ nowReal) :
    (PoolRun.getKey { run with pool := run.pool.toggleRevokeKey hash providerId (hash entry.key) }
      providerId nowMonotonic nowReal).2 ≠ some entry.key := by
  intro served
  have kept := kept_of_poolMachine reached
  obtain ⟨old, inside, same, revoked, -⟩ := kept.served_of_update
    (fun entry => { entry with revoked := !entry.revoked }) (fun _ => rfl) (fun _ => rfl) _
    (kept.keysOf_update hash _ known) passed served
  obtain rfl := List.inj_on_of_nodup_map (kept providerId).distinct inside member same
  rw [valid] at revoked
  cases revoked

/-- **`update_key_meta` sets the quota**: a key that is returned is within the one it was given. -/
theorem updateKeyMeta_limits (reached : (poolMachine hash).Reachable Machine.unguarded run)
    (keyAlias : String) {quota : Int} (limited : 0 < quota)
    (known : ∀ other ∈ run.pool.keysOf providerId, hash other.key = hash key → other.key = key)
    (passed : run.nowReal ≤ nowReal)
    (served : (PoolRun.getKey
      { run with pool := run.pool.updateKeyMeta hash providerId (hash key) keyAlias quota }
      providerId nowMonotonic nowReal).2 = some key) :
    (recent hour nowReal (timesOf (PoolRun.getKey
      { run with pool := run.pool.updateKeyMeta hash providerId (hash key) keyAlias quota }
      providerId nowMonotonic nowReal).1.returned providerId key)).length ≤ quota := by
  have kept := kept_of_poolMachine reached
  obtain ⟨old, -, -, -, -, within⟩ := kept.served_of_update
    (fun entry => { entry with keyAlias, quota }) (fun _ => rfl) (fun _ => rfl) _
    (kept.keysOf_update hash _ known) passed served
  exact within limited

end Operations

/-- **Eligibility and quota.** In every run of a pool that loses no key, `get_key` refuses only if no
key of the provider is eligible, and a key that it returns is neither revoked nor cooling down, and
was returned no more often within the last hour, this return included, than a positive quota says. -/
theorem serves_of_reachable (hash : String → Int) {run : PoolRun}
    (reached : (poolMachine hash).Reachable Machine.unguarded run) (providerId : String)
    {nowMonotonic nowReal : Int} (passed : run.nowReal ≤ nowReal) :
    run.Serves providerId nowMonotonic nowReal :=
  ((kept_of_poolMachine reached).getKey providerId passed).2

/-- A key with a quota of two, and three requests in a row. -/
def quotaOfTwo : List PoolAction :=
  [.addKey "nim" "nvapi-key" none 2 false, .getKey "nim" 0 0, .getKey "nim" 1 1]

theorem quotaOfTwo_is_served : ∃ run, (poolMachine fun _ => 0).run ⟨{}, 0, 0, []⟩ quotaOfTwo = some run ∧
    run.returned = [⟨"nim", "nvapi-key", 0⟩, ⟨"nim", "nvapi-key", 1⟩] ∧
    (run.getKey "nim" 2 2).2 = none ∧ run.Serves "nim" 2 2 := by
  have shape : ((poolMachine fun _ => 0).run ⟨{}, 0, 0, []⟩ quotaOfTwo).map
      (fun run => (run.returned, (run.getKey "nim" 2 2).2, run.nowReal)) =
      some ([⟨"nim", "nvapi-key", 0⟩, ⟨"nim", "nvapi-key", 1⟩], none, 1) := by
    decide +kernel
  obtain ⟨run, ran, same⟩ := Option.map_eq_some_iff.mp shape
  obtain ⟨returned, answer, now⟩ : run.returned = _ ∧ (run.getKey "nim" 2 2).2 = none ∧
      run.nowReal = 1 := by
    simpa only [Prod.mk.injEq] using same
  have reached := Machine.reachable_of_run_unguarded quotaOfTwo rfl ran
  exact ⟨run, ran, returned, answer, serves_of_reachable _ reached "nim" (by rw [now]; decide)⟩

end ClaudeProxy
