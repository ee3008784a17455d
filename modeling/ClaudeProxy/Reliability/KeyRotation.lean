/-
**The rotation of the key pool** (`KeyPool.get_key`, `remove_key` and `remove_key_by_hash` of
`core/reliability/key_pool.py`).

* `KeyPool.operate` — every operation that loses no key, at any times; `KeyPool.change` — those, and the
  two that remove a key.
* `callsOf` — the calls of `get_key` for a provider in a run, each with the pool that it found, the times
  that it read and its answer.
* `KeyEntry.Available` — what `get_key` looks for: not revoked, not on cooldown, under its quota.
* `GoesRound` — between two successive returns of a key every other key that was available all the
  while is returned.
* **`goesRound_of_run`** — so it is from any pool on, as long as no key is added or removed.
-/

import ClaudeProxy.Reliability.KeyPool

namespace ClaudeProxy

/-! ### Every operation -/

namespace KeyPool

/-- A provider without keys has no entry. -/
def dropEmpty (pool : KeyPool) (providerId : String) : KeyPool :=
  match pool.keyDb.get? providerId with
  | some [] => { keyDb := pool.keyDb.erase providerId, indices := pool.indices.erase providerId }
  | _ => pool

/-- `remove_key`. -/
def removeKey (pool : KeyPool) (providerId key : String) : KeyPool :=
  (pool.withKeys providerId fun keys => keys.filter (·.key ≠ key)).dropEmpty providerId

variable (hash : String → Int)

/-- `remove_key_by_hash`. -/
def removeKeyByHash (pool : KeyPool) (providerId : String) (keyHash : Int) : KeyPool :=
  (pool.withKeys providerId fun keys => keys.eraseP (hash ·.key = keyHash)).dropEmpty providerId

/-- An operation that loses no key, and what `get_key` answered. -/
def operate (pool : KeyPool) : PoolAction → KeyPool × Option String
  | .addKey providerId key keyAlias quota revoked =>
    (pool.addKey providerId key keyAlias quota revoked, none)
  | .getKey providerId nowMonotonic nowReal => pool.getKey providerId nowMonotonic nowReal
  | .report429 providerId key cooldownDuration nowMonotonic =>
    (pool.report429 providerId key cooldownDuration nowMonotonic, none)
  | .reportSuccess providerId key => (pool.reportSuccess providerId key, none)
  | .isOnCooldown providerId key nowMonotonic =>
    ((pool.isOnCooldown providerId key nowMonotonic).1, none)
  | .getAllKeysStatus nowMonotonic nowReal =>
    ((pool.getAllKeysStatus hash nowMonotonic nowReal).1, none)
  | .toggleRevokeKey providerId keyHash => (pool.toggleRevokeKey hash providerId keyHash, none)
  | .updateKeyMeta providerId keyHash keyAlias quota =>
    (pool.updateKeyMeta hash providerId keyHash keyAlias quota, none)

end KeyPool

inductive PoolChange where
  | operate (action : PoolAction)
  | removeKey (providerId key : String)
  | removeKeyByHash (providerId : String) (keyHash : Int)

def KeyPool.change (hash : String → Int) (pool : KeyPool) : PoolChange → KeyPool
  | .operate action => (pool.operate hash action).1
  | .removeKey providerId key => pool.removeKey providerId key
  | .removeKeyByHash providerId keyHash => pool.removeKeyByHash hash providerId keyHash

/-- The pool after so many changes. -/
def KeyPool.after (hash : String → Int) (changes : List PoolChange) : KeyPool :=
  changes.foldl (KeyPool.change hash) {}

/-- The operations that add no key. -/
def PoolAction.KeepsKeys : PoolAction → Prop
  | .addKey .. => False
  | _ => True

/-! ### What is asked -/

/-- A key that is neither revoked nor on cooldown, and under its quota by its request times. -/
structure KeyEntry.Available (nowMonotonic nowReal : Int) (entry : KeyEntry) : Prop where
  valid : entry.revoked = false
  cool : entry.cooldownExpiry ≤ nowMonotonic
  underQuota : 0 < entry.quota → (recent hour nowReal entry.requestTimes).length < entry.quota

/-- A call of `get_key`: the pool that it found, the times that it read and its answer. -/
structure KeyCall where
  pool : KeyPool
  nowMonotonic : Int
  nowReal : Int
  answer : Option String

/-- The calls of `get_key` for a provider, one after another. -/
def callsOf (hash : String → Int) (providerId : String) (pool : KeyPool) : List PoolAction → List KeyCall
  | [] => []
  | action :: rest =>
    let (next, answer) := pool.operate hash action
    match action with
    | .getKey provider nowMonotonic nowReal =>
      if provider = providerId then
        ⟨pool, nowMonotonic, nowReal, answer⟩ :: callsOf hash providerId next rest
      else callsOf hash providerId next rest
    | _ => callsOf hash providerId next rest

/-- A key was available when a call was made. -/
def KeyCall.Finds (providerId key : String) (call : KeyCall) : Prop :=
  ∃ entry ∈ call.pool.keysOf providerId, entry.key = key ∧
    entry.Available call.nowMonotonic call.nowReal

/-- **Round-robin**: between two successive returns of a key, every other key that was available at every
call behind the first return up to the second is returned. -/
def GoesRound (providerId : String) (calls : List KeyCall) : Prop :=
  ∀ before first between second after key other,
    calls = before ++ first :: between ++ second :: after →
    first.answer = some key → second.answer = some key →
    (∀ call ∈ between, call.answer ≠ some key) → other ≠ key →
    (∀ call ∈ between ++ [second], call.Finds providerId other) →
    ∃ call ∈ between, call.answer = some other

/-! ### The search -/

section Search

variable {nowMonotonic nowReal : Int} {keys : List KeyEntry}

theorem KeyEntry.Available.checked {entry : KeyEntry} (available : entry.Available nowMonotonic nowReal) :
    (entry.checked nowReal).Available nowMonotonic nowReal := by
  unfold KeyEntry.checked
  split_ifs
  · refine ⟨available.valid, available.cool, fun limited => ?_⟩
    rw [KeyEntry.pruned, recent_recent (Int.le_refl nowReal)]
    exact available.underQuota limited
  · exact available

/-- What the search returns is a key at one of its places, and it changes no key. -/
theorem tryCandidates_keys (nowMonotonic nowReal : Int) (indices : List Nat) (keys : List KeyEntry) :
    (tryCandidates nowMonotonic nowReal keys indices).1.map (·.key) = keys.map (·.key) ∧
      ∀ index key, (tryCandidates nowMonotonic nowReal keys indices).2 = some (index, key) →
        index ∈ indices ∧ (keys.map (·.key))[index]? = some key := by
  induction indices generalizing keys with
  | nil => exact ⟨rfl, fun _ _ found => by cases found⟩
  | cons place rest ih =>
    rw [tryCandidates]
    cases here : keys[place]? with
    | none => exact ⟨rfl, fun _ _ found => by cases found⟩
    | some candidate =>
      have passed : ∀ changed : List KeyEntry, changed.map (·.key) = keys.map (·.key) →
          (tryCandidates nowMonotonic nowReal changed rest).1.map (·.key) = keys.map (·.key) ∧
          ∀ index key, (tryCandidates nowMonotonic nowReal changed rest).2 = some (index, key) →
            index ∈ place :: rest ∧ (keys.map (·.key))[index]? = some key := by
        intro changed same
        obtain ⟨unchanged, later⟩ := ih changed
        refine ⟨unchanged.trans same, fun index key found => ?_⟩
        obtain ⟨member, known⟩ := later index key found
        exact ⟨List.mem_cons_of_mem _ member, same ▸ known⟩
      dsimp only
      split_ifs
      · exact passed keys rfl
      · exact passed keys rfl
      · exact passed _ (map_set_of_same here KeyEntry.checked_key)
      · refine ⟨map_set_of_same here KeyEntry.checked_key, fun index key found => ?_⟩
        obtain ⟨rfl, rfl⟩ := Prod.mk.inj (Option.some.inj found)
        refine ⟨List.mem_cons_self, ?_⟩
        rw [List.getElem?_map, here, Option.map_some, KeyEntry.checked_key]

/-- **The search goes no further than the first available key.** -/
theorem tryCandidates_stops {place : Nat} {before : List Nat} (after : List Nat)
    (inRange : ∀ index ∈ before, index < keys.length)
    (here : ∃ entry, keys[place]? = some entry ∧ entry.Available nowMonotonic nowReal) :
    ∃ index key, (tryCandidates nowMonotonic nowReal keys (before ++ place :: after)).2 =
      some (index, key) ∧ index ∈ before ++ [place] := by
  induction before generalizing keys with
  | nil =>
    obtain ⟨entry, placed, available⟩ := here
    refine ⟨place, (entry.checked nowReal).key, ?_, List.mem_singleton_self place⟩
    have under : ¬ (0 < (entry.checked nowReal).quota ∧
        (entry.checked nowReal).quota ≤ (entry.checked nowReal).requestTimes.length) := by
      rw [KeyEntry.checked_quota]
      rintro ⟨limited, exhausted⟩
      rw [KeyEntry.checked, if_pos limited] at exhausted
      exact absurd (available.underQuota limited) (Int.not_lt.mpr exhausted)
    rw [List.nil_append, tryCandidates, placed]
    dsimp only
    rw [if_neg (by rw [available.valid]; exact Bool.false_ne_true),
      if_neg (Int.not_lt.mpr available.cool), if_neg under]
  | cons first rest ih =>
    obtain ⟨within, later⟩ := List.forall_mem_cons.mp inRange
    have found := List.getElem?_eq_getElem within
    generalize keys[first] = candidate at found
    have passed : ∀ changed : List KeyEntry, changed.length = keys.length →
        (∃ entry, changed[place]? = some entry ∧ entry.Available nowMonotonic nowReal) →
        ∃ index key, (tryCandidates nowMonotonic nowReal changed (rest ++ place :: after)).2 =
          some (index, key) ∧ index ∈ first :: rest ++ [place] := by
      intro changed same there
      obtain ⟨index, key, stops, member⟩ := ih (by rwa [same]) there
      exact ⟨index, key, stops, List.mem_cons_of_mem _ member⟩
    rw [List.cons_append, tryCandidates, found]
    dsimp only
    split_ifs
    · exact passed keys rfl here
    · exact passed keys rfl here
    · refine passed _ List.length_set ?_
      obtain ⟨entry, placed, available⟩ := here
      rw [List.getElem?_set]
      split_ifs with same
      · rw [← same, found] at placed
        obtain rfl := Option.some.inj placed
        exact ⟨_, rfl, available.checked⟩
      · exact ⟨entry, placed, available⟩
    · exact ⟨first, _, rfl, List.mem_cons_self⟩

end Search

/-! ### What an operation changes -/

namespace KeyPool

variable {pool : KeyPool} {providerId : String}

/-- The keys of a provider, in their order. -/
def namesOf (pool : KeyPool) (providerId : String) : List String :=
  (pool.keysOf providerId).map (·.key)

/-- Where the next search starts. -/
def startOf (pool : KeyPool) (providerId : String) : Nat := (pool.indices.get? providerId).getD 0

/-- What a call of `get_key` does. -/
structure Turns (pool next : KeyPool) (providerId : String) (answer : Option String) : Prop where
  names : ∀ other, next.namesOf other = pool.namesOf other
  elsewhere : ∀ other, other ≠ providerId → next.startOf other = pool.startOf other
  refused : answer = none → next.startOf providerId = pool.startOf providerId
  found : ∀ key, answer = some key → ∃ place, (pool.namesOf providerId)[place]? = some key ∧
    next.startOf providerId = (place + 1) % (pool.namesOf providerId).length

theorem getKey_turns (pool : KeyPool) (providerId : String) (nowMonotonic nowReal : Int) :
    Turns pool (pool.getKey providerId nowMonotonic nowReal).1 providerId
      (pool.getKey providerId nowMonotonic nowReal).2 := by
  have nothing : Turns pool pool providerId none :=
    ⟨fun _ => rfl, fun _ _ => rfl, fun _ => rfl, fun _ found => by cases found⟩
  unfold getKey
  split
  · exact nothing
  · exact nothing
  · rename_i keys _ known
    have keysOf : pool.keysOf providerId = keys := by
      rw [KeyPool.keysOf, known]
      rfl
    obtain ⟨unchanged, search⟩ := tryCandidates_keys nowMonotonic nowReal
      ((List.range keys.length).map fun i => ((pool.indices.get? providerId).getD 0 + i) % keys.length)
      keys
    have names : ∀ (changed : List KeyEntry) (indices : Dict String Nat) (other : String),
        changed.map (·.key) = keys.map (·.key) →
        KeyPool.namesOf { keyDb := pool.keyDb.set providerId changed, indices } other =
          pool.namesOf other := by
      intro changed indices other same
      unfold namesOf
      rw [keysOf_set]
      split_ifs with here
      · rw [here, keysOf, same]
      · rfl
    dsimp only
    split
    · rename_i changed result
      rw [result] at unchanged
      exact ⟨fun other => names changed _ other unchanged, fun _ _ => rfl, fun _ => rfl,
        fun _ found => by cases found⟩
    · rename_i changed index key result
      rw [result] at unchanged search
      refine ⟨fun other => names changed _ other unchanged, fun other different => ?_,
        fun none_ => (by cases none_), fun answer found => ?_⟩
      · show ((pool.indices.set providerId _).get? other).getD 0 = _
        rw [Dict.get?_set_ne _ different]
        rfl
      · obtain rfl := Option.some.inj found
        refine ⟨index, ?_, ?_⟩
        · rw [namesOf, keysOf]
          exact (search index key rfl).2
        · show ((pool.indices.set providerId _).get? providerId).getD 0 = _
          rw [Dict.get?_set_self, namesOf, keysOf, List.length_map]
          rfl

/-- **Whatever is available**, `get_key` returns a key that comes no later. -/
theorem getKey_noLater {nowMonotonic nowReal : Int} {place : Nat} {entry : KeyEntry}
    (placed : (pool.keysOf providerId)[place]? = some entry)
    (available : entry.Available nowMonotonic nowReal) :
    ∃ found key, (pool.getKey providerId nowMonotonic nowReal).2 = some key ∧
      (pool.namesOf providerId)[found]? = some key ∧
      (pool.getKey providerId nowMonotonic nowReal).1.startOf providerId =
        (found + 1) % (pool.namesOf providerId).length ∧
      gap (pool.startOf providerId) found (pool.namesOf providerId).length ≤
        gap (pool.startOf providerId) place (pool.namesOf providerId).length := by
  have within : place < (pool.keysOf providerId).length := (List.getElem?_eq_some_iff.mp placed).1
  have count : (pool.namesOf providerId).length = (pool.keysOf providerId).length := List.length_map _
  rw [count]
  obtain ⟨before, after, split, nearer⟩ := circularFrom_split (pool.startOf providerId) within
  obtain ⟨index, key, stops, member⟩ := tryCandidates_stops after
    (fun other inside => (nearer other inside).1) ⟨entry, placed, available⟩
  rw [← split] at stops
  obtain ⟨-, search⟩ := tryCandidates_keys nowMonotonic nowReal
    (circularFrom (pool.startOf providerId) _) (pool.keysOf providerId)
  have shape : pool.getKey providerId nowMonotonic nowReal =
      ({ keyDb := pool.keyDb.set providerId (tryCandidates nowMonotonic nowReal (pool.keysOf providerId)
            (circularFrom (pool.startOf providerId) (pool.keysOf providerId).length)).1
         indices := pool.indices.set providerId ((index + 1) % (pool.keysOf providerId).length) },
        some key) := by
    unfold getKey
    unfold circularFrom startOf keysOf at *
    cases known : pool.keyDb.get? providerId with
    | none =>
      rw [known] at placed
      cases placed
    | some keys =>
      cases keys with
      | nil =>
        rw [known] at placed
        cases placed
      | cons first rest =>
        rw [known] at stops
        dsimp only [Option.getD_some] at stops ⊢
        generalize tryCandidates nowMonotonic nowReal (first :: rest) _ = result at stops ⊢
        obtain ⟨changed, answer⟩ := result
        obtain rfl : answer = some (index, key) := stops
        rfl
  refine ⟨index, key, by rw [shape], (search index key stops).2, ?_, ?_⟩
  · rw [shape]
    show ((pool.indices.set providerId _).get? providerId).getD 0 = _
    rw [Dict.get?_set_self]
    rfl
  · rcases List.mem_append.mp member with inside | last
    · exact Nat.le_of_lt (nearer index inside).2
    · rw [List.mem_singleton.mp last]

/-- Neither the keys nor the starts of the searches. -/
structure Rests (pool next : KeyPool) : Prop where
  names : ∀ other, next.namesOf other = pool.namesOf other
  starts : ∀ other, next.startOf other = pool.startOf other

theorem rests_update (pool : KeyPool) (providerId : String) (found : KeyEntry → Bool)
    {change : KeyEntry → KeyEntry} (sameKey : ∀ entry, (change entry).key = entry.key) :
    Rests pool (pool.withKeys providerId (updateFirst found change)) where
  names other := by
    unfold namesOf
    rw [keysOf_withKeys _ _ _ rfl]
    split_ifs with same
    · rw [same]
      exact updateFirst_map _ found change sameKey _
    · rfl
  starts other := by
    unfold withKeys
    split <;> rfl

theorem rests_isOnCooldown (pool : KeyPool) (providerId key : String) (nowMonotonic : Int) :
    Rests pool (pool.isOnCooldown providerId key nowMonotonic).1 := by
  unfold isOnCooldown
  split
  · exact ⟨fun _ => rfl, fun _ => rfl⟩
  · split_ifs
    · exact ⟨fun _ => rfl, fun _ => rfl⟩
    · exact rests_update pool providerId _ fun _ => rfl

theorem rests_getAllKeysStatus (hash : String → Int) (pool : KeyPool) (nowMonotonic nowReal : Int) :
    Rests pool (pool.getAllKeysStatus hash nowMonotonic nowReal).1 where
  names other := by
    show (((pool.keyDb.mapValues fun _ keys => keys.map (·.pruned nowReal)).get? _).getD []).map _ = _
    rw [Dict.get?_mapValues]
    unfold namesOf keysOf
    cases pool.keyDb.get? other with
    | none => rfl
    | some keys =>
      rw [Option.map_some, Option.getD_some, Option.getD_some, List.map_map]
      rfl
  starts _ := rfl

/-- **An operation that adds no key** changes the start of a search only where it is one. -/
theorem operate_cases (hash : String → Int) (pool : KeyPool) {action : PoolAction}
    (keeps : action.KeepsKeys) : Rests pool (pool.operate hash action).1 ∨
      ∃ providerId nowMonotonic nowReal, action = .getKey providerId nowMonotonic nowReal := by
  cases action with
  | addKey => exact keeps.elim
  | getKey providerId nowMonotonic nowReal => exact .inr ⟨_, _, _, rfl⟩
  | report429 providerId | reportSuccess providerId | toggleRevokeKey providerId
  | updateKeyMeta providerId => exact .inl (rests_update pool providerId _ fun _ => rfl)
  | isOnCooldown providerId key nowMonotonic =>
    exact .inl (rests_isOnCooldown pool providerId key nowMonotonic)
  | getAllKeysStatus nowMonotonic nowReal =>
    exact .inl (rests_getAllKeysStatus hash pool nowMonotonic nowReal)

theorem operate_names (hash : String → Int) {action : PoolAction} (keeps : action.KeepsKeys)
    (pool : KeyPool) (providerId : String) :
    (pool.operate hash action).1.namesOf providerId = pool.namesOf providerId := by
  rcases operate_cases hash pool keeps with rests | ⟨provider, nowMonotonic, nowReal, rfl⟩
  · exact rests.names providerId
  · exact (getKey_turns pool provider nowMonotonic nowReal).names providerId

/-! ### No key occurs twice -/

/-- No provider has a key twice. -/
def Distinct (pool : KeyPool) : Prop := ∀ providerId, (pool.namesOf providerId).Nodup

namespace Distinct

variable {hash : String → Int}

theorem addKey (distinct : pool.Distinct) (providerId key : String) (keyAlias : Option String)
    (quota : Int) (revoked : Bool) : (pool.addKey providerId key keyAlias quota revoked).Distinct := by
  intro other
  unfold KeyPool.addKey namesOf
  dsimp only
  rw [keysOf_set]
  by_cases same : other = providerId
  · rw [if_pos same]
    by_cases known : (pool.keysOf providerId).any (·.key = key)
    · rw [if_pos known, updateFirst_map]
      · exact distinct providerId
      · exact fun _ => rfl
    rw [if_neg known, List.map_append]
    refine List.nodup_append.mpr ⟨distinct providerId, List.nodup_singleton _, ?_⟩
    rintro old member new last rfl
    rw [List.map_singleton, List.mem_singleton] at last
    obtain ⟨entry, inside, isKey⟩ := List.mem_map.mp member
    exact known (List.any_eq_true.mpr ⟨entry, inside, decide_eq_true (isKey.trans last)⟩)
  · rw [if_neg same]
    exact distinct other

theorem dropEmpty (distinct : pool.Distinct) (providerId : String) :
    (pool.dropEmpty providerId).Distinct := by
  unfold KeyPool.dropEmpty
  split
  · intro other
    unfold namesOf keysOf
    rw [Dict.get?_erase]
    split_ifs
    · exact List.nodup_nil
    · exact distinct other
  · exact distinct

/-- Some keys are removed. -/
theorem remove (distinct : pool.Distinct) (providerId : String) {change : List KeyEntry → List KeyEntry}
    (fewer : ∀ keys, (change keys).Sublist keys) : (pool.withKeys providerId change).Distinct := by
  intro other
  unfold namesOf
  rw [keysOf_withKeys _ _ _ (List.sublist_nil.mp (fewer []))]
  split_ifs
  · exact (distinct providerId).sublist ((fewer _).map _)
  · exact distinct other

theorem change (distinct : pool.Distinct) (change : PoolChange) : (pool.change hash change).Distinct := by
  cases change with
  | operate action =>
    by_cases keeps : action.KeepsKeys
    · intro providerId
      show ((pool.operate hash action).1.namesOf providerId).Nodup
      rw [operate_names hash keeps]
      exact distinct providerId
    · cases action with
      | addKey providerId key keyAlias quota revoked =>
        exact distinct.addKey providerId key keyAlias quota revoked
      | _ => exact absurd trivial keeps
  | removeKey providerId key =>
    exact (distinct.remove providerId fun _ => List.filter_sublist).dropEmpty providerId
  | removeKeyByHash providerId keyHash =>
    exact (distinct.remove providerId fun _ => List.eraseP_sublist).dropEmpty providerId

end Distinct

theorem distinct_after (hash : String → Int) (changes : List PoolChange) :
    (KeyPool.after hash changes).Distinct := by
  have all : ∀ pool : KeyPool, pool.Distinct → (changes.foldl (KeyPool.change hash) pool).Distinct := by
    induction changes with
    | nil => exact fun _ distinct => distinct
    | cons change rest ih => exact fun pool distinct => ih _ (distinct.change change)
  exact all {} fun _ => List.nodup_nil

end KeyPool

/-! ### Whole runs -/

section Runs

variable {hash : String → Int} {providerId : String} {pool : KeyPool} {actions : List PoolAction}

/-- What a run does to its calls: an operation that is none of them, or the first of them. -/
theorem callsOf_cons (hash : String → Int) (providerId : String) (pool : KeyPool)
    {action : PoolAction} (keeps : action.KeepsKeys) (rest : List PoolAction) :
    ((pool.operate hash action).1.startOf providerId = pool.startOf providerId ∧
      callsOf hash providerId pool (action :: rest) =
        callsOf hash providerId (pool.operate hash action).1 rest) ∨
    ∃ nowMonotonic nowReal, action = .getKey providerId nowMonotonic nowReal ∧
      callsOf hash providerId pool (action :: rest) =
        ⟨pool, nowMonotonic, nowReal, (pool.getKey providerId nowMonotonic nowReal).2⟩ ::
          callsOf hash providerId (pool.getKey providerId nowMonotonic nowReal).1 rest := by
  by_cases here : ∃ nowMonotonic nowReal, action = .getKey providerId nowMonotonic nowReal
  · obtain ⟨nowMonotonic, nowReal, rfl⟩ := here
    exact .inr ⟨nowMonotonic, nowReal, rfl, if_pos rfl⟩
  · left
    rcases KeyPool.operate_cases hash pool keeps with rests | ⟨provider, nowMonotonic, nowReal, rfl⟩
    · refine ⟨rests.starts providerId, ?_⟩
      cases action with
      | getKey provider nowMonotonic nowReal =>
        refine if_neg fun same => here ⟨nowMonotonic, nowReal, by rw [same]⟩
      | _ => rfl
    · have other : provider ≠ providerId := fun same => here ⟨nowMonotonic, nowReal, by rw [same]⟩
      exact ⟨(KeyPool.getKey_turns pool provider nowMonotonic nowReal).elsewhere _ other.symm,
        if_neg other⟩

/-- **Behind any call** the run goes on from a pool with the same keys. -/
theorem callsOf_split (keeps : ∀ action ∈ actions, action.KeepsKeys) {before after : List KeyCall}
    {call : KeyCall} (calls : callsOf hash providerId pool actions = before ++ call :: after) :
    ∃ later, (∀ action ∈ later, action.KeepsKeys) ∧
      call.pool.namesOf providerId = pool.namesOf providerId ∧
      call.answer = (call.pool.getKey providerId call.nowMonotonic call.nowReal).2 ∧
      callsOf hash providerId (call.pool.getKey providerId call.nowMonotonic call.nowReal).1 later =
        after := by
  induction actions generalizing pool before with
  | nil => exact (List.append_ne_nil_of_right_ne_nil before (List.cons_ne_nil _ _) calls.symm).elim
  | cons action rest ih =>
    obtain ⟨here, later⟩ := List.forall_mem_cons.mp keeps
    have names := KeyPool.operate_names hash here pool providerId
    rcases callsOf_cons hash providerId pool here rest with ⟨-, same⟩ |
      ⟨nowMonotonic, nowReal, rfl, same⟩
    · obtain ⟨actions, kept, known, found⟩ := ih later (same.symm.trans calls)
      exact ⟨actions, kept, known.trans names, found⟩
    · rw [same] at calls
      cases before with
      | nil =>
        obtain ⟨rfl, rfl⟩ := List.cons.inj calls
        exact ⟨rest, later, rfl, rfl, rfl⟩
      | cons first before =>
        obtain ⟨actions, kept, known, found⟩ := ih later (List.cons.inj calls).2
        exact ⟨actions, kept, known.trans names, found⟩

/-- A key's place in its pool. -/
theorem KeyCall.Finds.placed {call : KeyCall} {names : List String} {key : String} {place : Nat}
    (finds : call.Finds providerId key) (same : call.pool.namesOf providerId = names)
    (distinct : names.Nodup) (placed : names[place]? = some key) :
    ∃ entry, (call.pool.keysOf providerId)[place]? = some entry ∧
      entry.Available call.nowMonotonic call.nowReal := by
  obtain ⟨entry, member, rfl, available⟩ := finds
  obtain ⟨index, found⟩ := List.mem_iff_getElem?.mp member
  have there : names[index]? = some entry.key := by
    rw [← same, KeyPool.namesOf, List.getElem?_map, found]
    rfl
  have within : index < names.length := (List.getElem?_eq_some_iff.mp there).1
  obtain rfl := (List.getElem?_inj within distinct).mp (there.trans placed.symm)
  exact ⟨entry, found, available⟩

/-- **The search comes to an available key first**, where that lies ahead of another one: before the
other is returned, it is. -/
theorem returned_before (keeps : ∀ action ∈ actions, action.KeepsKeys) {names : List String}
    (same : pool.namesOf providerId = names) (distinct : names.Nodup) {near far : Nat}
    {key other : String} (nearPlaced : names[near]? = some other) (farPlaced : names[far]? = some key)
    (ahead : Ahead (pool.startOf providerId) near far names.length)
    {between after : List KeyCall} {second : KeyCall}
    (calls : callsOf hash providerId pool actions = between ++ second :: after)
    (isKey : second.answer = some key)
    (finds : ∀ call ∈ between ++ [second], call.Finds providerId other) :
    ∃ call ∈ between, call.answer = some other := by
  have nearWithin := (List.getElem?_eq_some_iff.mp nearPlaced).1
  induction actions generalizing pool between with
  | nil => exact (List.append_ne_nil_of_right_ne_nil between (List.cons_ne_nil _ _) calls.symm).elim
  | cons action rest ih =>
    obtain ⟨here, later⟩ := List.forall_mem_cons.mp keeps
    have names' := (KeyPool.operate_names hash here pool providerId).trans same
    rcases callsOf_cons hash providerId pool here rest with ⟨start, next⟩ |
      ⟨nowMonotonic, nowReal, rfl, next⟩
    · exact ih later names' (start.symm ▸ ahead) (next.symm.trans calls) finds
    · rw [next] at calls
      -- The search finds a key that comes no later than the nearer one, so it is not the farther one.
      have turn : (⟨pool, nowMonotonic, nowReal, (pool.getKey providerId nowMonotonic nowReal).2⟩ :
          KeyCall).Finds providerId other → ∃ found answer,
          (pool.getKey providerId nowMonotonic nowReal).2 = some answer ∧ names[found]? = some answer ∧
          (found ≠ near → found ≠ far ∧
            Ahead ((pool.getKey providerId nowMonotonic nowReal).1.startOf providerId) near far
              names.length) := by
        intro finds
        obtain ⟨entry, placed, available⟩ := finds.placed same distinct nearPlaced
        obtain ⟨found, answer, returned, isAnswer, start, noLater⟩ :=
          KeyPool.getKey_noLater placed available
        rw [same] at isAnswer start noLater
        refine ⟨found, answer, returned, isAnswer, fun passed => ?_⟩
        rw [start]
        exact ahead.next nearWithin (List.getElem?_eq_some_iff.mp isAnswer).1 noLater passed
      cases between with
      | nil =>
        obtain ⟨rfl, rfl⟩ := List.cons.inj calls
        obtain ⟨found, answer, returned, isAnswer, goesOn⟩ := turn (finds _ List.mem_cons_self)
        obtain rfl := Option.some.inj (returned.symm.trans isKey)
        have isFar := (List.getElem?_inj (List.getElem?_eq_some_iff.mp isAnswer).1 distinct).mp
          (isAnswer.trans farPlaced.symm)
        by_cases isNear : found = near
        · exact absurd (isNear.symm.trans isFar) (fun alike => by
            rw [alike] at ahead
            exact absurd ahead (Nat.lt_irrefl _))
        · exact absurd isFar (goesOn isNear).1
      | cons first between =>
        obtain ⟨rfl, remaining⟩ := List.cons.inj calls
        obtain ⟨found, answer, returned, isAnswer, goesOn⟩ := turn (finds _ List.mem_cons_self)
        by_cases isNear : found = near
        · rw [isNear, nearPlaced] at isAnswer
          exact ⟨_, List.mem_cons_self, returned.trans isAnswer.symm⟩
        · obtain ⟨call, member, isOther⟩ := ih later names' (goesOn isNear).2 remaining
            fun call member => finds call (List.mem_cons_of_mem _ member)
          exact ⟨call, List.mem_cons_of_mem _ member, isOther⟩

end Runs

/-- **Round-robin.** From whatever pool a run starts, if it adds and removes no key, then between two
successive returns of a key every other key is returned that was available at every call behind the
first return up to the second. -/
theorem goesRound_of_run (hash : String → Int) (changes : List PoolChange) (providerId : String)
    {actions : List PoolAction} (keeps : ∀ action ∈ actions, action.KeepsKeys) :
    GoesRound providerId (callsOf hash providerId (KeyPool.after hash changes) actions) := by
  intro before first between second after key other calls isKey again _ different finds
  rw [List.append_assoc, List.cons_append] at calls
  obtain ⟨later, kept, names, answer, goesOn⟩ := callsOf_split keeps calls
  have distinct : (first.pool.namesOf providerId).Nodup :=
    names ▸ KeyPool.distinct_after hash changes providerId
  have turns := KeyPool.getKey_turns first.pool providerId first.nowMonotonic first.nowReal
  obtain ⟨far, farPlaced, start⟩ := turns.found key (answer.symm.trans isKey)
  -- The other key is one of the pool, since it is found at the second return.
  obtain ⟨near, nearPlaced⟩ : ∃ near, (first.pool.namesOf providerId)[near]? = some other := by
    obtain ⟨entry, member, rfl, -⟩ := finds second (List.mem_append_right _ List.mem_cons_self)
    obtain ⟨_, _, unchanged, -⟩ := callsOf_split kept goesOn
    rw [turns.names providerId] at unchanged
    rw [← unchanged]
    exact List.mem_iff_getElem?.mp (List.mem_map.mpr ⟨entry, member, rfl⟩)
  refine returned_before kept (turns.names providerId) distinct nearPlaced farPlaced ?_ goesOn again finds
  rw [start]
  refine ahead_behind (List.getElem?_eq_some_iff.mp nearPlaced).1
    (List.getElem?_eq_some_iff.mp farPlaced).1 ?_
  rintro rfl
  exact different (Option.some.inj (nearPlaced.symm.trans farPlaced))

/-- Two keys in turn. -/
def inTurn : List PoolAction := [.getKey "nim" 0 0, .getKey "nim" 1 1, .getKey "nim" 2 2]

theorem inTurn_goesRound : GoesRound "nim" (callsOf (fun _ => 0) "nim"
      (KeyPool.after (fun _ => 0) [.operate (.addKey "nim" "a" none 0 false),
        .operate (.addKey "nim" "b" none 0 false)]) inTurn) ∧
    (callsOf (fun _ => 0) "nim" (KeyPool.after (fun _ => 0) [.operate (.addKey "nim" "a" none 0 false),
      .operate (.addKey "nim" "b" none 0 false)]) inTurn).map (·.answer) =
        [some "a", some "b", some "a"] :=
  ⟨goesRound_of_run _ _ "nim" (by simp [inTurn, PoolAction.KeepsKeys]), by decide +kernel⟩

end ClaudeProxy
