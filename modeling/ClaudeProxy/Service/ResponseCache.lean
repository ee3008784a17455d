/-
**The response cache in exact mode** (`core/reliability/cache.py`).

* `generateExactKey` — the digest of six of the request's fields.
* `ResponseCache.get`, `ResponseCache.set` — an `OrderedDict` of entries with expiry times, evicted
  least recently used first.
* `Keyed` — the invariant of every run: an entry stands under the key of its own request.
* **`cache_key_sound_iff`** — when the cache can serve one request the answer of another one.
-/

import ClaudeProxy.Library.Dict
import ClaudeProxy.Library.Transition
import ClaudeProxy.Service.Request

namespace ClaudeProxy

open Json (getKey)

variable {κ χ : Type} [DecidableEq κ]

/-! ### The key -/

/-- The fields that enter the key. -/
def keyedFields : List RequestField :=
  [.model, .messages, .system, .tools, .temperature, .maxTokens]

/-- The fields that do not. -/
def unkeyedFields : List RequestField := [.toolChoice, .thinking, .topP, .topK, .stopSequences]

/-- What `_generate_exact_key` keeps of the request. -/
def normalized (requestDict : List (String × Json)) : Json :=
  .obj [("model", getKey requestDict "model"), ("messages", getKey requestDict "messages"),
    ("system", getKey requestDict "system"), ("tools", getKey requestDict "tools"),
    ("temperature", getKey requestDict "temperature"),
    ("max_tokens", getKey requestDict "max_tokens")]

/-- `_generate_exact_key`: the digest of the sorted text, as bytes. -/
def generateExactKey (sha256 : ByteArray → κ) (requestDict : List (String × Json)) : κ :=
  sha256 (String.ofList (normalized requestDict).sortKeys.dumps).toUTF8

/-! ### The cache -/

structure CacheEntry (χ : Type) where
  chunks : List χ
  expiresAt : Int
  rawRequest : MessagesRequest

structure CacheConfig where
  ttl : Int
  maxSize : Int

abbrev CacheStore (κ χ : Type) := Dict κ (CacheEntry χ)

/-- `_cache.move_to_end(key)`. -/
def moveToEnd (cache : CacheStore κ χ) (key : κ) (entry : CacheEntry χ) : CacheStore κ χ :=
  (cache.erase key).set key entry

/-- The entry that `get` finds unexpired under the request's key. -/
def hit? (sha256 : ByteArray → κ) (cache : CacheStore κ χ) (request : MessagesRequest) (now : Int) :
    Option (CacheEntry χ) :=
  (cache.get? (generateExactKey sha256 request.modelDump)).filter fun entry => now < entry.expiresAt

/-- `get`, in exact mode. -/
def ResponseCache.get (sha256 : ByteArray → κ) (cache : CacheStore κ χ) (request : MessagesRequest)
    (now : Int) : Option (List χ) × CacheStore κ χ :=
  let exactKey := generateExactKey sha256 request.modelDump
  match hit? sha256 cache request now with
  | some entry => (some entry.chunks, moveToEnd cache exactKey entry)
  | none => (none, cache.erase exactKey)

/-- `popitem(last=False)`; an empty `OrderedDict` raises `KeyError`. -/
def popOldest (cache : CacheStore κ χ) : Option (CacheStore κ χ) :=
  cache.entries.head?.map fun oldest => cache.erase oldest.1

/-- The least integer that is no `float`: `time.time() + ttl` raises `OverflowError` from there on. -/
@[irreducible] def floatLimit : Int := ((2 ^ 1024 - 2 ^ 970 : Nat) : Int)

theorem hour_lt_floatLimit : (3600 : Int) < floatLimit := by decide +kernel

/-- The cache can hold an entry: it has room for one, and its lifetime is a `float`. -/
def CacheConfig.Holds (config : CacheConfig) : Prop := 0 < config.maxSize ∧ config.ttl < floatLimit

/-- `set`; `none` when it raises. -/
def ResponseCache.set (sha256 : ByteArray → κ) (config : CacheConfig) (cache : CacheStore κ χ)
    (request : MessagesRequest) (chunks : List χ) (customTtl : Option Int) (now : Int) :
    Option (CacheStore κ χ) :=
  let exactKey := generateExactKey sha256 request.modelDump
  let ttl := customTtl.getD config.ttl
  let entry := ⟨chunks, now + (if 0 < ttl then ttl else 999999999), request⟩
  let room : Option (CacheStore κ χ) :=
    if (cache.get? exactKey).isSome then some (cache.erase exactKey)
    else if config.maxSize ≤ cache.entries.length then popOldest cache
    else some cache
  if floatLimit ≤ ttl then none else room.map fun room => room.set exactKey entry

/-- An empty cache stores an answer, if it may hold one. -/
theorem ResponseCache.set_empty (sha256 : ByteArray → κ) {config : CacheConfig}
    (holds : config.Holds) (request : MessagesRequest) (chunks : List χ) (now : Int) :
    ResponseCache.set sha256 config ∅ request chunks none now =
      some (Dict.set ∅ (generateExactKey sha256 request.modelDump)
        ⟨chunks, now + (if 0 < config.ttl then config.ttl else 999999999), request⟩) := by
  have fits : ¬config.maxSize ≤ ((∅ : CacheStore κ χ).entries.length : Int) := not_le.mpr holds.1
  have lives : ¬floatLimit ≤ (none : Option Int).getD config.ttl := not_le.mpr holds.2
  unfold ResponseCache.set
  dsimp only
  rw [if_neg lives, if_neg fits]
  rfl

/-- One that may hold none has nothing to evict, or cannot tell when it expires, and raises. -/
theorem ResponseCache.set_empty_of_not_holds (sha256 : ByteArray → κ) {config : CacheConfig}
    (cannot : ¬config.Holds) (request : MessagesRequest) (chunks : List χ) (now : Int) :
    ResponseCache.set sha256 config ∅ request chunks none now = none := by
  unfold ResponseCache.set
  dsimp only
  by_cases long : floatLimit ≤ (none : Option Int).getD config.ttl
  · rw [if_pos long]
  · have full : config.maxSize ≤ ((∅ : CacheStore κ χ).entries.length : Int) :=
      not_lt.mp fun room => cannot ⟨room, not_le.mp long⟩
    rw [if_neg long, if_pos full]
    rfl

/-- What is stored is served until it expires. -/
theorem ResponseCache.get_stored (sha256 : ByteArray → κ) {entry : CacheEntry χ} {now : Int}
    (request : MessagesRequest) (cache : CacheStore κ χ) (fresh : now < entry.expiresAt) :
    (ResponseCache.get sha256 (cache.set (generateExactKey sha256 request.modelDump) entry) request
      now).1 = some entry.chunks := by
  unfold ResponseCache.get hit?
  dsimp only
  rw [Dict.get?_set_self, Option.filter_some, if_pos (decide_eq_true fresh)]

/-- The calls on a cache. -/
inductive CacheCall (χ : Type) where
  | get (request : MessagesRequest) (now : Int)
  | set (request : MessagesRequest) (chunks : List χ) (customTtl : Option Int) (now : Int)
  | clear

/-- A cache under its calls; a call that raises leaves it as it is. -/
def cacheMachine (sha256 : ByteArray → κ) (config : CacheConfig) :
    Machine (CacheStore κ χ) (CacheCall χ) where
  init cache := cache = ∅
  step cache
    | .get request now => some (ResponseCache.get sha256 cache request now).2
    | .set request chunks customTtl now =>
      some ((ResponseCache.set sha256 config cache request chunks customTtl now).getD cache)
    | .clear => some ∅

/-- In some run of a cache, a `get` for `request` returns the entry stored by a `set` for
`stored`. -/
def CacheServes (sha256 : ByteArray → κ) (χ : Type) (request stored : MessagesRequest) : Prop :=
  ∃ (config : CacheConfig) (cache : CacheStore κ χ) (now : Int) (entry : CacheEntry χ),
    (cacheMachine sha256 config).Reachable Machine.unguarded cache ∧
    hit? sha256 cache request now = some entry ∧
    (ResponseCache.get sha256 cache request now).1 = some entry.chunks ∧
    entry.rawRequest = stored

/-! ### Every entry stands under its key -/

/-- An entry stands under the key of its own request. -/
def Keyed (sha256 : ByteArray → κ) (cache : CacheStore κ χ) : Prop :=
  ∀ key entry, cache.get? key = some entry →
    key = generateExactKey sha256 entry.rawRequest.modelDump

theorem Keyed.erase {sha256 : ByteArray → κ} {cache : CacheStore κ χ} (keyed : Keyed sha256 cache)
    (erased : κ) : Keyed sha256 (cache.erase erased) := by
  intro key entry found
  rw [Dict.get?_erase] at found
  split at found
  · cases found
  · exact keyed key entry found

theorem Keyed.set {sha256 : ByteArray → κ} {cache : CacheStore κ χ} (keyed : Keyed sha256 cache)
    (entry : CacheEntry χ) :
    Keyed sha256 (cache.set (generateExactKey sha256 entry.rawRequest.modelDump) entry) := by
  intro key other found
  rw [Dict.get?_set] at found
  split at found
  · rw [← Option.some.inj found]
    assumption
  · exact keyed key other found

theorem keyed_of_reachable {sha256 : ByteArray → κ} {config : CacheConfig} {cache : CacheStore κ χ}
    (reached : (cacheMachine sha256 config).Reachable Machine.unguarded cache) :
    Keyed sha256 cache := by
  refine reached.invariant ?_ ?_
  · rintro cache rfl key entry found
    cases found
  · intro cache call next keyed _ stepped
    cases call with
    | get request now =>
      obtain rfl := Option.some.inj stepped
      unfold ResponseCache.get
      dsimp only
      split
      · rename_i entry hit
        rw [hit?, Option.filter_eq_some_iff] at hit
        rw [keyed _ _ hit.1]
        exact (keyed.erase _).set entry
      · exact keyed.erase _
    | set request chunks customTtl now =>
      obtain rfl := Option.some.inj stepped
      cases answer : ResponseCache.set sha256 config cache request chunks customTtl now with
      | none => exact keyed
      | some stored =>
        obtain ⟨-, stored⟩ := Option.ite_none_left_eq_some.mp answer
        obtain ⟨room, found, rfl⟩ := Option.map_eq_some_iff.mp stored
        have roomKeyed : Keyed sha256 room := by
          split at found
          · rw [← Option.some.inj found]
            exact keyed.erase _
          · split at found
            · obtain ⟨oldest, _, rfl⟩ := Option.map_eq_some_iff.mp found
              exact keyed.erase _
            · rw [← Option.some.inj found]
              exact keyed
        exact roomKeyed.set ⟨chunks, _, request⟩
    | clear =>
      obtain rfl := Option.some.inj stepped
      intro key entry found
      cases found

/-! ### Soundness of the key -/

theorem normalized_modelDump (body : RequestBody) :
    normalized body.modelDump =
      .obj (keyedFields.map fun field => (field.name, body.value field)) := by
  simp only [keyedFields, List.map_cons, List.map_nil, ← body.getKey_modelDump]
  rfl

theorem isPrintable_normalized (request : MessagesRequest) :
    (normalized request.modelDump).isPrintable = true := by
  rw [normalized_modelDump, Json.isPrintable, Json.fieldsPrintable_iff]
  intro member inside
  obtain ⟨field, -, rfl⟩ := List.mem_map.mp inside
  exact request.printable field

omit [DecidableEq κ] in
/-- Two requests have the same key exactly when they agree on the fields in it. -/
theorem generateExactKey_eq_iff {sha256 : ByteArray → κ} (injective : Function.Injective sha256)
    (request stored : MessagesRequest) :
    generateExactKey sha256 request.modelDump = generateExactKey sha256 stored.modelDump ↔
      AgreeOn keyedFields request stored := by
  rw [generateExactKey, generateExactKey, injective.eq_iff, String.toUTF8_eq_toByteArray,
    String.toUTF8_eq_toByteArray, String.toByteArray_inj, String.ofList_inj,
    Json.same_iff_dumps (isPrintable_normalized request) (isPrintable_normalized stored),
    normalized_modelDump, normalized_modelDump]
  constructor
  · intro same field member
    refine same.field ?_ (List.mem_map_of_mem member) (List.mem_map_of_mem member)
    rw [List.map_map]
    exact (by decide : (keyedFields.map RequestField.name).Nodup)
  · intro agree
    have sorted : ∀ fields : List RequestField, (∀ field ∈ fields, field ∈ keyedFields) →
        Json.sortFields (fields.map fun field => (field.name, request.value field)) =
          Json.sortFields (fields.map fun field => (field.name, stored.value field)) := by
      intro fields
      induction fields with
      | nil => exact fun _ => rfl
      | cons field fields ih =>
        intro inside
        have here : (request.value field).sortKeys = (stored.value field).sortKeys :=
          agree field (inside field List.mem_cons_self)
        rw [List.map_cons, List.map_cons, Json.sortFields, Json.sortFields, here,
          ih fun other member => inside other (List.mem_cons_of_mem _ member)]
    rw [Json.Same, Json.sortKeys, Json.sortKeys, sorted keyedFields fun _ member => member]

/-- The cache serves one request the answer stored for another one exactly when they agree on the
fields in the key. -/
theorem cacheServes_iff {sha256 : ByteArray → κ} (injective : Function.Injective sha256)
    (request stored : MessagesRequest) :
    CacheServes sha256 χ request stored ↔ AgreeOn keyedFields request stored := by
  rw [← generateExactKey_eq_iff injective]
  constructor
  · rintro ⟨config, cache, now, entry, reached, hit, -, rfl⟩
    rw [hit?, Option.filter_eq_some_iff] at hit
    exact keyed_of_reachable reached _ _ hit.1
  · intro sameKey
    -- store the answer in an empty cache with room, and ask at once
    let config : CacheConfig := ⟨3600, 128⟩
    let entry : CacheEntry χ := ⟨[], 0 + 3600, stored⟩
    let cache : CacheStore κ χ := Dict.set ∅ (generateExactKey sha256 stored.modelDump) entry
    have stores : ResponseCache.set sha256 config ∅ stored ([] : List χ) none 0 = some cache :=
      @ResponseCache.set_empty κ χ _ sha256 config ⟨by decide, hour_lt_floatLimit⟩ stored [] 0
    have reached : (cacheMachine sha256 config).Reachable Machine.unguarded cache := by
      have stepped : (cacheMachine sha256 config).step ∅ (.set stored [] none 0) = some cache := by
        rw [cacheMachine]
        simp only [stores, Option.getD_some]
      exact .step (.init rfl) trivial stepped
    have hit : hit? sha256 cache request 0 = some entry := by
      rw [hit?, sameKey, Dict.get?_set_self]
      rfl
    refine ⟨config, cache, 0, entry, reached, hit, ?_, rfl⟩
    rw [ResponseCache.get, hit]

/-- **When the cache key is sound.** The cache never serves one request an answer stored for a request
that differs from it in a deciding field, exactly if: where the two agree on the six fields in the
key, they also agree on `tool_choice`, `thinking`, `top_p`, `top_k` and `stop_sequences`. -/
theorem cache_key_sound_iff {sha256 : ByteArray → κ} (injective : Function.Injective sha256)
    (χ : Type) (request stored : MessagesRequest) :
    (CacheServes sha256 χ request stored → Agree request stored) ↔
      (AgreeOn keyedFields request stored → AgreeOn unkeyedFields request stored) := by
  have whole : ∀ field, field ∈ keyedFields ++ unkeyedFields := by
    intro field
    cases field <;> decide
  rw [cacheServes_iff injective, agree_iff whole]
  exact ⟨fun sound keyed => (sound keyed).2, fun rest keyed => ⟨keyed, rest keyed⟩⟩

/-- A request that leaves the choice of tools to the model. -/
def freeChoice : MessagesRequest where
  model := "claude-opus-4"
  messages := [.obj [("role", .str "user"), ("content", .str "List the files.")]]
  printable field := by cases field <;> rfl

/-- The same request, which forces a tool. -/
def forcedChoice : MessagesRequest where
  model := "claude-opus-4"
  messages := [.obj [("role", .str "user"), ("content", .str "List the files.")]]
  toolChoice := .obj [("type", .str "tool"), ("name", .str "ls")]
  printable field := by cases field <;> rfl

/-- The bytes themselves, for a digest. -/
theorem data_injective : Function.Injective ByteArray.data := fun _ _ => ByteArray.ext

/-- The answer to the free choice is served to the request that forces a tool. -/
theorem forcedChoice_is_served_freeChoice :
    CacheServes ByteArray.data String forcedChoice freeChoice ∧
      ¬Agree forcedChoice freeChoice := by
  refine ⟨(cacheServes_iff data_injective forcedChoice freeChoice).mpr (by decide), ?_⟩
  intro agree
  exact absurd (agree .toolChoice) (by decide)

theorem forcedChoice_soundness :
    (CacheServes ByteArray.data String forcedChoice freeChoice →
        Agree forcedChoice freeChoice) ↔
      (AgreeOn keyedFields forcedChoice freeChoice →
        AgreeOn unkeyedFields forcedChoice freeChoice) :=
  cache_key_sound_iff data_injective String forcedChoice freeChoice

end ClaudeProxy
