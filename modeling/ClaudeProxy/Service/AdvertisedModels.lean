/-
**The models that the proxy advertises** (`api/routes.py`, `providers/registry.py`,
`api/gateway_model_ids.py`, `config/settings.py`).

A client chooses a model from the list of `/v1/models` and sends its id back with its requests.

* `configuredChatModelRefs` — the models of the settings, each once, with the keys that name it.
* `ProviderRegistry` — what the providers have answered, under their ids.
* `buildModelsListResponse` — the list: every such model with and without thinking, then Claude's.
* `Available` — a model that is configured or that its provider has listed.
* **`advertised_models_route`** — no id is listed twice, every available model is listed, with thinking
  unless its provider says it has none, and an id that is sent back leads to the model it was made for.
-/

import ClaudeProxy.Service.ModelRouter

namespace ClaudeProxy

namespace Router

/-! ### What there is -/

/-- A configured model, and the settings that name it. -/
structure ConfiguredChatModelRef where
  modelRef : String
  providerId : String
  modelId : String
  sources : List String

/-- `sources_by_ref.setdefault(model_ref, []).append(source)`, where the setting has a model. -/
def addSource (sourcesByRef : Dict String (List String)) (candidate : String × Option ProviderRef) :
    Dict String (List String) :=
  match candidate.2 with
  | none => sourcesByRef
  | some model =>
    sourcesByRef.set model.ref ((sourcesByRef.get? model.ref).getD [] ++ [candidate.1])

/-- `configured_chat_model_refs`. -/
def configuredChatModelRefs (settings : RouterSettings) : List ConfiguredChatModelRef :=
  let candidates : List (String × Option ProviderRef) :=
    [("MODEL", some settings.model), ("MODEL_OPUS", settings.modelOpus),
      ("MODEL_SONNET", settings.modelSonnet), ("MODEL_HAIKU", settings.modelHaiku)]
  let sourcesByRef := candidates.foldl addSource ∅
  sourcesByRef.entries.map fun entry =>
    ⟨entry.1, parseProviderType entry.1, parseModelName entry.1, entry.2⟩

/-- A model that a provider has listed. -/
structure ProviderModelInfo where
  modelId : String
  supportsThinking : Option Bool := none
  deriving DecidableEq

/-- The models of one provider under their ids, none of which is blank. -/
structure CleanInfos where
  infos : Dict String ProviderModelInfo
  keyed : ∀ modelId info, infos.get? modelId = some info → info.modelId = modelId
  named : ∀ modelId info, infos.get? modelId = some info → Py.strip modelId ≠ ""

namespace CleanInfos

def empty : CleanInfos where
  infos := ∅
  keyed _ info found := absurd found.symm (Option.some_ne_none info)
  named _ info found := absurd found.symm (Option.some_ne_none info)

theorem keyed_set (clean : CleanInfos) (info : ProviderModelInfo) (modelId : String)
    (other : ProviderModelInfo) (found : (clean.infos.set info.modelId info).get? modelId = some other) :
    other.modelId = modelId := by
  rw [Dict.get?_set] at found
  split_ifs at found with same
  · rw [← Option.some.inj found, same]
  · exact clean.keyed modelId other found

theorem named_set (clean : CleanInfos) {info : ProviderModelInfo} (named : Py.strip info.modelId ≠ "")
    (modelId : String) (other : ProviderModelInfo)
    (found : (clean.infos.set info.modelId info).get? modelId = some other) : Py.strip modelId ≠ "" := by
  rw [Dict.get?_set] at found
  split_ifs at found with same
  · rwa [same]
  · exact clean.named modelId other found

/-- One more model, if it has a name. -/
def add (clean : CleanInfos) (info : ProviderModelInfo) : CleanInfos :=
  if named : Py.strip info.modelId = "" then clean
  else
    { infos := clean.infos.set info.modelId info
      keyed := clean.keyed_set info
      named := clean.named_set named }

end CleanInfos

/-- The model lists that `ProviderRegistry` keeps. -/
structure ProviderRegistry where
  modelInfosByProvider : Dict String CleanInfos := ∅

namespace ProviderRegistry

/-- `cache_model_infos`. -/
def cacheModelInfos (registry : ProviderRegistry) (providerId : String)
    (modelInfos : List ProviderModelInfo) : ProviderRegistry :=
  ⟨registry.modelInfosByProvider.set providerId (modelInfos.foldl CleanInfos.add .empty)⟩

/-- The models of a provider; none when it has not answered. -/
def infosOf (registry : ProviderRegistry) (providerId : String) : CleanInfos :=
  (registry.modelInfosByProvider.get? providerId).getD .empty

/-- `cached_model_supports_thinking`. -/
def cachedModelSupportsThinking (registry : ProviderRegistry) (providerId modelId : String) :
    Option Bool :=
  match (registry.infosOf providerId).infos.get? modelId with
  | none => none
  | some info => info.supportsThinking

/-- `cached_prefixed_model_infos`. -/
def cachedPrefixedModelInfos (registry : ProviderRegistry) : List ProviderModelInfo :=
  supportedProviderIds.flatMap fun providerId =>
    ((registry.infosOf providerId).infos.values.mergeSort fun first second =>
        decide (first.modelId ≤ second.modelId)).map fun info =>
      ⟨providerId ++ "/" ++ info.modelId, info.supportsThinking⟩

end ProviderRegistry

/-! ### The list -/

/-- `gateway_model_id`. -/
def gatewayModelId (providerModelRef : String) : String :=
  gatewayModelIdPrefix ++ "/" ++ providerModelRef

/-- `no_thinking_gateway_model_id`. -/
def noThinkingGatewayModelId (providerModelRef : String) : String :=
  noThinkingGatewayModelIdPrefix ++ "/" ++ providerModelRef

structure ModelResponse where
  id : String
  displayName : String
  createdAt : String
  deriving DecidableEq

def discoveredModelCreatedAt : String := "1970-01-01T00:00:00Z"

def supportedClaudeModels : List ModelResponse :=
  [⟨"claude-opus-4-20250514", "Claude Opus 4", "2025-05-14T00:00:00Z"⟩,
    ⟨"claude-sonnet-4-20250514", "Claude Sonnet 4", "2025-05-14T00:00:00Z"⟩,
    ⟨"claude-haiku-4-20250514", "Claude Haiku 4", "2025-05-14T00:00:00Z"⟩,
    ⟨"claude-3-opus-20240229", "Claude 3 Opus", "2024-02-29T00:00:00Z"⟩,
    ⟨"claude-3-5-sonnet-20241022", "Claude 3.5 Sonnet", "2024-10-22T00:00:00Z"⟩,
    ⟨"claude-3-haiku-20240307", "Claude 3 Haiku", "2024-03-07T00:00:00Z"⟩,
    ⟨"claude-3-5-haiku-20241022", "Claude 3.5 Haiku", "2024-10-22T00:00:00Z"⟩]

structure ModelsListResponse where
  data : List ModelResponse
  firstId : Option String
  hasMore : Bool
  lastId : Option String

/-- `_discovered_model_response`. -/
def discoveredModelResponse (modelId displayName : String) : ModelResponse :=
  ⟨modelId, displayName, discoveredModelCreatedAt⟩

/-- `_append_unique_model`; the ids that have been seen are those of the list. -/
def appendUniqueModel (models : List ModelResponse) (model : ModelResponse) : List ModelResponse :=
  if model.id ∈ models.map ModelResponse.id then models else models ++ [model]

/-- `_append_provider_model_variants`. -/
def appendProviderModelVariants (models : List ModelResponse) (providerModelRef : String)
    (supportsThinking : Option Bool) : List ModelResponse :=
  let models :=
    if supportsThinking ≠ some false then
      appendUniqueModel models
        (discoveredModelResponse (gatewayModelId providerModelRef) providerModelRef)
    else models
  appendUniqueModel models (discoveredModelResponse (noThinkingGatewayModelId providerModelRef)
    (providerModelRef ++ " (no thinking)"))

/-- `_build_models_list_response`. -/
def buildModelsListResponse (settings : RouterSettings) (providerRegistry : Option ProviderRegistry) :
    ModelsListResponse :=
  let models := (configuredChatModelRefs settings).foldl (fun models ref =>
    let supportsThinking := match providerRegistry with
      | some registry => registry.cachedModelSupportsThinking ref.providerId ref.modelId
      | none => none
    appendProviderModelVariants models ref.modelRef supportsThinking) []
  let models := match providerRegistry with
    | some registry => registry.cachedPrefixedModelInfos.foldl (fun models info =>
        appendProviderModelVariants models info.modelId info.supportsThinking) models
    | none => models
  let models := supportedClaudeModels.foldl appendUniqueModel models
  ⟨models, models.head?.map ModelResponse.id, false, models.getLast?.map ModelResponse.id⟩

/-! ### What is asked -/

variable (settings : RouterSettings) (registry : Option ProviderRegistry)

/-- What is known of the thinking of a model. -/
def knownThinking (providerId modelId : String) : Option Bool :=
  registry.bind fun registry => registry.cachedModelSupportsThinking providerId modelId

/-- The models of the settings. -/
def configured : List ProviderRef :=
  [settings.model] ++ settings.modelOpus.toList ++ settings.modelSonnet.toList ++
    settings.modelHaiku.toList

/-- A model that the settings name, or that its provider has listed. -/
def Available (providerId modelId : String) : Prop :=
  (∃ model ∈ configured settings, model.ref = providerId ++ "/" ++ modelId ∧
      providerId ∈ supportedProviderIds) ∨
    ∃ lists info, registry = some lists ∧ providerId ∈ supportedProviderIds ∧
      (lists.infosOf providerId).infos.get? modelId = some info

/-- The id under which a model is advertised, with or without thinking. -/
def advertisedId (force : Option Bool) (providerModelRef : String) : String :=
  if force = some false then noThinkingGatewayModelId providerModelRef
  else gatewayModelId providerModelRef

/-- The model that an id stands for. -/
def targetOf (lower : String → String) (settings : RouterSettings) (id : String) (force : Option Bool)
    (providerId modelId : String) : ResolvedModel where
  originalModel := id
  providerId := providerId
  providerModel := modelId
  providerModelRef := id
  thinkingEnabled := force.getD (resolveThinking lower settings modelId)

/-- **Requests that name the id go to the model**: those for token counts, and those for messages
where nothing but the name decides. -/
structure LeadsTo (lower : String → String) (settings : RouterSettings) (id : String)
    (force : Option Bool) (providerId modelId : String) : Prop where
  tokens : (resolveTokenCountRequest lower settings id).resolved =
    targetOf lower settings id force providerId modelId
  messages : SmartRoutingOff settings → ∀ memory (call : MessagesCall), call.model = id →
    (resolveMessagesRequest lower settings memory call).1.resolved =
      targetOf lower settings id force providerId modelId

variable {settings registry} {lower : String → String} {models : List ModelResponse}

/-! ### Ids that are made are read back -/

theorem noMark_gatewayModelIdPrefix : '/' ∉ gatewayModelIdPrefix.toList := by decide

theorem noMark_noThinkingGatewayModelIdPrefix : '/' ∉ noThinkingGatewayModelIdPrefix.toList := by decide

theorem mark_mem (front back : String) : '/' ∈ (front ++ "/" ++ back).toList := by
  simp

/-- **A gateway id is decoded as what it was made from.** -/
theorem decode_advertisedId {force : Option Bool} (known : force = none ∨ force = some false)
    {providerId modelId : String} (plain : '/' ∉ providerId.toList) (named : modelId ≠ "") :
    decodeGatewayModelId (advertisedId force (providerId ++ "/" ++ modelId)) =
      some ⟨providerId, modelId, force⟩ := by
  obtain ⟨inner, behind⟩ := before_behind_append plain modelId
  have marked := mark_mem providerId modelId
  rcases known with rfl | rfl
  · obtain ⟨outer, rest⟩ := before_behind_append noMark_gatewayModelIdPrefix (providerId ++ "/" ++ modelId)
    rw [advertisedId, if_neg (by decide), gatewayModelId, decodeGatewayModelId, if_pos (mark_mem _ _)]
    simp only [outer, rest, inner, behind, if_true]
    rw [if_pos ⟨marked, named⟩]
  · obtain ⟨outer, rest⟩ := before_behind_append noMark_noThinkingGatewayModelIdPrefix
      (providerId ++ "/" ++ modelId)
    rw [advertisedId, if_pos rfl, noThinkingGatewayModelId, decodeGatewayModelId, if_pos (mark_mem _ _)]
    simp only [outer, rest, inner, behind, if_true]
    rw [if_neg (by decide), if_pos ⟨marked, named⟩]

/-- **An id that is sent back leads to its model**, if it is no alias. -/
theorem leadsTo_advertisedId {force : Option Bool} (known : force = none ∨ force = some false)
    {providerId modelId : String} (supported : providerId ∈ supportedProviderIds) (named : modelId ≠ "")
    (noAlias : applyAliases settings (advertisedId force (providerId ++ "/" ++ modelId)) =
      advertisedId force (providerId ++ "/" ++ modelId)) :
    LeadsTo lower settings (advertisedId force (providerId ++ "/" ++ modelId)) force providerId modelId := by
  have resolved := decode_advertisedId known (noMark_of_supported supported) named
  have whole : resolve lower settings (advertisedId force (providerId ++ "/" ++ modelId)) =
      targetOf lower settings (advertisedId force (providerId ++ "/" ++ modelId)) force providerId
        modelId := by
    unfold resolve resolveName directProviderModel
    rw [noAlias, resolved]
    simp only [if_pos supported]
    rfl
  refine ⟨whole, fun off memory call same => ?_⟩
  rw [resolveMessagesRequest_eq off, same, noAlias]
  exact whole

/-- Ids are made from one model each. -/
theorem advertisedId_inj {force force' : Option Bool} {ref ref' : String}
    (same : advertisedId force ref = advertisedId force' ref') :
    (force = some false ↔ force' = some false) ∧ ref = ref' := by
  have thinking := before_behind_append noMark_gatewayModelIdPrefix
  have noThinking := before_behind_append noMark_noThinkingGatewayModelIdPrefix
  unfold advertisedId gatewayModelId noThinkingGatewayModelId at same
  have fronts := congrArg (Py.before '/') same
  have backs := congrArg (Py.behind '/') same
  split_ifs at fronts backs with first second second
  · rw [(noThinking ref).2, (noThinking ref').2] at backs
    exact ⟨iff_of_true first second, backs⟩
  · rw [(noThinking ref).1, (thinking ref').1] at fronts
    exact absurd fronts (by decide)
  · rw [(thinking ref).1, (noThinking ref').1] at fronts
    exact absurd fronts (by decide)
  · rw [(thinking ref).2, (thinking ref').2] at backs
    exact ⟨iff_of_false first second, backs⟩

/-! ### The configured models -/

theorem isSome_addSource (candidates : List (String × Option ProviderRef))
    (sourcesByRef : Dict String (List String)) (ref : String) :
    ((candidates.foldl addSource sourcesByRef).get? ref).isSome ↔
      (sourcesByRef.get? ref).isSome ∨ ∃ model, some model ∈ candidates.map Prod.snd ∧ model.ref = ref := by
  induction candidates generalizing sourcesByRef with
  | nil => simp
  | cons candidate rest ih =>
    rw [List.foldl_cons, ih]
    obtain ⟨source, _ | model⟩ := candidate
    · simp [addSource]
    · simp only [addSource, Dict.get?_set, List.map_cons, List.mem_cons, Option.some.injEq]
      by_cases same : ref = model.ref
      · simp [same]
      · simp [same, Ne.symm same]

/-- **The configured models are those of the settings**, each with its parts. -/
theorem exists_configuredRef_iff {ref : String} :
    (∃ found ∈ configuredChatModelRefs settings, found.modelRef = ref) ↔
      ∃ model ∈ configured settings, model.ref = ref := by
  have keys := isSome_addSource [("MODEL", some settings.model), ("MODEL_OPUS", settings.modelOpus),
    ("MODEL_SONNET", settings.modelSonnet), ("MODEL_HAIKU", settings.modelHaiku)] ∅ ref
  have same : ∀ model, some model ∈ [some settings.model, settings.modelOpus, settings.modelSonnet,
      settings.modelHaiku] ↔ model ∈ configured settings := by
    intro model
    simp [configured, eq_comm]
  simp only [List.map_cons, List.map_nil, same, Dict.get?_empty, Option.isSome_none,
    Bool.false_eq_true, false_or] at keys
  rw [← keys, Option.isSome_iff_exists]
  constructor
  · rintro ⟨found, member, rfl⟩
    obtain ⟨entry, inside, rfl⟩ := List.mem_map.mp member
    exact ⟨entry.2, (Dict.mem_entries_iff _).mp inside⟩
  · rintro ⟨sources, found⟩
    exact ⟨_, List.mem_map.mpr ⟨(ref, sources), (Dict.mem_entries_iff _).mpr found, rfl⟩, rfl⟩

/-- Each is split into its provider and its model. -/
theorem parts_of_mem {found : ConfiguredChatModelRef}
    (member : found ∈ configuredChatModelRefs settings) :
    found.providerId ∈ supportedProviderIds ∧
      found.modelRef = found.providerId ++ "/" ++ found.modelId := by
  obtain ⟨model, -, same⟩ := exists_configuredRef_iff.mp ⟨found, member, rfl⟩
  obtain ⟨entry, -, rfl⟩ := List.mem_map.mp member
  dsimp only at same
  rw [← same]
  exact ⟨model.supported, (before_append_behind model.prefixed).symm⟩

/-! ### The list in order -/

/-- What a model is listed as. -/
def variants (providerModelRef : String) (supportsThinking : Option Bool) : List ModelResponse :=
  (if supportsThinking ≠ some false then
    [discoveredModelResponse (gatewayModelId providerModelRef) providerModelRef] else []) ++
    [discoveredModelResponse (noThinkingGatewayModelId providerModelRef)
      (providerModelRef ++ " (no thinking)")]

/-- What there is to list: the configured models, the listed ones, Claude's. -/
def listed (settings : RouterSettings) (registry : Option ProviderRegistry) : List ModelResponse :=
  ((configuredChatModelRefs settings).flatMap fun ref =>
    variants ref.modelRef (knownThinking registry ref.providerId ref.modelId)) ++
    (registry.toList.flatMap fun lists => lists.cachedPrefixedModelInfos.flatMap fun info =>
      variants info.modelId info.supportsThinking) ++ supportedClaudeModels

theorem appendProviderModelVariants_eq (ref : String) (thinking : Option Bool) :
    appendProviderModelVariants models ref thinking = (variants ref thinking).foldl appendUniqueModel models := by
  unfold appendProviderModelVariants variants
  split_ifs <;> simp

/-- The list is what there is, each id once. -/
theorem data_eq : (buildModelsListResponse settings registry).data =
    (listed settings registry).foldl appendUniqueModel [] := by
  unfold buildModelsListResponse listed knownThinking
  cases registry with
  | none =>
    simp only [Option.bind_none, Option.toList_none, List.flatMap_nil, List.append_nil,
      List.foldl_append, List.foldl_flatMap, appendProviderModelVariants_eq]
  | some lists =>
    simp only [Option.bind_some, Option.toList_some, List.flatMap_cons, List.flatMap_nil,
      List.append_nil, List.foldl_append, List.foldl_flatMap, appendProviderModelVariants_eq]

theorem appendUniqueModel_nodup (distinct : (models.map ModelResponse.id).Nodup) (model : ModelResponse) :
    ((appendUniqueModel models model).map ModelResponse.id).Nodup := by
  unfold appendUniqueModel
  split_ifs with seen
  · exact distinct
  · rw [List.map_append, List.map_singleton, List.nodup_append]
    refine ⟨distinct, List.nodup_singleton _, ?_⟩
    rintro id inside other isNew rfl
    rw [List.mem_singleton] at isNew
    exact seen (isNew ▸ inside)

/-- **No id is listed twice, and none gets lost.** -/
theorem foldl_appendUniqueModel (more : List ModelResponse) (distinct : (models.map ModelResponse.id).Nodup) :
    ((more.foldl appendUniqueModel models).map ModelResponse.id).Nodup ∧
      (∀ id, id ∈ (more.foldl appendUniqueModel models).map ModelResponse.id ↔
        id ∈ (models ++ more).map ModelResponse.id) ∧
      more.foldl appendUniqueModel models ⊆ models ++ more := by
  induction more generalizing models with
  | nil => exact ⟨distinct, fun id => by simp, by simp⟩
  | cons model rest ih =>
    obtain ⟨nodup, same, within⟩ := ih (appendUniqueModel_nodup distinct model)
    refine ⟨nodup, fun id => (same id).trans ?_, fun entry member => ?_⟩
    · unfold appendUniqueModel
      split_ifs with seen
      · simp only [List.map_append, List.mem_append, List.map_cons, List.mem_cons]
        constructor
        · rintro (inside | inside)
          · exact .inl inside
          · exact .inr (.inr inside)
        · rintro (inside | rfl | inside)
          · exact .inl inside
          · exact .inl seen
          · exact .inr inside
      · simp
    · have inside := within member
      unfold appendUniqueModel at inside
      split_ifs at inside <;> simp only [List.mem_append, List.mem_cons] at inside ⊢
      · tauto
      · simpa [or_assoc] using inside

/-! ### What is listed -/

/-- The parts of a model are found again in its text. -/
theorem ref_parts_inj {provider provider' model model' : String} (plain : '/' ∉ provider.toList)
    (plain' : '/' ∉ provider'.toList) (same : provider ++ "/" ++ model = provider' ++ "/" ++ model') :
    provider = provider' ∧ model = model' := by
  have split := before_behind_append plain model
  have split' := before_behind_append plain' model'
  rw [same] at split
  exact ⟨split.1.symm.trans split'.1, split.2.symm.trans split'.2⟩

theorem mem_cachedPrefixedModelInfos {lists : ProviderRegistry} {info : ProviderModelInfo} :
    info ∈ lists.cachedPrefixedModelInfos ↔ ∃ providerId ∈ supportedProviderIds, ∃ modelId found,
      (lists.infosOf providerId).infos.get? modelId = some found ∧
        info = ⟨providerId ++ "/" ++ modelId, found.supportsThinking⟩ := by
  simp only [ProviderRegistry.cachedPrefixedModelInfos, List.mem_flatMap, List.mem_map,
    List.mem_mergeSort, Dict.mem_values_iff]
  constructor
  · rintro ⟨providerId, supported, found, ⟨modelId, inside⟩, rfl⟩
    have same := (lists.infosOf providerId).keyed modelId found inside
    exact ⟨providerId, supported, modelId, found, inside, by rw [same]⟩
  · rintro ⟨providerId, supported, modelId, found, inside, rfl⟩
    have same := (lists.infosOf providerId).keyed modelId found inside
    exact ⟨providerId, supported, found, ⟨modelId, inside⟩, by rw [same]⟩

theorem mem_variants_ids {id ref : String} {thinking : Option Bool} :
    id ∈ (variants ref thinking).map ModelResponse.id ↔
      (thinking ≠ some false ∧ id = advertisedId none ref) ∨ id = advertisedId (some false) ref := by
  unfold variants advertisedId discoveredModelResponse
  split_ifs <;> simp_all

/-- The ids that a model is listed under. -/
def ListedAs (registry : Option ProviderRegistry) (providerId modelId id : String) : Prop :=
  (knownThinking registry providerId modelId ≠ some false ∧
      id = advertisedId none (providerId ++ "/" ++ modelId)) ∨
    id = advertisedId (some false) (providerId ++ "/" ++ modelId)

/-- **What is listed is available, and what is available is listed.** -/
theorem mem_listed_ids {id : String} : id ∈ (listed settings registry).map ModelResponse.id ↔
    (∃ providerId modelId, Available settings registry providerId modelId ∧
      ListedAs registry providerId modelId id) ∨ id ∈ supportedClaudeModels.map ModelResponse.id := by
  unfold listed ListedAs
  simp only [List.map_append, List.mem_append, List.map_flatMap, List.mem_flatMap, mem_variants_ids,
    Option.mem_toList]
  refine or_congr_left ⟨?_, ?_⟩
  · rintro (⟨found, member, as⟩ | ⟨lists, isSome, info, member, as⟩)
    · obtain ⟨supported, parts⟩ := parts_of_mem member
      obtain ⟨model, inside, same⟩ := exists_configuredRef_iff.mp ⟨found, member, rfl⟩
      rw [parts] at as same
      exact ⟨found.providerId, found.modelId, .inl ⟨model, inside, same, supported⟩, as⟩
    · obtain ⟨providerId, supported, modelId, found, inside, rfl⟩ := mem_cachedPrefixedModelInfos.mp member
      refine ⟨providerId, modelId, .inr ⟨lists, found, isSome, supported, inside⟩, ?_⟩
      simpa [knownThinking, isSome, ProviderRegistry.cachedModelSupportsThinking, inside] using as
  · rintro ⟨providerId, modelId, ⟨model, inside, same, supported⟩ | ⟨lists, found, isSome, supported, inside⟩, as⟩
    · obtain ⟨ref, member, isRef⟩ := exists_configuredRef_iff.mpr ⟨model, inside, same⟩
      obtain ⟨supported', parts⟩ := parts_of_mem member
      obtain ⟨rfl, rfl⟩ := ref_parts_inj (noMark_of_supported supported')
        (noMark_of_supported supported) (parts.symm.trans isRef)
      refine .inl ⟨ref, member, ?_⟩
      rw [parts]
      exact as
    · refine .inr ⟨lists, isSome, _, mem_cachedPrefixedModelInfos.mpr
        ⟨providerId, supported, modelId, found, inside, rfl⟩, ?_⟩
      simpa [knownThinking, isSome, ProviderRegistry.cachedModelSupportsThinking, inside] using as

/-- An available model has a provider that there is. -/
theorem Available.supported {providerId modelId : String}
    (available : Available settings registry providerId modelId) : providerId ∈ supportedProviderIds := by
  rcases available with ⟨_, _, _, supported⟩ | ⟨_, _, _, supported, _⟩
  · exact supported
  · exact supported

/-- No model of Claude's has the id of another one. -/
theorem advertisedId_notMem (force : Option Bool) (ref : String) :
    advertisedId force ref ∉ supportedClaudeModels.map ModelResponse.id := by
  have plain : ∀ id ∈ supportedClaudeModels.map ModelResponse.id, '/' ∉ id.toList := by decide
  intro member
  refine plain _ member ?_
  unfold advertisedId gatewayModelId noThinkingGatewayModelId
  split_ifs <;> exact mark_mem _ _

/-- **The list of models.** No id is listed twice; an available model is listed without thinking, and
with it unless it is known to have none; and whatever id of the list is not one of Claude's and no
alias leads to the available model that it stands for. -/
theorem advertised_models_route (lower : String → String) (settings : RouterSettings)
    (registry : Option ProviderRegistry) :
    let data := (buildModelsListResponse settings registry).data
    (data.map ModelResponse.id).Nodup ∧
    (∀ providerId modelId, Available settings registry providerId modelId →
      advertisedId (some false) (providerId ++ "/" ++ modelId) ∈ data.map ModelResponse.id ∧
      (advertisedId none (providerId ++ "/" ++ modelId) ∈ data.map ModelResponse.id ↔
        knownThinking registry providerId modelId ≠ some false)) ∧
    ∀ entry ∈ data, entry.id ∈ supportedClaudeModels.map ModelResponse.id ∨
      ∃ force providerId modelId, Available settings registry providerId modelId ∧
        entry.id = advertisedId force (providerId ++ "/" ++ modelId) ∧
        (modelId ≠ "" → applyAliases settings entry.id = entry.id →
          LeadsTo lower settings entry.id force providerId modelId) := by
  obtain ⟨distinct, same, -⟩ :=
    @foldl_appendUniqueModel [] (listed settings registry) List.nodup_nil
  rw [← data_eq] at distinct same
  simp only [List.nil_append] at same
  refine ⟨distinct, fun providerId modelId available => ⟨?_, ?_⟩, fun entry member => ?_⟩
  · exact (same _).mpr (mem_listed_ids.mpr (.inl ⟨_, _, available, .inr rfl⟩))
  · rw [same, mem_listed_ids]
    constructor
    · rintro (⟨provider, model, found, ⟨thinks, made⟩ | made⟩ | isClaude)
      · obtain ⟨rfl, rfl⟩ := ref_parts_inj (noMark_of_supported available.supported)
          (noMark_of_supported found.supported) (advertisedId_inj made).2
        exact thinks
      · exact absurd (advertisedId_inj made).1 (by decide)
      · exact absurd isClaude (advertisedId_notMem none _)
    · exact fun thinks => .inl ⟨_, _, available, .inl ⟨thinks, rfl⟩⟩
  · have listed := mem_listed_ids.mp ((same entry.id).mp (List.mem_map_of_mem member))
    refine listed.symm.imp_right ?_
    rintro ⟨providerId, modelId, available, ⟨-, made⟩ | made⟩
    · refine ⟨none, providerId, modelId, available, made, fun named noAlias => ?_⟩
      rw [made] at noAlias ⊢
      exact leadsTo_advertisedId (.inl rfl) available.supported named noAlias
    · refine ⟨some false, providerId, modelId, available, made, fun named noAlias => ?_⟩
      rw [made] at noAlias ⊢
      exact leadsTo_advertisedId (.inr rfl) available.supported named noAlias

end Router

end ClaudeProxy
