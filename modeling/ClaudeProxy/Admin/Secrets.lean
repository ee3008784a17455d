/-
**Secrets stay behind the admin page** (`api/admin_config.py`, `config/provider_catalog.py`).

The page, the export and the preview of an env file are made of the settings, which hold the keys and
tokens of the providers.

* `loadConfigResponse`, `validateUpdates` — what the page is given, and the preview of a submission.
* `Unseen`, `SameButSecrets` — values that are told apart by no page, and configurations of such values.
* **`secrets_stay_hidden`** — configurations that differ in their secrets only, each of which is there in
  both, have the same page, the same export and, for submissions that differ likewise, the same preview.
-/

import ClaudeProxy.Admin.SaveCycle

namespace ClaudeProxy

namespace AdminConfig

/-! ### The providers' status -/

/-- `ProviderDescriptor`, as far as the status is made of it. -/
structure ProviderDescriptor where
  providerId : String
  credentialEnv : Option String
  defaultBaseUrl : Option String
  baseUrlAttr : Option String

def PROVIDER_CATALOG : List ProviderDescriptor := [
  ⟨"nvidia_nim", some "NVIDIA_NIM_API_KEY",
    some "https://integrate.api.nvidia.com/v1", none⟩,
  ⟨"open_router", some "OPENROUTER_API_KEY",
    some "https://openrouter.ai/api/v1", none⟩,
  ⟨"gemini", some "GEMINI_API_KEY",
    some "https://generativelanguage.googleapis.com/v1beta/openai/", none⟩,
  ⟨"deepseek", some "DEEPSEEK_API_KEY",
    some "https://api.deepseek.com/anthropic", none⟩,
  ⟨"mistral", some "MISTRAL_API_KEY",
    some "https://api.mistral.ai/v1", none⟩,
  ⟨"mistral_codestral", some "CODESTRAL_API_KEY",
    some "https://codestral.mistral.ai/v1", none⟩,
  ⟨"opencode", some "OPENCODE_API_KEY",
    some "https://opencode.ai/zen/v1", none⟩,
  ⟨"opencode_go", some "OPENCODE_API_KEY",
    some "https://opencode.ai/zen/go/v1", none⟩,
  ⟨"wafer", some "WAFER_API_KEY",
    some "https://pass.wafer.ai/v1", none⟩,
  ⟨"kimi", some "KIMI_API_KEY",
    some "https://api.moonshot.ai/anthropic/v1", none⟩,
  ⟨"cerebras", some "CEREBRAS_API_KEY",
    some "https://api.cerebras.ai/v1", none⟩,
  ⟨"groq", some "GROQ_API_KEY",
    some "https://api.groq.com/openai/v1", none⟩,
  ⟨"fireworks", some "FIREWORKS_API_KEY",
    some "https://api.fireworks.ai/inference/v1", none⟩,
  ⟨"zai", some "ZAI_API_KEY",
    some "https://api.z.ai/api/anthropic/v1", none⟩,
  ⟨"lmstudio", none,
    some "http://localhost:1234/v1", some "lm_studio_base_url"⟩,
  ⟨"llamacpp", none,
    some "http://localhost:8080/v1", some "llamacpp_base_url"⟩,
  ⟨"ollama", none,
    some "http://localhost:11434", some "ollama_base_url"⟩,
  ⟨"aerolink", some "AEROLINK_API_KEY",
    some "https://capi.aerolink.lat/v1", some "aerolink_base_url"⟩,
  ⟨"github_models", some "GITHUB_TOKEN",
    some "https://models.inference.ai.azure.com", none⟩,
  ⟨"openai", some "OPENAI_API_KEY",
    some "https://api.openai.com/v1", none⟩]

/-- The settings' attributes, by their keys. -/
def SETTINGS_ATTRS : List (String × String) := [
  ("NVIDIA_NIM_API_KEY", "nvidia_nim_api_key"), ("OPENROUTER_API_KEY", "open_router_api_key"),
  ("MISTRAL_API_KEY", "mistral_api_key"), ("CODESTRAL_API_KEY", "codestral_api_key"),
  ("DEEPSEEK_API_KEY", "deepseek_api_key"), ("KIMI_API_KEY", "kimi_api_key"),
  ("WAFER_API_KEY", "wafer_api_key"), ("OPENCODE_API_KEY", "opencode_api_key"),
  ("ZAI_API_KEY", "zai_api_key"), ("FIREWORKS_API_KEY", "fireworks_api_key"),
  ("GEMINI_API_KEY", "gemini_api_key"), ("GROQ_API_KEY", "groq_api_key"),
  ("CEREBRAS_API_KEY", "cerebras_api_key"), ("AEROLINK_API_KEY", "aerolink_api_key"),
  ("AEROLINK_API_KEY_OPUS", "aerolink_api_key_opus"),
  ("AEROLINK_API_KEY_SONNET", "aerolink_api_key_sonnet"),
  ("AEROLINK_API_KEY_HAIKU", "aerolink_api_key_haiku"),
  ("AEROLINK_BASE_URL", "aerolink_base_url"), ("LM_STUDIO_BASE_URL", "lm_studio_base_url"),
  ("LLAMACPP_BASE_URL", "llamacpp_base_url"), ("OLLAMA_BASE_URL", "ollama_base_url"),
  ("NVIDIA_NIM_PROXY", "nvidia_nim_proxy"), ("OPENROUTER_PROXY", "open_router_proxy"),
  ("MISTRAL_PROXY", "mistral_proxy"), ("CODESTRAL_PROXY", "codestral_proxy"),
  ("LMSTUDIO_PROXY", "lmstudio_proxy"), ("LLAMACPP_PROXY", "llamacpp_proxy"),
  ("KIMI_PROXY", "kimi_proxy"), ("WAFER_PROXY", "wafer_proxy"),
  ("OPENCODE_PROXY", "opencode_proxy"), ("OPENCODE_GO_PROXY", "opencode_go_proxy"),
  ("ZAI_PROXY", "zai_proxy"), ("FIREWORKS_PROXY", "fireworks_proxy"),
  ("GEMINI_PROXY", "gemini_proxy"), ("GROQ_PROXY", "groq_proxy"),
  ("CEREBRAS_PROXY", "cerebras_proxy"), ("AEROLINK_PROXY", "aerolink_proxy"),
  ("GITHUB_TOKEN", "github_token"), ("GITHUB_MODELS_PROXY", "github_models_proxy"),
  ("OPENAI_API_KEY", "openai_api_key"), ("OPENAI_PROXY", "openai_proxy"), ("MODEL", "model"),
  ("MODEL_OPUS", "model_opus"), ("MODEL_SONNET", "model_sonnet"), ("MODEL_HAIKU", "model_haiku"),
  ("FALLBACK_MODEL", "fallback_model"), ("FALLBACK_CHAIN", "fallback_chain"),
  ("PROVIDER_TIMEOUT", "provider_timeout"), ("HEARTBEAT_INTERVAL", "heartbeat_interval"),
  ("BLACKOUT_WINDOWS", "blackout_windows"), ("ENABLE_MODEL_THINKING", "enable_model_thinking"),
  ("ENABLE_OPUS_THINKING", "enable_opus_thinking"),
  ("ENABLE_SONNET_THINKING", "enable_sonnet_thinking"),
  ("ENABLE_HAIKU_THINKING", "enable_haiku_thinking"),
  ("ANTHROPIC_AUTH_TOKEN", "anthropic_auth_token"),
  ("PROVIDER_RATE_LIMIT", "provider_rate_limit"),
  ("PROVIDER_RATE_WINDOW", "provider_rate_window"),
  ("PROVIDER_MAX_CONCURRENCY", "provider_max_concurrency"),
  ("HTTP_READ_TIMEOUT", "http_read_timeout"), ("HTTP_WRITE_TIMEOUT", "http_write_timeout"),
  ("HTTP_CONNECT_TIMEOUT", "http_connect_timeout"), ("HOST", "host"), ("PORT", "port"),
  ("MESSAGING_PLATFORM", "messaging_platform"), ("MESSAGING_RATE_LIMIT", "messaging_rate_limit"),
  ("MESSAGING_RATE_WINDOW", "messaging_rate_window"),
  ("TELEGRAM_BOT_TOKEN", "telegram_bot_token"),
  ("ALLOWED_TELEGRAM_USER_ID", "allowed_telegram_user_id"),
  ("DISCORD_BOT_TOKEN", "discord_bot_token"),
  ("ALLOWED_DISCORD_CHANNELS", "allowed_discord_channels"), ("ALLOWED_DIR", "allowed_dir"),
  ("MAX_MESSAGE_LOG_ENTRIES_PER_CHAT", "max_message_log_entries_per_chat"),
  ("VOICE_NOTE_ENABLED", "voice_note_enabled"), ("WHISPER_DEVICE", "whisper_device"),
  ("WHISPER_MODEL", "whisper_model"), ("HF_TOKEN", "hf_token"),
  ("FAST_PREFIX_DETECTION", "fast_prefix_detection"),
  ("ENABLE_NETWORK_PROBE_MOCK", "enable_network_probe_mock"),
  ("ENABLE_TITLE_GENERATION_SKIP", "enable_title_generation_skip"),
  ("ENABLE_SUGGESTION_MODE_SKIP", "enable_suggestion_mode_skip"),
  ("ENABLE_FILEPATH_EXTRACTION_MOCK", "enable_filepath_extraction_mock"),
  ("ENABLE_WEB_SERVER_TOOLS", "enable_web_server_tools"),
  ("WEB_FETCH_ALLOWED_SCHEMES", "web_fetch_allowed_schemes"),
  ("WEB_FETCH_ALLOW_PRIVATE_NETWORKS", "web_fetch_allow_private_networks"),
  ("DEBUG_PLATFORM_EDITS", "debug_platform_edits"),
  ("DEBUG_SUBAGENT_STACK", "debug_subagent_stack"),
  ("LOG_RAW_API_PAYLOADS", "log_raw_api_payloads"), ("LOG_RAW_SSE_EVENTS", "log_raw_sse_events"),
  ("LOG_API_ERROR_TRACEBACKS", "log_api_error_tracebacks"),
  ("LOG_RAW_MESSAGING_CONTENT", "log_raw_messaging_content"),
  ("LOG_RAW_CLI_DIAGNOSTICS", "log_raw_cli_diagnostics"),
  ("LOG_MESSAGING_ERROR_DETAILS", "log_messaging_error_details")]

/-- The settings attribute of a setting. -/
def settingsAttr (field : ConfigFieldSpec) : Option String := Assoc.get? field.key SETTINGS_ATTRS

/-- A provider's status: it is reached by an address, or with a credential. -/
inductive ProviderStatus where
  | atUrl (providerId status label baseUrl : String)
  | remote (providerId status label credentialEnv : String)

section Status

variable (manifest : Manifest) (state : Dict String ValueEntry)

/-- `_value_for_settings_attr`. -/
def valueForSettingsAttr (attr : String) : String :=
  match manifest.FIELDS.find? fun field => settingsAttr field = some attr with
  | some field => ((state.get? field.key).map ValueEntry.value).getD field.default
  | none => ""

/-- The status of one provider. -/
def providerStatus (descriptor : ProviderDescriptor) : ProviderStatus :=
  match descriptor.credentialEnv with
  | none =>
    let baseUrl := descriptor.baseUrlAttr.elim "" (valueForSettingsAttr manifest state)
    .atUrl descriptor.providerId
      (if Py.strip baseUrl = "" then "missing_url" else "unknown")
      (if Py.strip baseUrl = "" then "Missing URL" else "Not checked")
      (if baseUrl = "" then descriptor.defaultBaseUrl.getD "" else baseUrl)
  | some credentialEnv =>
    let value := ((state.get? credentialEnv).map ValueEntry.value).getD ""
    .remote descriptor.providerId
      (if Py.strip value = "" then "missing_key" else "configured")
      (if Py.strip value = "" then "Missing key" else "Configured")
      credentialEnv

/-- `provider_config_status`. -/
def providerConfigStatus : List ProviderStatus :=
  PROVIDER_CATALOG.map (providerStatus manifest state)

end Status

/-! ### What leaves the proxy -/

/-- What `load_config_response` has to say of the settings. -/
structure ConfigResponse where
  fields : List FieldResponse
  providerStatus : List ProviderStatus

section Responses

variable (manifest : Manifest) (world : World)

/-- `load_config_response`. -/
def loadConfigResponse : ConfigResponse :=
  ⟨fieldResponses manifest world, providerConfigStatus manifest (loadValueState manifest world)⟩

/-- The `env_preview` of `validate_updates` and `write_managed_env`. -/
def envPreview (strOf : Json → String) (values : List (String × Json)) : String :=
  renderEnvFile manifest (targetValuesWithUpdates manifest world strOf values) true

end Responses

/-! ### Values that are not told apart -/

/-- Two values that no page tells apart: those of a secret that is there. -/
def Unseen (field : ConfigFieldSpec) (value value' : String) : Prop :=
  value = value' ∨
    (field.secret = true ∧ value ≠ "" ∧ value' ≠ "" ∧ (Py.strip value = "" ↔ Py.strip value' = ""))

/-- Two entries of the same source that no page tells apart. -/
structure UnseenEntry (field : ConfigFieldSpec) (entry entry' : ValueEntry) : Prop where
  source : entry.source = entry'.source
  value : Unseen field entry.value entry'.value

/-- Two configurations that differ in their secrets only. -/
structure SameButSecrets (manifest : Manifest) (world world' : World) : Prop where
  process : ∀ field ∈ manifest.FIELDS,
    Option.Rel (Unseen field) (world.environ field.key) (world'.environ field.key)
  explicitEnv : ∀ field ∈ manifest.FIELDS, Option.Rel (Unseen field)
    ((dotenvValuesFromFile world world.explicitEnv).get? field.key)
    ((dotenvValuesFromFile world' world'.explicitEnv).get? field.key)
  managedEnv : ∀ field ∈ manifest.FIELDS, Option.Rel (Unseen field)
    ((dotenvValuesFromFile world world.managedEnv).get? field.key)
    ((dotenvValuesFromFile world' world'.managedEnv).get? field.key)
  repoEnv : ∀ field ∈ manifest.FIELDS, Option.Rel (Unseen field)
    ((dotenvValuesFromFile world world.repoEnv).get? field.key)
    ((dotenvValuesFromFile world' world'.repoEnv).get? field.key)
  template : ∀ field ∈ manifest.FIELDS,
    Unseen field (templateValue manifest world field) (templateValue manifest world' field)
  managed : (dotenvValuesFromFile world world.managedEnv).entries = [] ↔
    (dotenvValuesFromFile world' world'.managedEnv).entries = []

theorem Unseen.refl (field : ConfigFieldSpec) (value : String) : Unseen field value value := .inl rfl

namespace Unseen

variable {field : ConfigFieldSpec} {value value' : String}

theorem displayed (unseen : Unseen field value value') :
    displayValue field value = displayValue field value' := by
  rcases unseen with rfl | ⟨secret, some_, some_', -⟩
  · rfl
  · rw [displayValue, displayValue, if_pos ⟨secret, some_⟩, if_pos ⟨secret, some_'⟩]

theorem blank_iff (unseen : Unseen field value value') : Py.strip value = "" ↔ Py.strip value' = "" := by
  rcases unseen with rfl | ⟨-, -, -, blank⟩
  · exact Iff.rfl
  · exact blank

theorem eq_of_plain (unseen : Unseen field value value') (plain : field.secret = false) :
    value = value' := by
  rcases unseen with rfl | ⟨secret, -⟩
  · rfl
  · rw [plain] at secret
    cases secret

end Unseen

section Same

variable {manifest : Manifest} {world world' : World} {field : ConfigFieldSpec}

/-- **Every setting comes from the same source**, with a value that is not told apart. -/
theorem SameButSecrets.entry (same : SameButSecrets manifest world world')
    (member : field ∈ manifest.FIELDS) :
    UnseenEntry field (entryOf manifest world field) (entryOf manifest world' field) := by
  have layered {values values' : Option String} (source : SourceType)
      (related : Option.Rel (Unseen field) values values') :
      Option.Rel (UnseenEntry field) (values.map fun value => ⟨value, source⟩)
        (values'.map fun value => ⟨value, source⟩) := by
    cases related with
    | none => exact .none
    | some unseen => exact .some ⟨rfl, unseen⟩
  have template : Option.Rel (Unseen field) ((templateValues manifest world).get? field.key)
      ((templateValues manifest world').get? field.key) := by
    rw [templateValues_get? member, templateValues_get? member]
    exact .some (same.template field member)
  have agree := Layers.topmost_congr (.cons (layered .process (same.process field member))
    (.cons (layered .explicitEnvFile (same.explicitEnv field member))
      (.cons (layered .managedEnv (same.managedEnv field member))
        (.cons (layered .repoEnv (same.repoEnv field member))
          (.cons (layered .template template) .nil)))))
  have here := @topmost_layers manifest world field member
  have there := @topmost_layers manifest world' field member
  unfold layers layerOf at here there
  rw [here, there] at agree
  cases agree with
  | some related => exact related

/-- A setting as the page shows it. -/
theorem SameButSecrets.fieldResponse (same : SameButSecrets manifest world world')
    (member : field ∈ manifest.FIELDS) :
    fieldResponse (loadValueState manifest world) field =
      fieldResponse (loadValueState manifest world') field := by
  obtain ⟨source, value⟩ := same.entry member
  unfold AdminConfig.fieldResponse
  rw [get?_loadValueState member, get?_loadValueState member, Option.getD_some, Option.getD_some]
  simp only [source, value.displayed, ne_eq, value.blank_iff]

theorem SameButSecrets.fieldResponses (same : SameButSecrets manifest world world') :
    fieldResponses manifest world = fieldResponses manifest world' :=
  List.map_congr_left fun _ member => same.fieldResponse member

/-- What a save keeps is not told apart. -/
theorem SameButSecrets.kept (same : SameButSecrets manifest world world')
    (member : field ∈ manifest.FIELDS) :
    ∃ kept kept', (keptValues manifest world).get? field.key = some kept ∧
      (keptValues manifest world').get? field.key = some kept' ∧ Unseen field kept kept' := by
  obtain ⟨source, value⟩ := same.entry member
  have template := same.template field member
  refine ⟨_, _, get?_keptValues member, get?_keptValues member, ?_⟩
  by_cases managed : (dotenvValuesFromFile world world.managedEnv).entries = []
  · rw [if_pos managed, if_pos (same.managed.mp managed), ← source]
    split_ifs
    · exact template
    · exact value
  · rw [if_neg managed, if_neg (mt same.managed.mpr managed)]
    have stored := same.managedEnv field member
    generalize (dotenvValuesFromFile world world.managedEnv).get? field.key = value at stored ⊢
    generalize (dotenvValuesFromFile world' world'.managedEnv).get? field.key = value' at stored ⊢
    cases stored with
    | none => exact template
    | some unseen => exact unseen

/-- **What a save would write** is not told apart, for submissions that are not. -/
theorem SameButSecrets.target (same : SameButSecrets manifest world world')
    (member : field ∈ manifest.FIELDS) {strOf : Json → String} {values values' : List (String × Json)}
    (distinct : (values.map Prod.fst).Nodup) (distinct' : (values'.map Prod.fst).Nodup)
    (submitted : Option.Rel (Unseen field) (submitted? strOf values field)
      (submitted? strOf values' field)) :
    Unseen field (valueOf (targetValuesWithUpdates manifest world strOf values) field)
      (valueOf (targetValuesWithUpdates manifest world' strOf values') field) := by
  obtain ⟨kept, kept', isKept, isKept', unseen⟩ := same.kept member
  rw [valueOf_target member distinct isKept, valueOf_target member distinct' isKept',
    ← (same.entry member).source]
  split_ifs
  · exact unseen
  · generalize submitted? strOf values field = value at submitted ⊢
    generalize submitted? strOf values' field = value' at submitted ⊢
    cases submitted with
    | none => exact unseen
    | some typed => exact typed

/-- A masked line. -/
theorem fieldLine_of_unseen {values values' : Dict String String}
    (unseen : Unseen field (valueOf values field) (valueOf values' field)) :
    fieldLine values true field = fieldLine values' true field := by
  unfold fieldLine
  rcases unseen with same | ⟨secret, some_, some_', -⟩
  · rw [same]
  · simp [secret, some_, some_']

/-- **A masked env file** of values that are not told apart. -/
theorem renderEnvFile_of_unseen {values values' : Dict String String}
    (unseen : ∀ field ∈ manifest.FIELDS, Unseen field (valueOf values field) (valueOf values' field)) :
    renderEnvFile manifest values true = renderEnvFile manifest values' true := by
  have sections : sectionLines manifest values true = sectionLines manifest values' true := by
    funext group
    unfold sectionLines
    congr 2
    refine List.map_congr_left fun field inside => fieldLine_of_unseen (unseen field ?_)
    exact (mem_fieldsBySection.mp inside).1
  unfold renderEnvFile envLines
  rw [sections]

/-- The status of a provider tells whether a credential is there, and shows an address. -/
theorem SameButSecrets.providerStatus (same : SameButSecrets manifest world world')
    {descriptor : ProviderDescriptor}
    (credential : ∀ key, descriptor.credentialEnv = some key →
      ∃ field ∈ manifest.FIELDS, field.key = key)
    (address : ∀ attr, descriptor.baseUrlAttr = some attr → ∀ field ∈ manifest.FIELDS,
      settingsAttr field = some attr → field.secret = false) :
    providerStatus manifest (loadValueState manifest world) descriptor =
      providerStatus manifest (loadValueState manifest world') descriptor := by
  have shown : ∀ attr, descriptor.baseUrlAttr = some attr →
      valueForSettingsAttr manifest (loadValueState manifest world) attr =
        valueForSettingsAttr manifest (loadValueState manifest world') attr := by
    intro attr isAttr
    unfold valueForSettingsAttr
    cases found : manifest.FIELDS.find? fun field => settingsAttr field = some attr with
    | none => rfl
    | some field =>
      have member := List.mem_of_find?_eq_some found
      have named : settingsAttr field = some attr := by simpa using List.find?_some found
      have value := (same.entry member).value.eq_of_plain (address attr isAttr field member named)
      dsimp only
      rw [get?_loadValueState member, get?_loadValueState member, Option.map_some, Option.map_some,
        value]
  have sameUrl : descriptor.baseUrlAttr.elim ""
        (valueForSettingsAttr manifest (loadValueState manifest world)) =
      descriptor.baseUrlAttr.elim ""
        (valueForSettingsAttr manifest (loadValueState manifest world')) := by
    cases isAttr : descriptor.baseUrlAttr with
    | none => rw [Option.elim_none, Option.elim_none]
    | some attr => exact shown attr isAttr
  unfold AdminConfig.providerStatus
  cases isKey : descriptor.credentialEnv with
  | none =>
    dsimp only
    rw [sameUrl]
  | some key =>
    obtain ⟨field, member, rfl⟩ := credential key isKey
    simp only [get?_loadValueState member, Option.map_some, Option.getD_some,
      (same.entry member).value.blank_iff]

end Same

/-! ### The catalog -/

theorem credentials_are_settings : ∀ descriptor ∈ PROVIDER_CATALOG,
    ∀ key, descriptor.credentialEnv = some key → ∃ field ∈ FIELDS, field.key = key := by
  have known : PROVIDER_CATALOG.all (fun descriptor => descriptor.credentialEnv.all fun key =>
      FIELDS.any fun field => field.key = key) = true := by decide +kernel
  intro descriptor member key isKey
  have here := List.all_eq_true.mp known descriptor member
  rw [isKey, Option.all_some, List.any_eq_true] at here
  obtain ⟨field, inside, same⟩ := here
  exact ⟨field, inside, of_decide_eq_true same⟩

theorem addresses_are_plain : ∀ descriptor ∈ PROVIDER_CATALOG,
    ∀ attr, descriptor.baseUrlAttr = some attr → ∀ field ∈ FIELDS,
      settingsAttr field = some attr → field.secret = false := by
  -- each secret's attribute is looked up once, and no provider has it as its address
  have plain : FIELDS.all (fun field => !field.secret || (settingsAttr field).all fun attr =>
      PROVIDER_CATALOG.all fun descriptor => descriptor.baseUrlAttr ≠ some attr) = true := by
    decide +kernel
  intro descriptor member attr isAttr field inside named
  have here := List.all_eq_true.mp plain field inside
  rw [Bool.or_eq_true, Bool.not_eq_true', named, Option.all_some] at here
  refine here.resolve_right fun all => ?_
  exact of_decide_eq_true (List.all_eq_true.mp all descriptor member) isAttr

/-- The page of configurations that differ in their secrets only. -/
theorem SameButSecrets.loadConfigResponse {world world' : World}
    (same : SameButSecrets adminManifest world world') :
    loadConfigResponse adminManifest world = loadConfigResponse adminManifest world' := by
  have statuses : providerConfigStatus adminManifest (loadValueState adminManifest world) =
      providerConfigStatus adminManifest (loadValueState adminManifest world') :=
    List.map_congr_left fun descriptor member => same.providerStatus
      (credentials_are_settings descriptor member) (addresses_are_plain descriptor member)
  exact congrArg₂ ConfigResponse.mk same.fieldResponses statuses

/-- **No secret leaves by the admin page.** Configurations that differ in their secrets only have the
same page, with the providers' status, the same export, and, for submissions that differ likewise, the
same preview of the env file. -/
theorem secrets_stay_hidden (world world' : World) (same : SameButSecrets adminManifest world world')
    (strOf : Json → String) (values values' : List (String × Json))
    (distinct : (values.map Prod.fst).Nodup) (distinct' : (values'.map Prod.fst).Nodup)
    (submitted : ∀ field ∈ adminManifest.FIELDS,
      Option.Rel (Unseen field) (submitted? strOf values field) (submitted? strOf values' field)) :
    loadConfigResponse adminManifest world = loadConfigResponse adminManifest world' ∧
      exportConfig adminManifest world = exportConfig adminManifest world' ∧
      envPreview adminManifest world strOf values = envPreview adminManifest world' strOf values' := by
  refine ⟨same.loadConfigResponse, ?_, ?_⟩
  · exact congrArg (List.map fun field : FieldResponse => (field.key, Json.str field.value))
      same.fieldResponses
  · exact renderEnvFile_of_unseen fun field member =>
      same.target member distinct distinct' (submitted field member)

/-- Nothing but a key of OpenAI is configured. -/
def withOpenaiKey (key : String) : World where
  environ name := if name = "OPENAI_API_KEY" then some key else none
  templateText := ""
  repoEnv := none
  managedEnv := none
  explicitEnv := none

theorem secret_of_key {field : ConfigFieldSpec} (member : field ∈ adminManifest.FIELDS)
    (named : field.key = "OPENAI_API_KEY" ∨ field.key = "GITHUB_TOKEN") : field.secret = true := by
  have all : FIELDS.all (fun field =>
      !(field.key = "OPENAI_API_KEY" || field.key = "GITHUB_TOKEN") || field.secret) = true := by
    decide +kernel
  have here := List.all_eq_true.mp all field member
  rcases named with named | named <;> simpa [named] using here

theorem withOpenaiKey_same :
    SameButSecrets adminManifest (withOpenaiKey "sk-one") (withOpenaiKey "sk-two") where
  process field member := by
    show Option.Rel _ (if field.key = "OPENAI_API_KEY" then some "sk-one" else none)
      (if field.key = "OPENAI_API_KEY" then some "sk-two" else none)
    split_ifs with named
    · exact .some (.inr ⟨secret_of_key member (.inl named), by decide, by decide, by decide +kernel⟩)
    · exact .none
  explicitEnv _ _ := .none
  managedEnv _ _ := .none
  repoEnv _ _ := .none
  template field _ := .inl rfl
  managed := iff_of_true rfl rfl

/-- Two keys, and two tokens that are typed in, with one page and one preview. -/
theorem withOpenaiKey_hidden :
    loadConfigResponse adminManifest (withOpenaiKey "sk-one") =
        loadConfigResponse adminManifest (withOpenaiKey "sk-two") ∧
      exportConfig adminManifest (withOpenaiKey "sk-one") =
        exportConfig adminManifest (withOpenaiKey "sk-two") ∧
      envPreview adminManifest (withOpenaiKey "sk-one") (fun _ => "") [("GITHUB_TOKEN", .str "one")] =
        envPreview adminManifest (withOpenaiKey "sk-two") (fun _ => "") [("GITHUB_TOKEN", .str "two")] := by
  refine secrets_stay_hidden _ _ withOpenaiKey_same (fun _ => "") _ _ (by decide) (by decide)
    fun field member => ?_
  unfold submitted?
  by_cases named : "GITHUB_TOKEN" = field.key
  · simp only [Assoc.get?, named, if_true, Option.bind_some]
    rw [if_neg (by simp [MASKED_SECRET]), if_neg (by simp [MASKED_SECRET])]
    exact .some (.inr ⟨secret_of_key member (.inr named.symm), by decide, by decide, by decide +kernel⟩)
  · simp only [Assoc.get?, named, if_false, Option.bind_none]
    exact .none

end AdminConfig

end ClaudeProxy
