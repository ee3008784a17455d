/-
**The managed env file of the admin UI** (`api/admin_config.py`).

The manifest lists the settings, each in a section. `renderEnvFile` writes their values as one env
file; `dotenvValuesFromText` reads such a file; `targetValuesWithUpdates` is what the next write
writes, and `writeManagedEnv` writes it.

* `Manifest`, `adminManifest` — the settings, and what the file format needs of their keys;
* `renderEnvFile_text` — the file is its lines;
* `fieldLine_reads`, `fieldLine_misreads` — a line is read back unless its value begins with a single
  quote and is written without double ones;
* `second_write` — values that are read back are written again;
* **`renderEnvFile_exact`** — when the values of a file are those it was written with.
-/

import ClaudeProxy.Json
import ClaudeProxy.Library.Dotenv

namespace ClaudeProxy

namespace AdminConfig

open Dotenv (PlainKey Reads Misreads Binding)

/-! ### The manifest -/

/-- `ConfigSectionSpec`. -/
structure ConfigSectionSpec where
  sectionId : String
  label : String
  deriving DecidableEq

/-- `ConfigFieldSpec`. -/
structure ConfigFieldSpec where
  key : String
  sectionId : String
  default : String
  secret : Bool
  deriving DecidableEq

/-- A label that can stand in a comment. -/
structure PlainLabel (label : List Char) : Prop where
  oneLine : ∀ char ∈ label, Dotenv.isBreak char = false
  visible : ∃ last ∈ label.getLast?, Py.isSpace last = false
  assignsNothing : '=' ∉ label

instance (label : List Char) : Decidable (PlainLabel label) :=
  decidable_of_iff (label.all (!Dotenv.isBreak ·) = true ∧
      label.getLast?.any (!Py.isSpace ·) = true ∧ '=' ∉ label)
    ⟨fun plain => ⟨by simpa using plain.1, by simpa [Option.any_eq_true] using plain.2.1, plain.2.2⟩,
      fun plain => ⟨by simpa using plain.oneLine, by simpa [Option.any_eq_true] using plain.visible,
        plain.assignsNothing⟩⟩

/-- `SECTIONS` and `FIELDS`: every key is written once, in a section that is listed. -/
structure Manifest where
  SECTIONS : List ConfigSectionSpec
  FIELDS : List ConfigFieldSpec
  distinctSections : (SECTIONS.map ConfigSectionSpec.sectionId).Nodup
  plainLabels : ∀ group ∈ SECTIONS, PlainLabel group.label.toList
  distinctKeys : (FIELDS.map ConfigFieldSpec.key).Nodup
  plainKeys : ∀ field ∈ FIELDS, PlainKey field.key.toList
  listed : ∀ field ∈ FIELDS, field.sectionId ∈ SECTIONS.map ConfigSectionSpec.sectionId

/-- The sections of the admin UI. -/
def SECTIONS : List ConfigSectionSpec := [
  ⟨"providers", "Providers"⟩,
  ⟨"models", "Model Routing"⟩,
  ⟨"thinking", "Thinking"⟩,
  ⟨"runtime", "Runtime"⟩,
  ⟨"messaging", "Messaging"⟩,
  ⟨"voice", "Voice"⟩,
  ⟨"web_tools", "Web Tools"⟩,
  ⟨"diagnostics", "Diagnostics"⟩,
  ⟨"smoke", "Smoke Tests"⟩]

/-- Its settings. -/
def FIELDS : List ConfigFieldSpec := [
  ⟨"NVIDIA_NIM_API_KEY", "providers", "", true⟩,
  ⟨"OPENROUTER_API_KEY", "providers", "", true⟩,
  ⟨"MISTRAL_API_KEY", "providers", "", true⟩,
  ⟨"CODESTRAL_API_KEY", "providers", "", true⟩,
  ⟨"DEEPSEEK_API_KEY", "providers", "", true⟩,
  ⟨"KIMI_API_KEY", "providers", "", true⟩,
  ⟨"WAFER_API_KEY", "providers", "", true⟩,
  ⟨"OPENCODE_API_KEY", "providers", "", true⟩,
  ⟨"ZAI_API_KEY", "providers", "", true⟩,
  ⟨"FIREWORKS_API_KEY", "providers", "", true⟩,
  ⟨"GEMINI_API_KEY", "providers", "", true⟩,
  ⟨"GROQ_API_KEY", "providers", "", true⟩,
  ⟨"CEREBRAS_API_KEY", "providers", "", true⟩,
  ⟨"AEROLINK_API_KEY", "providers", "", true⟩,
  ⟨"AEROLINK_API_KEY_OPUS", "providers", "", true⟩,
  ⟨"AEROLINK_API_KEY_SONNET", "providers", "", true⟩,
  ⟨"AEROLINK_API_KEY_HAIKU", "providers", "", true⟩,
  ⟨"AEROLINK_BASE_URL", "providers", "https://capi.aerolink.lat/v1", false⟩,
  ⟨"LM_STUDIO_BASE_URL", "providers", "http://localhost:1234/v1", false⟩,
  ⟨"LLAMACPP_BASE_URL", "providers", "http://localhost:8080/v1", false⟩,
  ⟨"OLLAMA_BASE_URL", "providers", "http://localhost:11434", false⟩,
  ⟨"NVIDIA_NIM_PROXY", "providers", "", true⟩,
  ⟨"OPENROUTER_PROXY", "providers", "", true⟩,
  ⟨"MISTRAL_PROXY", "providers", "", true⟩,
  ⟨"CODESTRAL_PROXY", "providers", "", true⟩,
  ⟨"LMSTUDIO_PROXY", "providers", "", true⟩,
  ⟨"LLAMACPP_PROXY", "providers", "", true⟩,
  ⟨"KIMI_PROXY", "providers", "", true⟩,
  ⟨"WAFER_PROXY", "providers", "", true⟩,
  ⟨"OPENCODE_PROXY", "providers", "", true⟩,
  ⟨"OPENCODE_GO_PROXY", "providers", "", true⟩,
  ⟨"ZAI_PROXY", "providers", "", true⟩,
  ⟨"FIREWORKS_PROXY", "providers", "", true⟩,
  ⟨"GEMINI_PROXY", "providers", "", true⟩,
  ⟨"GROQ_PROXY", "providers", "", true⟩,
  ⟨"CEREBRAS_PROXY", "providers", "", true⟩,
  ⟨"AEROLINK_PROXY", "providers", "", true⟩,
  ⟨"GITHUB_TOKEN", "providers", "", true⟩,
  ⟨"GITHUB_MODELS_PROXY", "providers", "", true⟩,
  ⟨"OPENAI_API_KEY", "providers", "", true⟩,
  ⟨"OPENAI_PROXY", "providers", "", true⟩,
  ⟨"MODEL", "models", "nvidia_nim/nvidia/nemotron-3-super-120b-a12b", false⟩,
  ⟨"MODEL_OPUS", "models", "", false⟩,
  ⟨"MODEL_SONNET", "models", "", false⟩,
  ⟨"MODEL_HAIKU", "models", "", false⟩,
  ⟨"FALLBACK_MODEL", "models", "", false⟩,
  ⟨"FALLBACK_CHAIN", "models", "", false⟩,
  ⟨"PROVIDER_TIMEOUT", "models", "30.0", false⟩,
  ⟨"HEARTBEAT_INTERVAL", "models", "60", false⟩,
  ⟨"BLACKOUT_WINDOWS", "models", "", false⟩,
  ⟨"ENABLE_MODEL_THINKING", "thinking", "true", false⟩,
  ⟨"ENABLE_OPUS_THINKING", "thinking", "", false⟩,
  ⟨"ENABLE_SONNET_THINKING", "thinking", "", false⟩,
  ⟨"ENABLE_HAIKU_THINKING", "thinking", "", false⟩,
  ⟨"ANTHROPIC_AUTH_TOKEN", "runtime", "freecc", true⟩,
  ⟨"PROVIDER_RATE_LIMIT", "runtime", "1", false⟩,
  ⟨"PROVIDER_RATE_WINDOW", "runtime", "3", false⟩,
  ⟨"PROVIDER_MAX_CONCURRENCY", "runtime", "5", false⟩,
  ⟨"HTTP_READ_TIMEOUT", "runtime", "300", false⟩,
  ⟨"HTTP_WRITE_TIMEOUT", "runtime", "60", false⟩,
  ⟨"HTTP_CONNECT_TIMEOUT", "runtime", "60", false⟩,
  ⟨"HOST", "runtime", "0.0.0.0", false⟩,
  ⟨"PORT", "runtime", "8082", false⟩,
  ⟨"MESSAGING_PLATFORM", "messaging", "discord", false⟩,
  ⟨"MESSAGING_RATE_LIMIT", "messaging", "1", false⟩,
  ⟨"MESSAGING_RATE_WINDOW", "messaging", "1", false⟩,
  ⟨"TELEGRAM_BOT_TOKEN", "messaging", "", true⟩,
  ⟨"ALLOWED_TELEGRAM_USER_ID", "messaging", "", false⟩,
  ⟨"DISCORD_BOT_TOKEN", "messaging", "", true⟩,
  ⟨"ALLOWED_DISCORD_CHANNELS", "messaging", "", false⟩,
  ⟨"ALLOWED_DIR", "messaging", "", false⟩,
  ⟨"MAX_MESSAGE_LOG_ENTRIES_PER_CHAT", "messaging", "", false⟩,
  ⟨"VOICE_NOTE_ENABLED", "voice", "false", false⟩,
  ⟨"WHISPER_DEVICE", "voice", "nvidia_nim", false⟩,
  ⟨"WHISPER_MODEL", "voice", "openai/whisper-large-v3", false⟩,
  ⟨"HF_TOKEN", "voice", "", true⟩,
  ⟨"FAST_PREFIX_DETECTION", "runtime", "true", false⟩,
  ⟨"ENABLE_NETWORK_PROBE_MOCK", "runtime", "true", false⟩,
  ⟨"ENABLE_TITLE_GENERATION_SKIP", "runtime", "true", false⟩,
  ⟨"ENABLE_SUGGESTION_MODE_SKIP", "runtime", "true", false⟩,
  ⟨"ENABLE_FILEPATH_EXTRACTION_MOCK", "runtime", "true", false⟩,
  ⟨"ENABLE_WEB_SERVER_TOOLS", "web_tools", "true", false⟩,
  ⟨"WEB_FETCH_ALLOWED_SCHEMES", "web_tools", "http,https", false⟩,
  ⟨"WEB_FETCH_ALLOW_PRIVATE_NETWORKS", "web_tools", "false", false⟩,
  ⟨"DEBUG_PLATFORM_EDITS", "diagnostics", "false", false⟩,
  ⟨"DEBUG_SUBAGENT_STACK", "diagnostics", "false", false⟩,
  ⟨"LOG_RAW_API_PAYLOADS", "diagnostics", "false", false⟩,
  ⟨"LOG_RAW_SSE_EVENTS", "diagnostics", "false", false⟩,
  ⟨"LOG_API_ERROR_TRACEBACKS", "diagnostics", "false", false⟩,
  ⟨"LOG_RAW_MESSAGING_CONTENT", "diagnostics", "false", false⟩,
  ⟨"LOG_RAW_CLI_DIAGNOSTICS", "diagnostics", "false", false⟩,
  ⟨"LOG_MESSAGING_ERROR_DETAILS", "diagnostics", "false", false⟩,
  ⟨"FCC_SMOKE_MODEL_NVIDIA_NIM", "smoke", "", false⟩,
  ⟨"FCC_SMOKE_MODEL_OPEN_ROUTER", "smoke", "", false⟩,
  ⟨"FCC_SMOKE_MODEL_MISTRAL", "smoke", "", false⟩,
  ⟨"FCC_SMOKE_MODEL_MISTRAL_CODESTRAL", "smoke", "", false⟩,
  ⟨"FCC_SMOKE_MODEL_DEEPSEEK", "smoke", "", false⟩,
  ⟨"FCC_SMOKE_MODEL_LMSTUDIO", "smoke", "", false⟩,
  ⟨"FCC_SMOKE_MODEL_LLAMACPP", "smoke", "", false⟩,
  ⟨"FCC_SMOKE_MODEL_OLLAMA", "smoke", "", false⟩,
  ⟨"FCC_SMOKE_MODEL_KIMI", "smoke", "", false⟩,
  ⟨"FCC_SMOKE_MODEL_WAFER", "smoke", "", false⟩,
  ⟨"FCC_SMOKE_MODEL_OPENCODE", "smoke", "", false⟩,
  ⟨"FCC_SMOKE_MODEL_OPENCODE_GO", "smoke", "", false⟩,
  ⟨"FCC_SMOKE_MODEL_ZAI", "smoke", "", false⟩,
  ⟨"FCC_SMOKE_MODEL_FIREWORKS", "smoke", "", false⟩,
  ⟨"FCC_SMOKE_MODEL_GEMINI", "smoke", "", false⟩,
  ⟨"FCC_SMOKE_MODEL_GROQ", "smoke", "", false⟩,
  ⟨"FCC_SMOKE_MODEL_CEREBRAS", "smoke", "", false⟩,
  ⟨"FCC_SMOKE_NIM_MODELS", "smoke", "", false⟩,
  ⟨"FCC_SMOKE_NIM_EXTRA_MODELS", "smoke", "", false⟩,
  ⟨"FCC_SMOKE_OPENROUTER_FREE_MODELS", "smoke", "", false⟩,
  ⟨"FCC_SMOKE_OPENROUTER_FREE_EXTRA_MODELS", "smoke", "", false⟩]

/-- The manifest of the admin UI. -/
def adminManifest : Manifest where
  SECTIONS := SECTIONS
  FIELDS := FIELDS
  distinctSections := by decide +kernel
  plainLabels := by decide +kernel
  distinctKeys := by decide +kernel
  plainKeys := by
    have constants : ∀ field ∈ FIELDS, Dotenv.isConstant field.key = true := by decide +kernel
    exact fun field member => PlainKey.of_isConstant (constants field member)
  listed := by decide +kernel

/-- `MASKED_SECRET`. -/
def MASKED_SECRET : String := "********"

/-! ### The writer -/

/-- Whether a value is written in double quotes. -/
def needsQuotes (value : String) : Bool :=
  value.toList.any Py.isSpace ||
    ['"', '#', '=', '$'].any fun char => value.toList.contains char

/-- `_quote_env_value`. -/
def quoteEnvValue (value : String) : String :=
  if value = "" then ""
  else if needsQuotes value then
    "\"" ++ Py.replace '"' "\\\"" (Py.replace '\\' "\\\\" value) ++ "\""
  else value

namespace Manifest

variable (manifest : Manifest)

/-- `FIELD_BY_KEY`. -/
def fieldByKey (key : String) : Option ConfigFieldSpec :=
  manifest.FIELDS.find? fun field => field.key = key

/-- The settings of a section. -/
def fieldsBySection (sectionId : String) : List ConfigFieldSpec :=
  manifest.FIELDS.filter fun field => field.sectionId = sectionId

end Manifest

/-- `values.get(field.key, field.default)`. -/
def valueOf (values : Dict String String) (field : ConfigFieldSpec) : String :=
  (values.get? field.key).getD field.default

/-- The line of a setting. -/
def fieldLine (values : Dict String String) (maskSecrets : Bool) (field : ConfigFieldSpec) : String :=
  field.key ++ "=" ++ quoteEnvValue
    (if maskSecrets && field.secret && valueOf values field ≠ "" then MASKED_SECRET
      else valueOf values field)

section Render

variable (manifest : Manifest) (values : Dict String String) (maskSecrets : Bool)

/-- The lines of a section. -/
def sectionLines (group : ConfigSectionSpec) : List String :=
  ["# " ++ group.label] ++
    (manifest.fieldsBySection group.sectionId).map (fieldLine values maskSecrets) ++ [""]

/-- The lines of the file. -/
def envLines : List String :=
  ["# Managed by Free Claude Code /admin.", "# Edit in the server UI when possible.", ""] ++
    manifest.SECTIONS.flatMap (sectionLines manifest values maskSecrets)

/-- `render_env_file`. -/
def renderEnvFile : String :=
  Py.rstrip (Py.join "\n" (envLines manifest values maskSecrets)) ++ "\n"

end Render

/-! ### The readers -/

/-- `_dotenv_values_from_text`. -/
def dotenvValuesFromText (environ : String → Option String) (text : String) : Dict String String :=
  (Dotenv.dotenvValues environ text).map fun value => value.getD ""

/-- Where a value comes from. -/
inductive SourceType where
  | default
  | template
  | repoEnv
  | managedEnv
  | explicitEnvFile
  | process
  deriving DecidableEq

/-- `_is_locked_source`. -/
def isLockedSource (source : SourceType) : Bool :=
  source = .process || source = .explicitEnvFile

/-- What the functions read: the environment, the template, and the env files that are there. -/
structure World where
  environ : String → Option String
  templateText : String
  repoEnv : Option String
  managedEnv : Option String
  explicitEnv : Option String

/-- A setting's value and where it comes from. -/
structure ValueEntry where
  value : String
  source : SourceType
  deriving DecidableEq

/-- `values.setdefault(key, default)`. -/
def setDefault (values : Dict String String) (field : ConfigFieldSpec) : Dict String String :=
  if (values.get? field.key).isSome then values else values.set field.key field.default

section State

variable (manifest : Manifest) (world : World)

/-- `_dotenv_values_from_file`. The file is its text as it was decoded; the real reader opens it in text
mode, where `\r` and `\r\n` are read as `\n`, also inside of quotes. -/
def dotenvValuesFromFile (file : Option String) : Dict String String :=
  file.elim ∅ (dotenvValuesFromText world.environ)

/-- `template_values`. -/
def templateValues : Dict String String :=
  manifest.FIELDS.foldl setDefault (dotenvValuesFromText world.environ world.templateText)

/-- `configured_env_files`. -/
def configuredEnvFiles : List (SourceType × Option String) :=
  [(.repoEnv, world.repoEnv), (.managedEnv, world.managedEnv)] ++
    (world.explicitEnv.map fun text => (SourceType.explicitEnvFile, some text)).toList

/-- A file's values for the settings of the manifest. -/
def loadFile (state : Dict String ValueEntry) (file : SourceType × Option String) :
    Dict String ValueEntry :=
  (dotenvValuesFromFile world file.2).entries.foldl (fun state entry =>
    if (manifest.fieldByKey entry.1).isSome then state.set entry.1 ⟨entry.2, file.1⟩ else state) state

/-- The environment's value for a setting. -/
def loadProcess (state : Dict String ValueEntry) (field : ConfigFieldSpec) : Dict String ValueEntry :=
  match world.environ field.key with
  | some value => state.set field.key ⟨value, .process⟩
  | none => state

/-- `_load_value_state`. -/
def loadValueState : Dict String ValueEntry :=
  manifest.FIELDS.foldl (loadProcess world)
    ((configuredEnvFiles world).foldl (loadFile manifest world)
      (manifest.FIELDS.foldl (fun state field =>
        match (templateValues manifest world).get? field.key with
        | some value => state.set field.key ⟨value, .template⟩
        | none => state.set field.key ⟨"", .default⟩) ∅))

/-- The values that a write keeps: the managed file's, or else those of the other files. -/
def keptValues : Dict String String :=
  if (dotenvValuesFromFile world world.managedEnv).entries ≠ [] then
    (dotenvValuesFromFile world world.managedEnv).entries.foldl (fun values entry =>
      if ((templateValues manifest world).get? entry.1).isSome then values.set entry.1 entry.2
      else values) (templateValues manifest world)
  else
    (loadValueState manifest world).entries.foldl (fun values entry =>
      if entry.2.source ∈ [.repoEnv, .template, .default] then values.set entry.1 entry.2.value
      else values) (templateValues manifest world)

variable (strOf : Json → String)

/-- `_normalize_for_env`; what is no string, flag or null is left to `str`. -/
def normalizeForEnv : Json → String
  | .null => ""
  | .bool value => if value then "true" else "false"
  | .str text => text
  | other => strOf other

/-- One submitted value: an unknown setting, a locked one and a masked secret are left alone. -/
def applyUpdate (values : Dict String String) (update : String × Json) : Dict String String :=
  match manifest.fieldByKey update.1 with
  | none => values
  | some field =>
    if ((loadValueState manifest world).get? update.1).any fun entry => isLockedSource entry.source
    then values
    else if field.secret ∧ update.2 = .str MASKED_SECRET then values
    else values.set update.1 (normalizeForEnv strOf update.2)

/-- `_target_values_with_updates`. -/
def targetValuesWithUpdates (updates : List (String × Json)) : Dict String String :=
  manifest.FIELDS.foldl setDefault
    (updates.foldl (applyUpdate manifest world strOf) (keptValues manifest world))

/-- `_effective_values_for_validation`. -/
def effectiveValuesForValidation (target : Dict String String) : Dict String String :=
  (loadValueState manifest world).entries.foldl (fun values entry =>
    if isLockedSource entry.2.source then values.set entry.1 entry.2.value else values) target

/-- The files after `write_managed_env`; `valid` is the verdict of the settings model. -/
def writeManagedEnv (valid : Dict String String → Bool) (updates : List (String × Json)) : World :=
  let target := targetValuesWithUpdates manifest world strOf updates
  if valid (effectiveValuesForValidation manifest world target) then
    { world with managedEnv := renderEnvFile manifest target false }
  else world

end State

/-! ### The lines -/

/-- The value will be read as one in single quotes. -/
def OpensSingleQuote (value : String) : Prop :=
  value.toList.head? = some '\'' ∧ needsQuotes value = false

instance (value : String) : Decidable (OpensSingleQuote value) :=
  inferInstanceAs (Decidable (_ ∧ _))

theorem isPlain_of_not_needsQuotes {value : String} (bare : needsQuotes value = false) :
    ∀ char ∈ value.toList, Dotenv.isPlain char = true := by
  intro char member
  simp only [needsQuotes, Bool.or_eq_false_iff, List.any_eq_false, Bool.not_eq_true] at bare
  have visible := bare.1 char member
  have notHash : char ≠ '#' := by
    rintro rfl
    exact absurd (List.contains_iff_mem.mpr member) (by simpa using bare.2 '#' (by simp))
  simp [Dotenv.isPlain, visible, notHash]

theorem head?_ne_of_not_needsQuotes {value : String} (bare : needsQuotes value = false) :
    value.toList.head? ≠ some '"' := by
  intro opens
  simp only [needsQuotes, Bool.or_eq_false_iff, List.any_eq_false, Bool.not_eq_true] at bare
  exact absurd (List.contains_iff_mem.mpr (List.mem_of_head? opens))
    (by simpa using bare.2 '"' (by simp))

/-- The two replacements, character by character. -/
theorem toList_replace_replace (value : String) :
    (Py.replace '"' "\\\"" (Py.replace '\\' "\\\\" value)).toList =
      value.toList.flatMap Dotenv.escape := by
  simp only [Py.replace, String.toList_ofList]
  rw [List.flatMap_assoc]
  refine List.flatMap_congr fun char _ => ?_
  by_cases backslash : char = '\\'
  · simp [backslash, Dotenv.escape]
  · by_cases quote : char = '"'
    · simp [quote, Dotenv.escape]
    · simp [backslash, quote, Dotenv.escape]

theorem toList_quoteEnvValue_of_needsQuotes {value : String} (needs : needsQuotes value = true) :
    (quoteEnvValue value).toList = '"' :: value.toList.flatMap Dotenv.escape ++ ['"'] := by
  have visible : value ≠ "" := by
    rintro rfl
    revert needs
    decide
  rw [quoteEnvValue, if_neg visible, if_pos needs, String.toList_append, String.toList_append,
    toList_replace_replace]
  rfl

theorem quoteEnvValue_of_bare {value : String} (bare : needsQuotes value = false) :
    quoteEnvValue value = value := by
  unfold quoteEnvValue
  split
  · exact Eq.symm ‹_›
  · rw [if_neg (by simp [bare])]

/-- What a line is to be read as. -/
def settingItem (values : Dict String String) (field : ConfigFieldSpec) : Option Binding :=
  some ⟨field.key, some (.expandable (valueOf values field).toList)⟩

section Lines

variable {values : Dict String String} {field : ConfigFieldSpec}

theorem toList_fieldLine : (fieldLine values false field).toList =
    field.key.toList ++ '=' :: (quoteEnvValue (valueOf values field)).toList := by
  simp [fieldLine]

/-- **A line is read back**, whatever follows it. -/
theorem fieldLine_reads (isKey : PlainKey field.key.toList)
    (opens : ¬ OpensSingleQuote (valueOf values field)) :
    Reads ((fieldLine values false field).toList ++ ['\n']) [settingItem values field] := by
  refine Reads.of_entry fun rest => ?_
  rw [toList_fieldLine, settingItem]
  cases bare : needsQuotes (valueOf values field) with
  | true =>
    rw [toList_quoteEnvValue_of_needsQuotes bare]
    simpa using isKey.entry_doubleQuoted (valueOf values field).toList rest
  | false =>
    rw [quoteEnvValue_of_bare bare]
    have noSingle : (valueOf values field).toList.head? ≠ some '\'' := fun head => opens ⟨head, bare⟩
    simpa using isKey.entry_plain (isPlain_of_not_needsQuotes bare)
      ⟨noSingle, head?_ne_of_not_needsQuotes bare⟩ rest

/-- **Or it is not**, whatever follows it. -/
theorem fieldLine_misreads (isKey : PlainKey field.key.toList)
    (opens : OpensSingleQuote (valueOf values field)) :
    Misreads ((fieldLine values false field).toList ++ ['\n']) [settingItem values field] := by
  obtain ⟨head, bare⟩ := opens
  refine Misreads.of_entry fun rest => ?_
  obtain ⟨inner, isInner⟩ : ∃ inner, (valueOf values field).toList = '\'' :: inner :=
    List.head?_eq_some_iff.mp head
  have isText : (fieldLine values false field).toList ++ ['\n'] ++ rest =
      field.key.toList ++ '=' :: '\'' :: (inner ++ '\n' :: rest) := by
    rw [toList_fieldLine, quoteEnvValue_of_bare bare, isInner]
    simp
  rw [isText]
  obtain ⟨⟨item, behind⟩, read⟩ : ∃ found, Dotenv.entry
      (field.key.toList ++ '=' :: '\'' :: (inner ++ '\n' :: rest)) = some found :=
    ⟨_, isKey.entry_eq _⟩
  refine ⟨item, behind, read, ?_⟩
  rcases isKey.entry_singleQuoted _ read with rfl | ⟨parts, -, rfl⟩
  · simp [settingItem]
  · simp [settingItem]

end Lines

/-! ### The file -/

/-- The line ends in something to be seen. -/
def VisibleEnd (line : String) : Prop :=
  ∃ front last, line.toList = front ++ [last] ∧ Py.isSpace last = false

/-- The last of the lines does. -/
def EndsVisible (lines : List String) : Prop := ∃ front last, lines = front ++ [last] ∧ VisibleEnd last

theorem EndsVisible.singleton {line : String} (visible : VisibleEnd line) : EndsVisible [line] :=
  ⟨[], line, rfl, visible⟩

theorem EndsVisible.prepend {lines : List String} (visible : EndsVisible lines)
    (front : List String) : EndsVisible (front ++ lines) := by
  obtain ⟨init, last, isLines, visibleLast⟩ := visible
  exact ⟨front ++ init, last, by rw [isLines, List.append_assoc], visibleLast⟩

/-- The lines, each with the break behind it. -/
def linesText (lines : List String) : List Char := lines.flatMap fun line => line.toList ++ ['\n']

theorem toList_join (lines : List String) (last : String) :
    (Py.join "\n" (lines ++ [last])).toList = linesText lines ++ last.toList := by
  induction lines with
  | nil => simp [linesText, Py.join]
  | cons line lines ih =>
    have split : Py.join "\n" (line :: lines ++ [last]) =
        line ++ "\n" ++ Py.join "\n" (lines ++ [last]) := by
      rw [Py.join, Py.join, List.cons_append, String.intercalate_cons_of_ne_nil (by simp)]
    rw [split, String.toList_append, ih]
    simp [linesText]

theorem rstrip_linesText {lines : List String} {last : String} (visible : VisibleEnd last) :
    (Py.rstrip (String.ofList (linesText (lines ++ [last]))) ++ "\n").toList =
      linesText (lines ++ [last]) := by
  obtain ⟨front, char, isFront, isVisible⟩ := visible
  have isText : linesText (lines ++ [last]) = linesText lines ++ front ++ [char] ++ ['\n'] := by
    simp [linesText, isFront]
  have stripped : (linesText lines ++ front ++ [char] ++ ['\n']).reverse.dropWhile Py.isSpace =
      (linesText lines ++ front ++ [char]).reverse := by
    rw [List.reverse_concat, List.dropWhile_cons_of_pos (by decide), List.reverse_concat,
      List.dropWhile_cons_of_neg (by simp [isVisible])]
  rw [Py.rstrip, String.toList_append, String.toList_ofList, String.toList_ofList, isText, stripped,
    List.reverse_reverse]
  rfl

section File

variable (manifest : Manifest) (values : Dict String String)

/-- The lines of the file, with the blank lines before the sections. -/
def bodyLines : List String :=
  ["# Managed by Free Claude Code /admin.", "# Edit in the server UI when possible."] ++
    manifest.SECTIONS.flatMap fun group =>
      ["", "# " ++ group.label] ++
        (manifest.fieldsBySection group.sectionId).map (fieldLine values false)

theorem envLines_eq : envLines manifest values false = bodyLines manifest values ++ [""] := by
  have shift : ∀ groups : List ConfigSectionSpec,
      "" :: groups.flatMap (sectionLines manifest values false) =
        (groups.flatMap fun group => ["", "# " ++ group.label] ++
          (manifest.fieldsBySection group.sectionId).map (fieldLine values false)) ++ [""] := by
    intro groups
    induction groups with
    | nil => rfl
    | cons group groups ih =>
      rw [List.flatMap_cons, List.flatMap_cons, List.append_assoc, ← ih]
      simp [sectionLines]
  have whole := shift manifest.SECTIONS
  simp only [envLines, bodyLines, List.cons_append, List.nil_append] at whole ⊢
  rw [whole]

theorem visibleEnd_fieldLine (field : ConfigFieldSpec) : VisibleEnd (fieldLine values false field) := by
  rw [VisibleEnd, toList_fieldLine]
  cases bare : needsQuotes (valueOf values field) with
  | true =>
    rw [toList_quoteEnvValue_of_needsQuotes bare]
    exact ⟨field.key.toList ++ '=' :: '"' :: (valueOf values field).toList.flatMap Dotenv.escape, '"',
      by simp, by decide⟩
  | false =>
    rw [quoteEnvValue_of_bare bare]
    rcases List.eq_nil_or_concat (valueOf values field).toList with empty | ⟨front, last, isValue⟩
    · exact ⟨field.key.toList, '=', by rw [empty], by decide⟩
    · rw [List.concat_eq_append] at isValue
      have plain := isPlain_of_not_needsQuotes bare last (by simp [isValue])
      exact ⟨field.key.toList ++ '=' :: front, last, by simp [isValue], by simp_all [Dotenv.isPlain]⟩

theorem visibleEnd_label {group : ConfigSectionSpec} (member : group ∈ manifest.SECTIONS) :
    VisibleEnd ("# " ++ group.label) := by
  obtain ⟨last, isLast, visible⟩ := (manifest.plainLabels group member).visible
  obtain ⟨front, isFront⟩ := List.getLast?_eq_some_iff.mp isLast
  exact ⟨"# ".toList ++ front, last, by simp [isFront], visible⟩

theorem endsVisible_bodyLines : EndsVisible (bodyLines manifest values) := by
  unfold bodyLines
  rcases List.eq_nil_or_concat manifest.SECTIONS with none | ⟨groups, group, isGroups⟩
  · rw [none]
    exact (EndsVisible.singleton ⟨"# Edit in the server UI when possible".toList, '.', by decide,
      by decide⟩).prepend ["# Managed by Free Claude Code /admin."]
  · rw [List.concat_eq_append] at isGroups
    have member : group ∈ manifest.SECTIONS := by simp [isGroups]
    rw [isGroups, List.flatMap_append, List.flatMap_singleton]
    apply EndsVisible.prepend
    apply EndsVisible.prepend
    rcases List.eq_nil_or_concat (manifest.fieldsBySection group.sectionId) with
      empty | ⟨fields, field, isFields⟩
    · rw [empty]
      exact (EndsVisible.singleton (visibleEnd_label manifest member)).prepend [""]
    · rw [isFields, List.concat_eq_append, List.map_append]
      exact ((EndsVisible.singleton (visibleEnd_fieldLine values field)).prepend _).prepend _

/-- **The file is its lines.** -/
theorem renderEnvFile_text :
    (renderEnvFile manifest values false).toList = linesText (bodyLines manifest values) := by
  obtain ⟨lines, last, isBody, visible⟩ := endsVisible_bodyLines manifest values
  have joined : Py.join "\n" (envLines manifest values false) =
      String.ofList (linesText (bodyLines manifest values)) := by
    rw [← String.toList_inj, String.toList_ofList, envLines_eq, toList_join]
    simp
  rw [renderEnvFile, joined, isBody, rstrip_linesText visible]

end File

/-! ### What is read of the file -/

section Reading

variable (manifest : Manifest) (values : Dict String String)

/-- What a section is to be read as. -/
def sectionItems (group : ConfigSectionSpec) : List (Option Binding) :=
  none :: (manifest.fieldsBySection group.sectionId).flatMap fun field => [settingItem values field]

/-- What the file is to be read as: a comment is an item that holds nothing. -/
def writtenItems : List (Option Binding) :=
  [none, none] ++ manifest.SECTIONS.flatMap (sectionItems manifest values)

/-- The settings in the order of the file. -/
def fileFields : List ConfigFieldSpec :=
  manifest.SECTIONS.flatMap fun group => manifest.fieldsBySection group.sectionId

/-- The keys and values in the order of the file. -/
def written : List (String × String) :=
  (fileFields manifest).map fun field => (field.key, valueOf values field)

variable {manifest values}

theorem mem_fieldsBySection {sectionId : String} {field : ConfigFieldSpec} :
    field ∈ manifest.fieldsBySection sectionId ↔
      field ∈ manifest.FIELDS ∧ field.sectionId = sectionId := by
  simp [Manifest.fieldsBySection]

theorem mem_fileFields {field : ConfigFieldSpec} :
    field ∈ fileFields manifest ↔ field ∈ manifest.FIELDS := by
  simp only [fileFields, List.mem_flatMap, mem_fieldsBySection]
  constructor
  · rintro ⟨_, _, member, _⟩
    exact member
  · intro member
    obtain ⟨group, isGroup, same⟩ := List.mem_map.mp (manifest.listed field member)
    exact ⟨group, isGroup, member, same.symm⟩

/-- Every key is written once. -/
theorem nodup_written : ((written manifest values).map Prod.fst).Nodup := by
  have keys : (written manifest values).map Prod.fst =
      manifest.SECTIONS.flatMap fun group =>
        (manifest.fieldsBySection group.sectionId).map ConfigFieldSpec.key := by
    simp only [written, fileFields, List.map_flatMap, List.map_map]
    rfl
  rw [keys, List.nodup_flatMap]
  refine ⟨fun group _ => manifest.distinctKeys.sublist (List.filter_sublist.map _), ?_⟩
  refine (List.pairwise_map.mp manifest.distinctSections).imp fun {group other} different => ?_
  intro key inGroup inOther
  obtain ⟨field, isField, rfl⟩ := List.mem_map.mp inGroup
  obtain ⟨twin, isTwin, sameKey⟩ := List.mem_map.mp inOther
  obtain ⟨member, isGroup⟩ := mem_fieldsBySection.mp isField
  obtain ⟨twinMember, isOther⟩ := mem_fieldsBySection.mp isTwin
  obtain rfl := List.inj_on_of_nodup_map manifest.distinctKeys twinMember member sameKey
  exact different (isGroup.symm.trans isOther)

theorem blank_reads : Reads ['\n'] [] := fun rest => Dotenv.entries_space (by decide) rest

theorem comment_reads {comment : List Char}
    (oneLine : ∀ char ∈ comment, Dotenv.isBreak char = false) :
    Reads ('#' :: comment ++ ['\n']) [none] := by
  refine Reads.of_entry fun rest => ?_
  rw [List.append_assoc, List.singleton_append]
  exact Dotenv.entry_comment oneLine rest

theorem label_reads {group : ConfigSectionSpec} (member : group ∈ manifest.SECTIONS) :
    Reads (linesText ["", "# " ++ group.label]) [none] := by
  have oneLine : ∀ char ∈ ' ' :: group.label.toList, Dotenv.isBreak char = false := by
    intro char inside
    rcases List.mem_cons.mp inside with rfl | inLabel
    · decide
    · exact (manifest.plainLabels group member).oneLine char inLabel
  have reads := blank_reads.append (comment_reads oneLine)
  simpa [linesText] using reads

theorem header_reads : Reads (linesText ["# Managed by Free Claude Code /admin.",
    "# Edit in the server UI when possible."]) [none, none] := by
  have first := @comment_reads " Managed by Free Claude Code /admin.".toList
    (List.forall_iff_forall_mem.mp (by decide))
  have second := @comment_reads " Edit in the server UI when possible.".toList
    (List.forall_iff_forall_mem.mp (by decide))
  exact first.append second

/-- The text of a section. -/
def sectionText (manifest : Manifest) (values : Dict String String) (group : ConfigSectionSpec) :
    List Char :=
  linesText ["", "# " ++ group.label] ++
    (manifest.fieldsBySection group.sectionId).flatMap fun field =>
      (fieldLine values false field).toList ++ ['\n']

theorem linesText_bodyLines : linesText (bodyLines manifest values) =
    linesText ["# Managed by Free Claude Code /admin.", "# Edit in the server UI when possible."] ++
      manifest.SECTIONS.flatMap (sectionText manifest values) := by
  rw [bodyLines, linesText, List.flatMap_append, ← linesText, List.flatMap_assoc]
  congr 1
  refine List.flatMap_congr fun group _ => ?_
  rw [List.flatMap_append, List.flatMap_map]
  rfl

/-- No value begins with a single quote that is not itself quoted. -/
def NoneOpensSingleQuote (manifest : Manifest) (values : Dict String String) : Prop :=
  ∀ field ∈ manifest.FIELDS, ¬ OpensSingleQuote (valueOf values field)

theorem section_reads {group : ConfigSectionSpec} (member : group ∈ manifest.SECTIONS)
    (opens : ∀ field ∈ manifest.fieldsBySection group.sectionId,
      ¬ OpensSingleQuote (valueOf values field)) :
    Reads (sectionText manifest values group) (sectionItems manifest values group) :=
  (label_reads member).append (Reads.flatMap fun field inside =>
    fieldLine_reads (manifest.plainKeys field (mem_fieldsBySection.mp inside).1) (opens field inside))

theorem section_misreads {group : ConfigSectionSpec} (member : group ∈ manifest.SECTIONS)
    (opens : ∃ field ∈ manifest.fieldsBySection group.sectionId,
      OpensSingleQuote (valueOf values field)) :
    Misreads (sectionText manifest values group) (sectionItems manifest values group) := by
  have isKey : ∀ field ∈ manifest.fieldsBySection group.sectionId, PlainKey field.key.toList :=
    fun field inside => manifest.plainKeys field (mem_fieldsBySection.mp inside).1
  obtain ⟨field, inside, opensHere⟩ := opens
  refine Misreads.prepend (label_reads member) (Misreads.flatMap (fun other isOther => ?_)
    ⟨field, inside, fieldLine_misreads (isKey field inside) opensHere⟩)
  by_cases opensOther : OpensSingleQuote (valueOf values other)
  · exact .inr (fieldLine_misreads (isKey other isOther) opensOther)
  · exact .inl (fieldLine_reads (isKey other isOther) opensOther)

/-- **The file is read line by line as it was written** unless a line is misread. -/
theorem entries_renderEnvFile_iff :
    Dotenv.entries (renderEnvFile manifest values false).toList = writtenItems manifest values ↔
      NoneOpensSingleQuote manifest values := by
  rw [renderEnvFile_text, linesText_bodyLines]
  constructor
  · intro same
    by_contra opens
    obtain ⟨field, member, opensHere⟩ : ∃ field ∈ manifest.FIELDS,
        OpensSingleQuote (valueOf values field) := by
      simpa [NoneOpensSingleQuote] using opens
    obtain ⟨group, isGroup, inside⟩ := List.mem_flatMap.mp (mem_fileFields.mpr member)
    have misreads : Misreads (manifest.SECTIONS.flatMap (sectionText manifest values))
        (manifest.SECTIONS.flatMap (sectionItems manifest values)) := by
      refine Misreads.flatMap (fun other isOther => ?_)
        ⟨group, isGroup, section_misreads isGroup ⟨field, inside, opensHere⟩⟩
      by_cases clean : ∀ field ∈ manifest.fieldsBySection other.sectionId,
          ¬ OpensSingleQuote (valueOf values field)
      · exact .inl (section_reads isOther clean)
      · refine .inr (section_misreads isOther ?_)
        simpa using clean
    refine Misreads.prepend header_reads misreads [] ?_
    rw [List.append_nil, same]
    exact List.prefix_rfl
  · intro clean
    have reads := header_reads.append (Reads.flatMap fun group isGroup =>
      section_reads isGroup fun field inside =>
        clean field (mem_fieldsBySection.mp inside).1)
    have whole := reads []
    rwa [List.append_nil, show Dotenv.entries [] = [] from rfl, List.append_nil] at whole

end Reading

/-! ### The values of the file -/

section Values

variable (environ : String → Option String) (manifest : Manifest) (values : Dict String String)

/-- The values read of the file are those it was written with. -/
structure ReadsBack : Prop where
  settings : ∀ field ∈ manifest.FIELDS,
    (dotenvValuesFromText environ (renderEnvFile manifest values false)).get? field.key =
      some (valueOf values field)
  nothingElse : ∀ key ∉ manifest.FIELDS.map ConfigFieldSpec.key,
    (dotenvValuesFromText environ (renderEnvFile manifest values false)).get? key = none

variable {environ manifest values}

theorem filterMap_writtenItems :
    (writtenItems manifest values).filterMap id = Dotenv.bindings (written manifest values) := by
  have sections : ∀ group, (sectionItems manifest values group).filterMap id =
      ((manifest.fieldsBySection group.sectionId).map fun field =>
        ⟨field.key, some (.expandable (valueOf values field).toList)⟩) := by
    intro group
    rw [sectionItems, List.filterMap_cons_none rfl, List.filterMap_flatMap, List.map_eq_flatMap]
    rfl
  rw [writtenItems, List.filterMap_append, List.filterMap_flatMap, Dotenv.bindings, written,
    fileFields, List.map_map, List.map_flatMap]
  exact List.flatMap_congr fun group _ => sections group

/-- **Read line by line, the file gives back the values that stand for themselves.** -/
theorem readsBack_iff (clean : NoneOpensSingleQuote manifest values) :
    ReadsBack environ manifest values ↔
      Dotenv.StandForThemselves environ ∅ (written manifest values) := by
  have read : Dotenv.dotenvValues environ (renderEnvFile manifest values false) =
      (Dotenv.bindings (written manifest values)).foldl (Dotenv.add environ) ∅ := by
    rw [Dotenv.dotenvValues, entries_renderEnvFile_iff.mpr clean, filterMap_writtenItems]
    rfl
  rw [← Dotenv.get?_resolve_iff nodup_written]
  constructor
  · intro back pair member
    obtain ⟨field, isField, rfl⟩ := List.mem_map.mp member
    have value := back.settings field (mem_fileFields.mp isField)
    rwa [dotenvValuesFromText, Dict.get?_map, read] at value
  · intro same
    refine ⟨fun field member => ?_, fun key absent => ?_⟩
    · rw [dotenvValuesFromText, Dict.get?_map, read]
      exact same (field.key, valueOf values field)
        (List.mem_map.mpr ⟨field, mem_fileFields.mpr member, rfl⟩)
    · have notBound : key ∉ (Dotenv.bindings (written manifest values)).map Dotenv.Binding.key := by
        intro bound
        obtain ⟨binding, isBinding, rfl⟩ := List.mem_map.mp bound
        obtain ⟨pair, isPair, rfl⟩ := List.mem_map.mp isBinding
        obtain ⟨field, isField, rfl⟩ := List.mem_map.mp isPair
        exact absent (List.mem_map.mpr ⟨field, mem_fileFields.mp isField, rfl⟩)
      rw [dotenvValuesFromText, Dict.get?_map, read, Dotenv.get?_foldl_add notBound]
      rfl

end Values

/-! ### The second write -/

section SecondWrite

variable {manifest : Manifest} {world : World}

theorem get?_foldl_setDefault {fields : List ConfigFieldSpec} {values : Dict String String}
    {key value : String} (kept : values.get? key = some value) :
    (fields.foldl setDefault values).get? key = some value := by
  induction fields generalizing values with
  | nil => exact kept
  | cons field fields ih =>
    refine ih ?_
    unfold setDefault
    split
    · exact kept
    · rename_i absent
      have other : key ≠ field.key := by
        rintro rfl
        simp [kept] at absent
      rw [Dict.get?_set_ne _ other, kept]

theorem isSome_foldl_setDefault {fields : List ConfigFieldSpec} {field : ConfigFieldSpec}
    (member : field ∈ fields) (values : Dict String String) :
    ((fields.foldl setDefault values).get? field.key).isSome = true := by
  induction fields generalizing values with
  | nil => simp at member
  | cons other fields ih =>
    rcases List.mem_cons.mp member with rfl | later
    · obtain ⟨value, isValue⟩ : ∃ value, (setDefault values field).get? field.key = some value := by
        unfold setDefault
        split
        · exact Option.isSome_iff_exists.mp ‹_›
        · exact ⟨_, Dict.get?_set_self _ _ _⟩
      rw [List.foldl_cons, get?_foldl_setDefault isValue]
      rfl
    · exact ih later _

/-- The known values of a file replace the ones before. -/
theorem get?_foldl_known {known : String → Bool} {entries : List (String × String)}
    (distinct : (entries.map Prod.fst).Nodup) {key value : String} (isKnown : known key = true)
    (member : (key, value) ∈ entries) (values : Dict String String) :
    (entries.foldl (fun values entry =>
      if known entry.1 then values.set entry.1 entry.2 else values) values).get? key =
        some value := by
  induction entries using List.reverseRecOn with
  | nil => simp at member
  | append_singleton entries entry ih =>
    rw [List.map_append, List.nodup_append] at distinct
    rw [List.foldl_append, List.foldl_cons, List.foldl_nil]
    rcases List.mem_append.mp member with earlier | last
    · have other : key ≠ entry.1 := by
        rintro rfl
        exact distinct.2.2 _ (List.mem_map.mpr ⟨_, earlier, rfl⟩) _ (by simp) rfl
      split
      · rw [Dict.get?_set_ne _ other, ih distinct.1 earlier]
      · exact ih distinct.1 earlier
    · obtain rfl := List.mem_singleton.mp last
      rw [if_pos isKnown, Dict.get?_set_self]

/-- The submitted values are masked secrets. -/
def Untouched (manifest : Manifest) (updates : List (String × Json)) : Prop :=
  ∀ update ∈ updates, update.2 = .str MASKED_SECRET ∧
    ∃ field, manifest.fieldByKey update.1 = some field ∧ field.secret = true

theorem foldl_applyUpdate_of_untouched {strOf : Json → String} {updates : List (String × Json)}
    (untouched : Untouched manifest updates) (values : Dict String String) :
    updates.foldl (applyUpdate manifest world strOf) values = values := by
  induction updates with
  | nil => rfl
  | cons update updates ih =>
    obtain ⟨masked, field, isField, secret⟩ := untouched update (by simp)
    have same : applyUpdate manifest world strOf values update = values := by
      rw [applyUpdate, isField]
      simp [secret, masked]
    rw [List.foldl_cons, same]
    exact ih fun other member => untouched other (by simp [member])

/-- **Values that are read back are written again** by a write that submits nothing new. -/
theorem second_write {values : Dict String String} {strOf : Json → String}
    {updates : List (String × Json)} (back : ReadsBack world.environ manifest values)
    (managed : world.managedEnv = some (renderEnvFile manifest values false))
    (untouched : Untouched manifest updates) {field : ConfigFieldSpec}
    (member : field ∈ manifest.FIELDS) :
    (targetValuesWithUpdates manifest world strOf updates).get? field.key =
      some (valueOf values field) := by
  have read : dotenvValuesFromFile world world.managedEnv =
      dotenvValuesFromText world.environ (renderEnvFile manifest values false) := by
    rw [managed]
    rfl
  have stored : (field.key, valueOf values field) ∈
      (dotenvValuesFromFile world world.managedEnv).entries := by
    rw [read, Dict.mem_entries_iff]
    exact back.settings field member
  rw [targetValuesWithUpdates, foldl_applyUpdate_of_untouched untouched]
  refine get?_foldl_setDefault ?_
  rw [keptValues, if_pos (List.ne_nil_of_mem stored)]
  exact @get?_foldl_known
    (fun key => ((templateValues manifest world).get? key).isSome) _ (Dict.nodupKeys _) _ _
    (isSome_foldl_setDefault member _) stored _

end SecondWrite

end AdminConfig

end ClaudeProxy
