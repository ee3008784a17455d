/-
**The model router** (`api/model_router.py`, `api/gateway_model_ids.py`, `config/settings.py`).

* `RouterSettings` — the settings that the router reads; a configured model is a `ProviderRef`, which
  has a provider prefix.
* `resolve` — aliases, gateway ids and provider prefixes, and the mapping of what is left.
* `resolveMessagesRequest`, `resolveTokenCountRequest` — the two entry points; the first one applies
  the aliases itself, and again in `resolve`.
* **`routing_agrees_iff`** — with the smart routing off, the two entry points agree exactly where the
  name behind the alias of an alias leads to the same place; `chainedAlias_disagrees` — two aliases in
  a row.
-/

import ClaudeProxy.Library.Dict
import ClaudeProxy.Python

namespace ClaudeProxy

/-- `text.split(mark, 1)[0]`. -/
def Py.before (mark : Char) (text : String) : String :=
  String.ofList (text.toList.takeWhile fun char => decide (char ≠ mark))

/-- `text.split(mark)`, for the characters of the text. -/
def Py.splitAll (mark : Char) : List Char → List (List Char)
  | [] => [[]]
  | char :: rest =>
    if char = mark then [] :: splitAll mark rest
    else
      match splitAll mark rest with
      | [] => [[char]]
      | part :: parts => (char :: part) :: parts

/-- `text.split(mark)`. -/
def Py.split (mark : Char) (text : String) : List String :=
  (splitAll mark text.toList).map String.ofList

namespace Router

/-! ### Settings -/

def supportedProviderIds : List String :=
  ["nvidia_nim", "open_router", "gemini", "deepseek", "mistral", "mistral_codestral", "opencode",
    "opencode_go", "wafer", "kimi", "cerebras", "groq", "fireworks", "zai", "lmstudio", "llamacpp",
    "ollama", "aerolink", "github_models", "openai"]

/-- A configured model: `validate_model_format` lets no other text through. -/
structure ProviderRef where
  ref : String
  prefixed : '/' ∈ ref.toList
  supported : Py.before '/' ref ∈ supportedProviderIds

/-- The settings that the router reads. -/
structure RouterSettings where
  modelAliases : String := ""
  model : ProviderRef
  modelOpus : Option ProviderRef := none
  modelHaiku : Option ProviderRef := none
  modelSonnet : Option ProviderRef := none
  enableModelThinking : Bool := true
  enableOpusThinking : Option Bool := none
  enableHaikuThinking : Option Bool := none
  enableSonnetThinking : Option Bool := none
  enableStickySessions : Bool := false
  enableContextLengthRouting : Bool := false
  contextLengthThreshold : Int := 100000
  contextLengthProviderModel : String := "gemini/gemini-2.5-pro"
  enableToolUseRouting : Bool := false
  enableLanguageRouting : Bool := false
  enableTaskTypeRouting : Bool := false
  enableTimeBasedRouting : Bool := false
  timeBasedNightStart : Int := 22
  timeBasedNightEnd : Int := 7
  enableCanaryMode : Bool := false
  canaryProviderModel : String := ""
  enableCostAwareRouting : Bool := false
  enableFailoverMemory : Bool := false
  providerPriorityGroups : String := ""
  /-- Whether the settings have a non-empty API key under the provider's name. -/
  hasApiKey : String → Bool := fun _ => false

variable (lower : String → String) (settings : RouterSettings)

/-- `Settings.resolve_model`; `lower` is `str.lower`. -/
def resolveModel (claudeModelName : String) : ProviderRef :=
  let nameLower := lower claudeModelName
  match Py.contains nameLower "opus", settings.modelOpus with
  | true, some model => model
  | _, _ =>
    match Py.contains nameLower "haiku", settings.modelHaiku with
    | true, some model => model
    | _, _ =>
      match Py.contains nameLower "sonnet", settings.modelSonnet with
      | true, some model => model
      | _, _ => settings.model

/-- `Settings.resolve_thinking`. -/
def resolveThinking (claudeModelName : String) : Bool :=
  let nameLower := lower claudeModelName
  match Py.contains nameLower "opus", settings.enableOpusThinking with
  | true, some enabled => enabled
  | _, _ =>
    match Py.contains nameLower "haiku", settings.enableHaikuThinking with
    | true, some enabled => enabled
    | _, _ =>
      match Py.contains nameLower "sonnet", settings.enableSonnetThinking with
      | true, some enabled => enabled
      | _, _ => settings.enableModelThinking

/-- `Settings.parse_provider_type`. -/
def parseProviderType (modelString : String) : String := Py.before '/' modelString

/-- `Settings.parse_model_name`, of a text with a provider prefix. -/
def parseModelName (modelString : String) : String := Py.behind '/' modelString

/-! ### Names -/

def gatewayModelIdPrefix : String := "claude-freecc-thinking"

def noThinkingGatewayModelIdPrefix : String := "claude-3-freecc-no-thinking"

structure DecodedGatewayModelId where
  providerId : String
  providerModel : String
  forceThinkingEnabled : Option Bool

/-- `decode_gateway_model_id`. -/
def decodeGatewayModelId (modelName : String) : Option DecodedGatewayModelId :=
  if '/' ∈ modelName.toList then
    let decode (forceThinkingEnabled : Option Bool) : Option DecodedGatewayModelId :=
      let remainder := Py.behind '/' modelName
      if '/' ∈ remainder.toList ∧ Py.behind '/' remainder ≠ "" then
        some ⟨Py.before '/' remainder, Py.behind '/' remainder, forceThinkingEnabled⟩
      else none
    if Py.before '/' modelName = gatewayModelIdPrefix then decode none
    else if Py.before '/' modelName = noThinkingGatewayModelIdPrefix then decode (some false)
    else none
  else none

/-- `_apply_aliases`. -/
def applyAliases (modelName : String) : String :=
  if settings.modelAliases = "" then modelName
  else
    let aliases := ((Py.split ',' settings.modelAliases).filter fun item =>
        decide (':' ∈ item.toList)).foldl
      (fun aliases item =>
        Assoc.set (Py.strip (Py.before ':' item)) (Py.strip (Py.behind ':' item)) aliases) []
    (Assoc.get? modelName aliases).getD modelName

/-- `_direct_provider_model`. -/
def directProviderModel (modelName : String) : Option (String × String × Option Bool) :=
  match decodeGatewayModelId modelName with
  | some decoded =>
    if decoded.providerId ∈ supportedProviderIds then
      some (decoded.providerId, decoded.providerModel, decoded.forceThinkingEnabled)
    else none
  | none =>
    if '/' ∈ modelName.toList ∧ Py.before '/' modelName ∈ supportedProviderIds ∧
        Py.behind '/' modelName ≠ "" then
      some (Py.before '/' modelName, Py.behind '/' modelName, none)
    else none

/-! ### Resolution -/

structure ResolvedModel where
  originalModel : String
  providerId : String
  providerModel : String
  providerModelRef : String
  thinkingEnabled : Bool
  deriving DecidableEq

/-- `resolve`, for a name whose alias has been looked up. -/
def resolveName (claudeModelName : String) : ResolvedModel :=
  match directProviderModel claudeModelName with
  | some (providerId, providerModel, forceThinkingEnabled) =>
    { originalModel := claudeModelName
      providerId := providerId
      providerModel := providerModel
      providerModelRef := claudeModelName
      thinkingEnabled := forceThinkingEnabled.getD (resolveThinking lower settings providerModel) }
  | none =>
    let providerModelRef := (resolveModel lower settings claudeModelName).ref
    { originalModel := claudeModelName
      providerId := parseProviderType providerModelRef
      providerModel := parseModelName providerModelRef
      providerModelRef := providerModelRef
      thinkingEnabled := resolveThinking lower settings claudeModelName }

/-- `resolve`. -/
def resolve (claudeModelName : String) : ResolvedModel :=
  resolveName lower settings (applyAliases settings claudeModelName)

/-- What the smart routing reads off a messages request, and what it looks up. -/
structure MessagesCall where
  model : String
  /-- The contents of the user messages that are texts. -/
  userTexts : List String := []
  hasTools : Bool := false
  inputTokens : Int := 0
  sessionId : Option String := none
  hour : Int := 0
  /-- Whether the random draw falls under the canary percentage. -/
  canaryDrawn : Bool := false

/-- The sticky sessions and the failover memory. -/
structure RouterMemory where
  sessions : List (String × ResolvedModel) := []
  lastSuccessfulProvider : Option String := none

/-- A request is sent on under the provider's name for its model. -/
structure Routed where
  model : String
  resolved : ResolvedModel
  deriving DecidableEq

def codingKeywords : List String :=
  ["def ", "function", "class ", "import ", "git", "docker", "rust", "java", "python", "code", "bug",
    "refactor", "lint"]

def mathKeywords : List String :=
  ["math", "equation", "solve", "integral", "matrix", "derivative", "formula", "calculate"]

/-- More than 15% of the user's characters are not ASCII. -/
def mostlyForeign (userText : String) : Bool :=
  decide (15 * Py.len userText <
    100 * (userText.toList.filter fun char => decide (127 < char.toNat)).length)

/-- Whether it is night. -/
def isNight (hour : Int) : Bool :=
  if settings.timeBasedNightEnd < settings.timeBasedNightStart then
    decide (settings.timeBasedNightStart ≤ hour ∨ hour < settings.timeBasedNightEnd)
  else decide (settings.timeBasedNightStart ≤ hour ∧ hour < settings.timeBasedNightEnd)

/-- The routers 3 to 9, of which the first one that is enabled decides. -/
def smartModel (call : MessagesCall) (modelName : String) : String :=
  let userText := call.userTexts.foldl (fun text content => text ++ " " ++ content) ""
  if settings.enableContextLengthRouting then
    if settings.contextLengthThreshold < call.inputTokens then settings.contextLengthProviderModel
    else modelName
  else if settings.enableToolUseRouting && call.hasTools then "openai/gpt-4o"
  else if settings.enableLanguageRouting then
    if mostlyForeign userText then "gemini/gemini-2.5-pro" else modelName
  else if settings.enableTaskTypeRouting then
    if codingKeywords.any (Py.contains (lower userText)) then "github_models/claude-3-5-sonnet"
    else if mathKeywords.any (Py.contains (lower userText)) then "gemini/gemini-2.5-pro"
    else modelName
  else if settings.enableTimeBasedRouting then
    if isNight settings call.hour then "aerolink/claude-sonnet-4-6" else modelName
  else if settings.enableCanaryMode then
    if settings.canaryProviderModel ≠ "" ∧ call.canaryDrawn then settings.canaryProviderModel
    else modelName
  else if settings.enableCostAwareRouting then
    if '/' ∈ modelName.toList then modelName else "aerolink/claude-sonnet-4-6"
  else modelName

/-- The failover memory prefixes a name without a provider. -/
def preferLast (memory : RouterMemory) (modelName : String) : String :=
  match memory.lastSuccessfulProvider with
  | some provider =>
    if settings.enableFailoverMemory ∧ provider ≠ "" ∧ '/' ∉ modelName.toList then
      provider ++ "/" ++ modelName
    else modelName
  | none => modelName

/-- The providers of the priority groups, in their order. -/
def priorityProviders : List String :=
  ((Py.split ';' settings.providerPriorityGroups).filter fun group =>
      decide (':' ∈ group.toList)).flatMap fun group =>
    (Py.split ',' (Py.behind ':' group)).map Py.strip

/-- So does the first available provider of the priority groups. -/
def preferGroups (modelName : String) : String :=
  if settings.providerPriorityGroups ≠ "" ∧ '/' ∉ modelName.toList then
    match (priorityProviders settings).find? fun provider =>
        decide (provider = "aerolink") || settings.hasApiKey provider with
    | some provider => if provider = "" then modelName else provider ++ "/" ++ modelName
    | none => modelName
  else modelName

def maxStickySessions : Nat := 1000

/-- The resolution is kept for the session; the oldest one goes where there are too many. -/
def remember (memory : RouterMemory) (sessionId : String) (resolved : ResolvedModel) :
    RouterMemory :=
  let sessions := Assoc.set sessionId resolved memory.sessions
  { memory with
    sessions := if maxStickySessions < sessions.length then sessions.drop 1 else sessions }

/-- `resolve_messages_request`. -/
def resolveMessagesRequest (memory : RouterMemory) (call : MessagesCall) : Routed × RouterMemory :=
  let modelName := applyAliases settings call.model
  let sessionId := if settings.enableStickySessions then call.sessionId.filter (· ≠ "") else none
  match sessionId.bind fun session => Assoc.get? session memory.sessions with
  | some resolved => (⟨resolved.providerModel, resolved⟩, memory)
  | none =>
    let modelName := smartModel lower settings call modelName
    let modelName := preferGroups settings (preferLast settings memory modelName)
    let resolved := resolve lower settings modelName
    let memory := match sessionId with
      | some session => remember memory session resolved
      | none => memory
    (⟨resolved.providerModel, resolved⟩, memory)

/-- `resolve_token_count_request`. -/
def resolveTokenCountRequest (model : String) : Routed :=
  let resolved := resolve lower settings model
  ⟨resolved.providerModel, resolved⟩

/-! ### What is asked -/

/-- The same provider, the same model of it and the same thinking. -/
structure SameTarget (first second : ResolvedModel) : Prop where
  provider : first.providerId = second.providerId
  model : first.providerModel = second.providerModel
  thinking : first.thinkingEnabled = second.thinkingEnabled

/-- Every feature that looks at more than the name of the model is off. -/
structure SmartRoutingOff (settings : RouterSettings) : Prop where
  sticky : settings.enableStickySessions = false
  context : settings.enableContextLengthRouting = false
  tools : settings.enableToolUseRouting = false
  language : settings.enableLanguageRouting = false
  task : settings.enableTaskTypeRouting = false
  time : settings.enableTimeBasedRouting = false
  canary : settings.enableCanaryMode = false
  cost : settings.enableCostAwareRouting = false
  failover : settings.enableFailoverMemory = false
  priority : settings.providerPriorityGroups = ""

/-- The two names are spelled differently for the same place: by a provider prefix or a gateway id, or
by the mapping of the settings. -/
def LeadAlike (name other : String) : Prop :=
  match directProviderModel name, directProviderModel other with
  | some (provider, model, force), some (provider', model', force') =>
    provider = provider' ∧ model = model' ∧
      force.getD (resolveThinking lower settings model) =
        force'.getD (resolveThinking lower settings model')
  | some (provider, model, force), none =>
    (resolveModel lower settings other).ref = provider ++ "/" ++ model ∧
      resolveThinking lower settings other = force.getD (resolveThinking lower settings model)
  | none, some (provider, model, force) =>
    (resolveModel lower settings name).ref = provider ++ "/" ++ model ∧
      resolveThinking lower settings name = force.getD (resolveThinking lower settings model)
  | none, none =>
    (resolveModel lower settings name).ref = (resolveModel lower settings other).ref ∧
      resolveThinking lower settings name = resolveThinking lower settings other

/-- **The alias of a name settles it**: what it stands for is no alias again, or one for the same
place. -/
def AliasSettles (name : String) : Prop :=
  let once := applyAliases settings name
  let twice := applyAliases settings once
  twice = once ∨ LeadAlike lower settings twice once

/-! ### Provider prefixes -/

theorem takeWhile_mark {mark : Char} {chars : List Char} (inside : mark ∈ chars) :
    chars.takeWhile (fun char => decide (char ≠ mark)) ++
      mark :: (chars.dropWhile fun char => decide (char ≠ mark)).drop 1 = chars := by
  induction chars with
  | nil => cases inside
  | cons char rest ih =>
    by_cases same : char = mark
    · simp [same]
    · rw [List.takeWhile_cons_of_pos (by simp [same]), List.dropWhile_cons_of_pos (by simp [same]),
        List.cons_append]
      exact congrArg _ (ih (List.mem_of_ne_of_mem (Ne.symm same) inside))

/-- A text with a prefix is its prefix and the rest. -/
theorem before_append_behind {text : String} (inside : '/' ∈ text.toList) :
    Py.before '/' text ++ "/" ++ Py.behind '/' text = text := by
  apply String.toList_inj.mp
  rw [Py.before, Py.behind, String.toList_append, String.toList_append, String.toList_ofList,
    String.toList_ofList, String.toList_ofList, List.append_assoc]
  exact takeWhile_mark inside

/-- A prefix without the mark is found again. -/
theorem before_behind_append {front : String} (absent : '/' ∉ front.toList) (back : String) :
    Py.before '/' (front ++ "/" ++ back) = front ∧ Py.behind '/' (front ++ "/" ++ back) = back := by
  have chars : (front ++ "/" ++ back).toList = front.toList ++ '/' :: back.toList := by
    rw [String.toList_append, String.toList_append, List.append_assoc]
    rfl
  have plain : ∀ char ∈ front.toList, decide (char ≠ '/') = true :=
    fun char member => decide_eq_true (ne_of_mem_of_not_mem member absent)
  rw [Py.before, Py.behind, chars, List.takeWhile_append_of_pos plain,
    List.dropWhile_append_of_pos plain]
  constructor
  · rw [List.takeWhile_cons_of_neg (by simp), List.append_nil, String.ofList_toList]
  · rw [List.dropWhile_cons_of_neg (by simp)]
    exact String.ofList_toList

theorem noMark_of_supported {provider : String} (supported : provider ∈ supportedProviderIds) :
    '/' ∉ provider.toList := by
  have all : ∀ provider ∈ supportedProviderIds, '/' ∉ provider.toList := by decide
  exact all provider supported

/-- A provider prefix names a supported provider. -/
theorem direct_supported {name provider model : String} {force : Option Bool}
    (direct : directProviderModel name = some (provider, model, force)) :
    provider ∈ supportedProviderIds := by
  unfold directProviderModel at direct
  split at direct
  · split_ifs at direct with supported
    cases direct
    exact supported
  · split_ifs at direct with supported
    cases direct
    exact supported.2.1

/-- A configured model is this provider's model exactly if its text says so. -/
theorem ref_eq_iff (configured : ProviderRef) {provider : String} (model : String)
    (absent : '/' ∉ provider.toList) :
    configured.ref = provider ++ "/" ++ model ↔
      parseProviderType configured.ref = provider ∧ parseModelName configured.ref = model := by
  constructor
  · intro same
    rw [same]
    exact before_behind_append absent model
  · rintro ⟨rfl, rfl⟩
    exact (before_append_behind configured.prefixed).symm

/-- Two configured models have the same parts exactly if they are the same text. -/
theorem ref_inj (configured other : ProviderRef) : configured.ref = other.ref ↔
    parseProviderType configured.ref = parseProviderType other.ref ∧
      parseModelName configured.ref = parseModelName other.ref := by
  have parts := ref_eq_iff configured (parseModelName other.ref) (noMark_of_supported other.supported)
  have whole : Py.before '/' other.ref ++ "/" ++ parseModelName other.ref = other.ref :=
    before_append_behind other.prefixed
  rw [whole] at parts
  exact parts

/-! ### Agreement -/

variable {lower : String → String} {settings : RouterSettings}

/-- **Two names lead to the same place** exactly if they are spelled alike or mapped alike. -/
theorem leadAlike_iff (name other : String) : LeadAlike lower settings name other ↔
    SameTarget (resolveName lower settings name) (resolveName lower settings other) := by
  have target (first second : ResolvedModel) : SameTarget first second ↔
      first.providerId = second.providerId ∧ first.providerModel = second.providerModel ∧
        first.thinkingEnabled = second.thinkingEnabled :=
    ⟨fun same => ⟨same.provider, same.model, same.thinking⟩,
      fun same => ⟨same.1, same.2.1, same.2.2⟩⟩
  rw [target]
  unfold LeadAlike resolveName
  cases direct : directProviderModel name with
  | some found =>
    obtain ⟨provider, model, force⟩ := found
    cases direct' : directProviderModel other with
    | some found' => rfl
    | none =>
      dsimp only
      rw [ref_eq_iff _ _ (noMark_of_supported (direct_supported direct)), and_assoc]
      exact ⟨fun ⟨first, second, third⟩ => ⟨first.symm, second.symm, third.symm⟩,
        fun ⟨first, second, third⟩ => ⟨first.symm, second.symm, third.symm⟩⟩
  | none =>
    cases direct' : directProviderModel other with
    | some found' =>
      obtain ⟨provider, model, force⟩ := found'
      dsimp only
      rw [ref_eq_iff _ _ (noMark_of_supported (direct_supported direct')), and_assoc]
    | none =>
      dsimp only
      rw [ref_inj, and_assoc]

/-- With the smart routing off, a messages request resolves its alias. -/
theorem resolveMessagesRequest_eq (off : SmartRoutingOff settings) (memory : RouterMemory)
    (call : MessagesCall) :
    (resolveMessagesRequest lower settings memory call).1.resolved =
      resolve lower settings (applyAliases settings call.model) := by
  unfold resolveMessagesRequest smartModel preferGroups
  simp only [off.sticky, off.context, off.tools, off.language, off.task, off.time, off.canary,
    off.cost, off.priority]
  have failover (modelName : String) : preferLast settings memory modelName = modelName := by
    unfold preferLast
    cases memory.lastSuccessfulProvider with
    | none => rfl
    | some provider => exact if_neg fun all => absurd (off.failover.symm.trans all.1) (by decide)
  simp [failover]

/-- **Agreement of the two entry points.** With the smart routing off, they resolve a model to the
same place exactly if its alias settles it. -/
theorem routing_agrees_iff (off : SmartRoutingOff settings) (memory : RouterMemory)
    (call : MessagesCall) :
    SameTarget (resolveMessagesRequest lower settings memory call).1.resolved
      (resolveTokenCountRequest lower settings call.model).resolved ↔
      AliasSettles lower settings call.model := by
  rw [resolveMessagesRequest_eq off]
  unfold AliasSettles
  dsimp only
  rw [leadAlike_iff]
  show SameTarget (resolveName lower settings _) (resolveName lower settings _) ↔ _
  constructor
  · exact .inr
  · rintro (same | alike)
    · rw [same]
      exact ⟨rfl, rfl, rfl⟩
    · exact alike

/-- Settings with these aliases, all models on one provider. -/
def aliasSettings (aliases : String) : RouterSettings where
  modelAliases := aliases
  model := ⟨"deepseek/deepseek-chat", by decide, by decide⟩

theorem aliasSettings_off (aliases : String) : SmartRoutingOff (aliasSettings aliases) :=
  ⟨rfl, rfl, rfl, rfl, rfl, rfl, rfl, rfl, rfl, rfl⟩

/-- The lower case of a text of ASCII characters. -/
def asciiLower (text : String) : String := String.ofList (text.toList.map Char.toLower)

/-- One alias, for a model of another provider. -/
theorem fastAlias_agrees : SameTarget
    (resolveMessagesRequest asciiLower (aliasSettings "fast:groq/llama") {} { model := "fast" }).1.resolved
    (resolveTokenCountRequest asciiLower (aliasSettings "fast:groq/llama") "fast").resolved :=
  (routing_agrees_iff (aliasSettings_off _) {} { model := "fast" }).mpr (.inl (by decide))

/-- **Two aliases in a row**: the messages go where the second one leads, and their tokens are counted
for the first one. -/
theorem chainedAlias_disagrees :
    let settings := aliasSettings "fast:small,small:groq/llama"
    let messages := (resolveMessagesRequest asciiLower settings {} { model := "fast" }).1.resolved
    let tokens := (resolveTokenCountRequest asciiLower settings "fast").resolved
    SmartRoutingOff settings ∧ messages.providerId = "groq" ∧ tokens.providerId = "deepseek" ∧
      ¬ SameTarget messages tokens := by
  dsimp only
  refine ⟨aliasSettings_off _, by decide +kernel, by decide +kernel, ?_⟩
  intro same
  exact absurd same.provider (by decide +kernel)

end Router

end ClaudeProxy
