/-
**A messages request** (`api/models/anthropic.py`).

* `MessagesRequest` — the fields that decide the provider's answer, and the others; each value is one
  that `model_dump` gives and `json.dumps` prints.
* `RequestField`, `MessagesRequest.value` — the deciding fields, by name.
* `AgreeOn`, `Agree` — two requests have the same values there, but for the order of object members.
-/

import ClaudeProxy.Library.JsonText

namespace ClaudeProxy

/-- `system: str | list[SystemContent] | None`. -/
inductive SystemPrompt where
  | absent
  | text (prompt : String)
  | blocks (contents : List Json)
  deriving DecidableEq

def SystemPrompt.dump : SystemPrompt → Json
  | .absent => .null
  | .text prompt => .str prompt
  | .blocks contents => .arr contents

/-- The fields of a request that decide the provider's answer. -/
inductive RequestField where
  | model | system | messages | tools | toolChoice | thinking | maxTokens | temperature | topP | topK
  | stopSequences
  deriving DecidableEq

/-- Its name in the request. -/
def RequestField.name : RequestField → String
  | .model => "model"
  | .system => "system"
  | .messages => "messages"
  | .tools => "tools"
  | .toolChoice => "tool_choice"
  | .thinking => "thinking"
  | .maxTokens => "max_tokens"
  | .temperature => "temperature"
  | .topP => "top_p"
  | .topK => "top_k"
  | .stopSequences => "stop_sequences"

/-- The members of a validated request. -/
structure RequestBody where
  model : String
  maxTokens : Json := .null
  messages : List Json
  system : SystemPrompt := .absent
  stopSequences : Json := .null
  temperature : Json := .null
  topP : Json := .null
  topK : Json := .null
  tools : Json := .null
  toolChoice : Json := .null
  thinking : Json := .null
  /-- `stream`, `metadata` and the members that are only passed on. -/
  others : List (String × Json) := []
  deriving DecidableEq

namespace RequestBody

/-- The value of a deciding field. -/
def value (body : RequestBody) : RequestField → Json
  | .model => .str body.model
  | .system => body.system.dump
  | .messages => .arr body.messages
  | .tools => body.tools
  | .toolChoice => body.toolChoice
  | .thinking => body.thinking
  | .maxTokens => body.maxTokens
  | .temperature => body.temperature
  | .topP => body.topP
  | .topK => body.topK
  | .stopSequences => body.stopSequences

/-- The deciding fields in the order of the model's declaration. -/
def declaredFields : List RequestField :=
  [.model, .maxTokens, .messages, .system, .stopSequences, .temperature, .topP, .topK, .tools,
    .toolChoice, .thinking]

/-- `request.model_dump()`. -/
def modelDump (body : RequestBody) : List (String × Json) :=
  declaredFields.map (fun field => (field.name, body.value field)) ++ body.others

theorem getKey_modelDump (body : RequestBody) (field : RequestField) :
    Json.getKey body.modelDump field.name = body.value field := by
  cases field <;>
    simp [Json.getKey, modelDump, declaredFields, RequestField.name, Assoc.get?_cons]

end RequestBody

/-- A request: its values are those that JSON text has. -/
structure MessagesRequest extends RequestBody where
  printable : ∀ field, (toRequestBody.value field).isPrintable = true

/-- The two requests have the same values in these fields. -/
def AgreeOn (fields : List RequestField) (first second : MessagesRequest) : Prop :=
  ∀ field ∈ fields, (first.value field).Same (second.value field)

/-- The two requests agree on every field that decides the provider's answer. -/
def Agree (first second : MessagesRequest) : Prop :=
  ∀ field, (first.value field).Same (second.value field)

instance (fields : List RequestField) (first second : MessagesRequest) :
    Decidable (AgreeOn fields first second) :=
  inferInstanceAs (Decidable (∀ field ∈ fields, _))

theorem agreeOn_append {fields fields' : List RequestField} {first second : MessagesRequest} :
    AgreeOn (fields ++ fields') first second ↔
      AgreeOn fields first second ∧ AgreeOn fields' first second := by
  simp only [AgreeOn, List.forall_mem_append]

/-- Agreeing on two lists of fields that make up all of them. -/
theorem agree_iff {fields fields' : List RequestField} {first second : MessagesRequest}
    (whole : ∀ field, field ∈ fields ++ fields') :
    Agree first second ↔ AgreeOn fields first second ∧ AgreeOn fields' first second := by
  rw [← agreeOn_append]
  exact ⟨fun agree field _ => agree field, fun agree field => agree field (whole field)⟩

end ClaudeProxy
