/-
**The key of in-flight deduplication** (`hash_request` in `api/services.py`).

* `hashRequest` — the digest of the model, the messages' text and the system's text, fed to the hash
  one behind the other.
* `spelling` — these three texts as one string, which is all the hash sees.
* **`hash_sound_iff`** — when two requests with the same key agree.
-/

import ClaudeProxy.Service.ResponseCache

namespace ClaudeProxy

variable {κ : Type}

/-! ### The hash -/

/-- The text that the system prompt adds; a falsy one adds nothing. -/
def SystemPrompt.hashedText : SystemPrompt → String
  | .absent => ""
  | .text prompt => prompt
  | .blocks [] => ""
  | .blocks contents => String.ofList (Json.arr contents).dumps

/-- `hash_request`: the digest of what `h.update` was given, in order. -/
def hashRequest (sha256 : ByteArray → κ) (request : MessagesRequest) : κ :=
  let messages := String.ofList (Json.arr request.messages).dumps
  sha256 (request.model.toUTF8 ++ messages.toUTF8 ++ request.system.hashedText.toUTF8)

/-- The three texts as one. -/
def spelling (request : MessagesRequest) : String :=
  request.model ++ String.ofList (Json.arr request.messages).dumps ++ request.system.hashedText

/-- The type of the system prompt's value. -/
inductive SystemKind where
  | absent | text | blocks
  deriving DecidableEq

def SystemPrompt.kind : SystemPrompt → SystemKind
  | .absent => .absent
  | .text _ => .text
  | .blocks _ => .blocks

/-- The deciding fields that the hash does not see. -/
def unhashedFields : List RequestField :=
  [.tools, .toolChoice, .thinking, .maxTokens, .temperature, .topP, .topK, .stopSequences]

theorem hashRequest_eq_iff {sha256 : ByteArray → κ} (injective : Function.Injective sha256)
    (first second : MessagesRequest) :
    hashRequest sha256 first = hashRequest sha256 second ↔ spelling first = spelling second := by
  rw [hashRequest, hashRequest, injective.eq_iff]
  simp only [String.toUTF8_eq_toByteArray, ← String.toByteArray_append]
  exact String.toByteArray_inj

/-! ### What a key determines -/

/-- A system prompt is determined by its type and its text. -/
theorem SystemPrompt.eq_of_text {first second : SystemPrompt}
    (printable : first.dump.isPrintable = true) (printable' : second.dump.isPrintable = true)
    (kind : first.kind = second.kind) (text : first.hashedText = second.hashedText) : first = second := by
  cases first with
  | absent =>
    cases second with
    | absent => rfl
    | _ => cases kind
  | text prompt =>
    cases second with
    | text prompt' => exact congrArg _ text
    | _ => cases kind
  | blocks contents =>
    cases second with
    | blocks contents' =>
      cases contents with
      | nil =>
        cases contents' with
        | nil => rfl
        | cons content' rest' =>
          exact absurd (congrArg String.toList text) (by simp [hashedText, Json.dumps])
      | cons content rest =>
        cases contents' with
        | nil => exact absurd (congrArg String.toList text) (by simp [hashedText, Json.dumps])
        | cons content' rest' =>
          have same := String.ofList_inj.mp text
          obtain ⟨equal, -⟩ := Json.array_inj printable printable' (congrArg (· ++ []) same)
          exact congrArg _ equal
    | _ => cases kind

/-- Where the texts are the same and the models of the same length, all three parts are the same. -/
theorem parts_of_spelling {first second : MessagesRequest} (same : spelling first = spelling second)
    (length : first.model.length = second.model.length)
    (kind : first.system.kind = second.system.kind) :
    first.model = second.model ∧ first.messages = second.messages ∧ first.system = second.system := by
  have chars := congrArg String.toList same
  simp only [spelling, String.toList_append, String.toList_ofList, List.append_assoc] at chars
  obtain ⟨model, rest⟩ := List.append_inj chars length
  obtain ⟨messages, system⟩ := Json.array_inj (first.printable .messages)
    (second.printable .messages) rest
  exact ⟨String.toList_inj.mp model, messages,
    SystemPrompt.eq_of_text (first.printable .system) (second.printable .system) kind
      (String.toList_inj.mp system)⟩

theorem kind_of_same {first second : SystemPrompt} (same : first.dump.Same second.dump) :
    first.kind = second.kind := by
  cases first <;> cases second <;> first
    | rfl
    | exact absurd same (by simp [SystemPrompt.dump, Json.Same, Json.sortKeys])

/-- **When the key is sound.** -/
theorem hash_sound_iff {sha256 : ByteArray → κ} (injective : Function.Injective sha256)
    (first second : MessagesRequest) :
    (hashRequest sha256 first = hashRequest sha256 second → Agree first second) ↔
      (spelling first = spelling second →
        first.model.length = second.model.length ∧ first.system.kind = second.system.kind ∧
          AgreeOn unhashedFields first second) := by
  rw [hashRequest_eq_iff injective]
  constructor
  · intro sound same
    have agree := sound same
    have model : first.model = second.model := Json.str.inj (agree .model)
    exact ⟨by rw [model], kind_of_same (agree .system), fun field _ => agree field⟩
  · intro rest same
    obtain ⟨length, kind, others⟩ := rest same
    obtain ⟨model, messages, system⟩ := parts_of_spelling same length kind
    have hashed : AgreeOn [.model, .messages, .system] first second := by
      intro field member
      simp only [List.mem_cons, List.not_mem_nil, or_false] at member
      rcases member with rfl | rfl | rfl
      · rw [RequestBody.value, RequestBody.value, model]; rfl
      · rw [RequestBody.value, RequestBody.value, messages]; rfl
      · rw [RequestBody.value, RequestBody.value, system]; rfl
    refine (agree_iff ?_).mpr ⟨hashed, others⟩
    intro field
    cases field <;> decide

/-- The messages of a short conversation. -/
def greeting (text : String) : List Json :=
  [.obj [("role", .str "user"), ("content", .str text)]]

/-- A model, a conversation, and a second conversation as the system's text. -/
def conversationInSystem : MessagesRequest where
  model := "m"
  messages := greeting "first"
  system := .text (String.ofList (Json.arr (greeting "second")).dumps)
  printable field := by cases field <;> rfl

/-- A model whose name goes on with the first conversation, and the second conversation. -/
def conversationInModel : MessagesRequest where
  model := "m" ++ String.ofList (Json.arr (greeting "first")).dumps
  messages := greeting "second"
  printable field := by cases field <;> rfl

/-- A field that is left out and an ambiguous concatenation: both give one key to two requests. -/
theorem different_requests_share_keys :
    (hashRequest (id : ByteArray → ByteArray) forcedChoice =
        hashRequest (id : ByteArray → ByteArray) freeChoice ∧
      ¬Agree forcedChoice freeChoice) ∧
    hashRequest (id : ByteArray → ByteArray) conversationInSystem =
        hashRequest (id : ByteArray → ByteArray) conversationInModel ∧
      conversationInSystem.model ≠ conversationInModel.model ∧
      conversationInSystem.messages ≠ conversationInModel.messages ∧
      conversationInSystem.system ≠ conversationInModel.system := by
  refine ⟨⟨rfl, fun agree => absurd (agree .toolChoice) (by decide)⟩, ?_, ?_, ?_, ?_⟩
  · rw [hashRequest_eq_iff Function.injective_id, spelling, spelling, conversationInSystem,
      conversationInModel]
    simp only [SystemPrompt.hashedText, String.append_empty]
  · decide
  · decide
  · decide

theorem conversations_soundness :
    (hashRequest (id : ByteArray → ByteArray) conversationInSystem =
        hashRequest (id : ByteArray → ByteArray) conversationInModel →
      Agree conversationInSystem conversationInModel) ↔
      (spelling conversationInSystem = spelling conversationInModel →
        conversationInSystem.model.length = conversationInModel.model.length ∧
          conversationInSystem.system.kind = conversationInModel.system.kind ∧
          AgreeOn unhashedFields conversationInSystem conversationInModel) :=
  hash_sound_iff Function.injective_id conversationInSystem conversationInModel

end ClaudeProxy
