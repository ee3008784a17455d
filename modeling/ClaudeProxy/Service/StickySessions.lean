/-
**Sticky sessions** (`api/model_router.py`).

The router keeps, for the last thousand sessions that it had to resolve, what their first request was
resolved to. Its memory outlives a change of the settings.

* `RouterMemory.run` — the memory behind any requests and answers.
* `StickyKept` — at most a thousand sessions, each once, each with a provider that there is.
* **`sessions_stick`** — a session keeps the provider and the model of its first request, whatever
  model its later requests name and whatever the settings are by then, until a thousand other sessions
  have come.
-/

import ClaudeProxy.Library.FifoTable
import ClaudeProxy.Service.ModelRouter

namespace ClaudeProxy

namespace Router

/-- A messages request, under the settings of its moment, or an answer of a provider. -/
inductive RouterEvent where
  | messages (settings : RouterSettings) (call : MessagesCall)
  | succeeded (providerId : String)

/-- `set_last_successful_provider`. -/
def setLastSuccessfulProvider (memory : RouterMemory) (providerId : String) : RouterMemory :=
  { memory with lastSuccessfulProvider := some providerId }

/-- The session that a request is looked up under. -/
def stickySession (settings : RouterSettings) (call : MessagesCall) : Option String :=
  if settings.enableStickySessions then call.sessionId.filter (· ≠ "") else none

def RouterEvent.session? : RouterEvent → Option String
  | messages settings call => stickySession settings call
  | succeeded _ => none

/-- The sessions that requests have come for. -/
def sessionsOf (events : List RouterEvent) : Finset String :=
  (events.filterMap RouterEvent.session?).toFinset

variable (lower : String → String)

def RouterMemory.after (memory : RouterMemory) : RouterEvent → RouterMemory
  | .messages settings call => (resolveMessagesRequest lower settings memory call).2
  | .succeeded providerId => setLastSuccessfulProvider memory providerId

/-- The memory behind the events. -/
def RouterMemory.run (memory : RouterMemory) (events : List RouterEvent) : RouterMemory :=
  events.foldl (RouterMemory.after lower) memory

/-- **What the memory always is.** -/
structure StickyKept (memory : RouterMemory) : Prop where
  bounded : memory.sessions.length ≤ maxStickySessions
  distinct : (memory.sessions.map Prod.fst).Nodup
  supported : ∀ entry ∈ memory.sessions, entry.2.providerId ∈ supportedProviderIds

variable {lower} {settings : RouterSettings} {memory : RouterMemory} {call : MessagesCall}
  {session : String} {resolved : ResolvedModel}

/-! ### One request -/

/-- Whatever a name is resolved to, there is such a provider. -/
theorem resolve_supported (name : String) :
    (resolve lower settings name).providerId ∈ supportedProviderIds := by
  unfold resolve resolveName
  cases direct : directProviderModel (applyAliases settings name) with
  | some found =>
    obtain ⟨provider, model, force⟩ := found
    exact direct_supported direct
  | none => exact (resolveModel lower settings _).supported

/-- A session that is known is not resolved again. -/
theorem resolveMessagesRequest_of_known (named : stickySession settings call = some session)
    (known : Assoc.get? session memory.sessions = some resolved) :
    resolveMessagesRequest lower settings memory call =
      (⟨resolved.providerModel, resolved⟩, memory) := by
  unfold stickySession at named
  unfold resolveMessagesRequest
  simp only [named, Option.bind_some, known]

/-- A session that is not known is resolved, and known from then on. -/
theorem resolveMessagesRequest_of_new (named : stickySession settings call = some session)
    (unknown : Assoc.get? session memory.sessions = none) :
    ∃ name, let resolved := resolve lower settings name
      resolveMessagesRequest lower settings memory call =
        (⟨resolved.providerModel, resolved⟩, { memory with
          sessions := Assoc.enter maxStickySessions session resolved memory.sessions }) := by
  unfold stickySession at named
  unfold resolveMessagesRequest
  simp only [named, Option.bind_some, unknown]
  exact ⟨_, rfl⟩

/-- Without a session, a request is resolved and not remembered. -/
theorem resolveMessagesRequest_of_unnamed (unnamed : stickySession settings call = none) :
    ∃ name, let resolved := resolve lower settings name
      resolveMessagesRequest lower settings memory call =
        (⟨resolved.providerModel, resolved⟩, memory) := by
  unfold stickySession at unnamed
  unfold resolveMessagesRequest
  simp only [unnamed, Option.bind_none]
  exact ⟨_, rfl⟩

/-! ### The memory over a run -/

namespace StickyKept

theorem empty : StickyKept {} := ⟨Nat.zero_le _, List.nodup_nil, fun _ member => nomatch member⟩

/-- **One event keeps the memory in order.** -/
theorem after (kept : StickyKept memory) (event : RouterEvent) :
    StickyKept (memory.after lower event) := by
  cases event with
  | succeeded providerId => exact ⟨kept.bounded, kept.distinct, kept.supported⟩
  | messages settings call =>
    show StickyKept (resolveMessagesRequest lower settings memory call).2
    cases named : stickySession settings call with
    | none =>
      obtain ⟨name, routed⟩ := @resolveMessagesRequest_of_unnamed lower _ memory _ named
      rw [routed]
      exact kept
    | some session =>
      cases known : Assoc.get? session memory.sessions with
      | some resolved =>
        rw [resolveMessagesRequest_of_known named known]
        exact kept
      | none =>
        obtain ⟨name, routed⟩ := @resolveMessagesRequest_of_new lower _ _ _ _ named known
        rw [routed]
        have absent := Assoc.notMem_of_get?_eq_none known
        refine ⟨Assoc.length_enter_le kept.bounded absent, Assoc.nodup_enter kept.distinct _ _, ?_⟩
        intro entry member
        rcases Assoc.mem_enter member with rfl | member
        · exact resolve_supported name
        · exact kept.supported entry member

/-- **So does a run.** -/
theorem run (kept : StickyKept memory) (events : List RouterEvent) :
    StickyKept (memory.run lower events) := by
  induction events generalizing memory with
  | nil => exact kept
  | cons event rest ih => exact ih (kept.after event)

end StickyKept

/-! ### A session -/

/-- **An event leaves a session where it is**, while there is room for all that have come since. -/
theorem heldSince_after (kept : StickyKept memory) {names : Finset String}
    (held : Assoc.HeldSince session resolved names memory.sessions) (event : RouterEvent)
    (room : ((sessionsOf [event] ∪ names).erase session).card < maxStickySessions) :
    Assoc.HeldSince session resolved (sessionsOf [event] ∪ names)
      (memory.after lower event).sessions := by
  have stays := held.weaken (@Finset.subset_union_right _ _ (sessionsOf [event]) names)
  cases event with
  | succeeded providerId => exact stays
  | messages settings call =>
    show Assoc.HeldSince session resolved _ (resolveMessagesRequest lower settings memory call).2.sessions
    cases named : stickySession settings call with
    | none =>
      obtain ⟨name, routed⟩ := @resolveMessagesRequest_of_unnamed lower _ memory _ named
      rw [routed]
      exact stays
    | some other =>
      cases known : Assoc.get? other memory.sessions with
      | some resolved' =>
        rw [resolveMessagesRequest_of_known named known]
        exact stays
      | none =>
        obtain ⟨name, routed⟩ := @resolveMessagesRequest_of_new lower _ _ _ _ named known
        have all : sessionsOf [.messages settings call] ∪ names =
            insert other names := by
          ext name
          simp [sessionsOf, RouterEvent.session?, named]
        rw [all] at room ⊢
        rw [routed]
        exact held.enter kept.distinct (Assoc.notMem_of_get?_eq_none known) room

/-- So do many. -/
theorem heldSince_run (kept : StickyKept memory) {names : Finset String}
    (held : Assoc.HeldSince session resolved names memory.sessions) (events : List RouterEvent)
    (room : ((sessionsOf events ∪ names).erase session).card < maxStickySessions) :
    Assoc.HeldSince session resolved (sessionsOf events ∪ names) (memory.run lower events).sessions := by
  induction events generalizing memory names with
  | nil => exact held.weaken Finset.subset_union_right
  | cons event rest ih =>
    have all : sessionsOf (event :: rest) ∪ names =
        sessionsOf rest ∪ (sessionsOf [event] ∪ names) := by
      ext name
      simp only [sessionsOf, Finset.mem_union, List.mem_toFinset, List.mem_filterMap, List.mem_cons,
        exists_eq_or_imp, List.not_mem_nil, or_false, exists_eq_left]
      rw [or_assoc, or_left_comm]
    rw [all] at room ⊢
    refine ih (kept.after event) (heldSince_after kept held event (lt_of_le_of_lt ?_ room)) room
    exact Finset.card_le_card (Finset.erase_subset_erase _ Finset.subset_union_right)

/-- **Sessions stick.** In every run, the memory is in order, and a session keeps what its first
request was resolved to until a thousand other sessions have come. -/
theorem sessions_stick (events : List RouterEvent) :
    StickyKept (RouterMemory.run lower {} events) ∧
    ∀ before settings call between settings' call' session,
      events = before ++ .messages settings call :: between →
      stickySession settings call = some session →
      Assoc.get? session (RouterMemory.run lower {} before).sessions = none →
      stickySession settings' call' = some session →
      ((sessionsOf between).erase session).card < maxStickySessions →
      (resolveMessagesRequest lower settings' (RouterMemory.run lower {} events) call').1 =
        (resolveMessagesRequest lower settings (RouterMemory.run lower {} before) call).1 := by
  refine ⟨StickyKept.empty.run events, ?_⟩
  rintro before settings call between settings' call' session rfl named unknown again room
  have kept : StickyKept (RouterMemory.run lower {} before) := StickyKept.empty.run before
  obtain ⟨name, routed⟩ := @resolveMessagesRequest_of_new lower _ _ _ _ named unknown
  have first : Assoc.HeldSince session (resolve lower settings name) ∅
      ((RouterMemory.run lower {} before).after lower (.messages settings call)).sessions := by
    show Assoc.HeldSince _ _ _ (resolveMessagesRequest lower settings _ call).2.sessions
    rw [routed]
    exact .entered (by decide) (Assoc.notMem_of_get?_eq_none unknown)
  have later := @heldSince_run lower _ _ _ (kept.after _) _ first between (by rwa [Finset.union_empty])
  have split : RouterMemory.run lower {} (before ++ .messages settings call :: between) =
      RouterMemory.run lower ((RouterMemory.run lower {} before).after lower
        (.messages settings call)) between := List.foldl_append
  have distinct := (@StickyKept.run lower _ .empty (before ++ .messages settings call :: between)).distinct
  rw [split] at distinct ⊢
  rw [resolveMessagesRequest_of_known again (Assoc.get?_eq_some_of_mem distinct later.mem), routed]

/-- One session asks for two models, with another session and an answer in between. -/
theorem sessions_stick_twice :
    let sticky : RouterSettings := { aliasSettings "" with enableStickySessions := true }
    let first : MessagesCall := { model := "groq/llama", sessionId := some "a" }
    let other : MessagesCall := { model := "zai/glm", sessionId := some "b" }
    let again : MessagesCall := { model := "claude-haiku", sessionId := some "a" }
    (resolveMessagesRequest asciiLower sticky (RouterMemory.run asciiLower {}
        [.messages sticky first, .messages sticky other, .succeeded "zai"]) again).1 =
      (resolveMessagesRequest asciiLower sticky {} first).1 :=
  (sessions_stick _).2 [] _ _ _ _ _ "a" rfl (by decide) rfl (by decide) (by decide)

end Router

end ClaudeProxy
