/-
**The session manager of the CLI.**

* `CLISessionManager` — the four dictionaries; `getOrCreateSession`, `registerRealSessionId`,
  `removeSession`, `stopAll` on them and on the session objects of the process.
* `Consistent` — the id maps are inverse to each other, their real side is the key set of the
  registered sessions, every live session object has exactly one place, and an object without a place
  has been stopped.
* `session_ids_exact` — **a run that registers fresh real ids stays consistent exactly as long as no
  generated id hits a pending session and no id is registered that already has a real id.**

The generated part of a temporary id is eight hexadecimal digits of a random number, drawn without a
look at the ids in use.
-/

import ClaudeProxy.Library.Placement
import ClaudeProxy.Library.Transition
import ClaudeProxy.Python

namespace ClaudeProxy

/-- A session object, by the number of objects constructed before it. -/
structure CLISession where
  number : Nat
  deriving DecidableEq, Repr

structure CLISessionManager where
  sessions : Dict String CLISession
  pendingSessions : Dict String CLISession
  tempToReal : Dict String String
  realToTemp : Dict String String
  deriving DecidableEq

/-- The manager and the session objects of the process: how many have been constructed, and on which
of them `stop` has been called. -/
structure SessionWorld where
  manager : CLISessionManager
  constructed : Nat
  stopped : List CLISession
  deriving DecidableEq

namespace CLISessionManager

/-- The manager as it is constructed. -/
def empty : CLISessionManager where
  sessions := ∅
  pendingSessions := ∅
  tempToReal := ∅
  realToTemp := ∅

/-- The session id if it is not empty. -/
def given (sessionId : Option String) : Option String := sessionId.filter (· ≠ "")

/-- The key for a new pending session. -/
def newTempId (sessionId : Option String) (hex : String) : String :=
  (given sessionId).getD ("pending_" ++ Py.take hex 8)

/-- The session that a given id already has, with the id under which it stands. -/
def existing (manager : CLISessionManager) (sessionId : Option String) :
    Option (CLISession × String) :=
  (given sessionId).bind fun sessionId =>
    let lookupId := (manager.tempToReal.get? sessionId).getD sessionId
    match manager.sessions.get? lookupId with
    | some session => some (session, lookupId)
    | none =>
      match manager.pendingSessions.get? lookupId with
      | some session => some (session, lookupId)
      | none => none

end CLISessionManager

namespace SessionWorld

open CLISessionManager

/-- A process with a new manager. -/
def start : SessionWorld := ⟨.empty, 0, []⟩

/-- `get_or_create_session`, where `hex` is what `uuid.uuid4().hex` draws. -/
def getOrCreateSession (world : SessionWorld) (sessionId : Option String) (hex : String) :
    (CLISession × String × Bool) × SessionWorld :=
  match world.manager.existing sessionId with
  | some (session, lookupId) => ((session, lookupId, false), world)
  | none =>
    let tempId := newTempId sessionId hex
    let newSession : CLISession := ⟨world.constructed⟩
    ((newSession, tempId, true),
      { world with
        manager := { world.manager with
          pendingSessions := world.manager.pendingSessions.set tempId newSession }
        constructed := world.constructed + 1 })

/-- `register_real_session_id`. -/
def registerRealSessionId (world : SessionWorld) (tempId realSessionId : String) :
    Bool × SessionWorld :=
  match world.manager.pendingSessions.get? tempId with
  | none => (false, world)
  | some session =>
    (true, { world with
      manager := {
        pendingSessions := world.manager.pendingSessions.erase tempId
        sessions := world.manager.sessions.set realSessionId session
        tempToReal := world.manager.tempToReal.set tempId realSessionId
        realToTemp := world.manager.realToTemp.set realSessionId tempId } })

/-- The mapping of a removed real id is forgotten on both sides. -/
def forget (manager : CLISessionManager) (realSessionId : String) : CLISessionManager :=
  match manager.realToTemp.get? realSessionId with
  | none => manager
  | some tempId =>
    { manager with
      realToTemp := manager.realToTemp.erase realSessionId
      tempToReal := manager.tempToReal.erase tempId }

/-- `remove_session`: pending sessions first. -/
def removeSession (world : SessionWorld) (sessionId : String) : Bool × SessionWorld :=
  match world.manager.pendingSessions.get? sessionId with
  | some session =>
    (true, { world with
      manager := { world.manager with
        pendingSessions := world.manager.pendingSessions.erase sessionId }
      stopped := session :: world.stopped })
  | none =>
    match world.manager.sessions.get? sessionId with
    | some session =>
      (true, { world with
        manager := forget
          { world.manager with sessions := world.manager.sessions.erase sessionId } sessionId
        stopped := session :: world.stopped })
    | none => (false, world)

/-- `stop_all`. -/
def stopAll (world : SessionWorld) : SessionWorld :=
  { world with
    manager := .empty
    stopped := (world.manager.sessions.values ++ world.manager.pendingSessions.values) ++ world.stopped }

end SessionWorld

/-! ### The consistency of the maps -/

/-- A key of one of the two session dictionaries. -/
inductive SessionSlot
  | session (key : String)
  | pending (key : String)
  deriving DecidableEq

/-- The key of a slot. -/
def SessionSlot.key : SessionSlot → String
  | .session key => key
  | .pending key => key

/-- The object stored in a slot. -/
def CLISessionManager.stored (manager : CLISessionManager) : SessionSlot → Option CLISession
  | .session key => manager.sessions.get? key
  | .pending key => manager.pendingSessions.get? key

/-- A session object that has been constructed and not been stopped. -/
def SessionWorld.Live (world : SessionWorld) (session : CLISession) : Prop :=
  session.number < world.constructed ∧ session ∉ world.stopped

/-- The four dictionaries agree with each other and with the session objects. -/
structure SessionWorld.Consistent (world : SessionWorld) : Prop where
  inverse : Inverse world.manager.tempToReal world.manager.realToTemp
  realSide : ∀ real, (world.manager.realToTemp.get? real).isSome =
    (world.manager.sessions.get? real).isSome
  placed : Placed world.manager.stored world.Live
  ended : ∀ session : CLISession, session.number < world.constructed →
    (∀ slot, world.manager.stored slot ≠ some session) → session ∈ world.stopped

namespace SessionWorld

open CLISessionManager

variable {world : SessionWorld}

/-- An object without a place has been stopped, if every live one has a place. -/
theorem ended_of_placed (placed : Placed world.manager.stored world.Live) (session : CLISession)
    (constructed : session.number < world.constructed)
    (nowhere : ∀ slot, world.manager.stored slot ≠ some session) : session ∈ world.stopped := by
  by_contra running
  obtain ⟨slot, here, -⟩ := placed.once session ⟨constructed, running⟩
  exact nowhere slot here

theorem stored_set_pending (manager : CLISessionManager) (key : String) (session : CLISession) :
    stored { manager with pendingSessions := manager.pendingSessions.set key session } =
      Function.update manager.stored (.pending key) (some session) := by
  funext slot
  cases slot with
  | session other => simp [stored]
  | pending other =>
    by_cases same : other = key
    · simp [stored, same]
    · simp [stored, same, Dict.get?_set_ne]

theorem stored_erase_pending (manager : CLISessionManager) (key : String) :
    stored { manager with pendingSessions := manager.pendingSessions.erase key } =
      Function.update manager.stored (.pending key) none := by
  funext slot
  cases slot with
  | session other => simp [stored]
  | pending other =>
    by_cases same : other = key
    · simp [stored, same, Dict.get?_erase]
    · simp [stored, same, Dict.get?_erase]

theorem stored_set_session (manager : CLISessionManager) (key : String) (session : CLISession) :
    stored { manager with sessions := manager.sessions.set key session } =
      Function.update manager.stored (.session key) (some session) := by
  funext slot
  cases slot with
  | pending other => simp [stored]
  | session other =>
    by_cases same : other = key
    · simp [stored, same]
    · simp [stored, same, Dict.get?_set_ne]

theorem stored_erase_session (manager : CLISessionManager) (key : String) :
    stored { manager with sessions := manager.sessions.erase key } =
      Function.update manager.stored (.session key) none := by
  funext slot
  cases slot with
  | pending other => simp [stored]
  | session other =>
    by_cases same : other = key
    · simp [stored, same, Dict.get?_erase]
    · simp [stored, same, Dict.get?_erase]

/-- The id maps are no part of what is stored. -/
theorem stored_maps (manager : CLISessionManager) (tempToReal realToTemp : Dict String String) :
    stored { manager with tempToReal := tempToReal, realToTemp := realToTemp } = manager.stored := by
  funext slot
  cases slot <;> rfl

theorem stored_forget (manager : CLISessionManager) (real : String) :
    (forget manager real).stored = manager.stored := by
  unfold forget
  split
  · rfl
  · exact stored_maps manager _ _

/-! ### What each operation does to the maps -/

theorem consistent_start : start.Consistent where
  inverse key image := by simp [start, CLISessionManager.empty]
  realSide real := rfl
  placed := by
    constructor
    · rintro session ⟨constructed, -⟩
      exact absurd constructed (Nat.not_lt_zero _)
    · intro slot session here
      cases slot <;> cases here
  ended session constructed := absurd constructed (Nat.not_lt_zero _)

/-- The world after a new session object under a key. -/
def construct (world : SessionWorld) (key : String) : SessionWorld :=
  { world with
    manager := { world.manager with
      pendingSessions := world.manager.pendingSessions.set key ⟨world.constructed⟩ }
    constructed := world.constructed + 1 }

theorem not_live_new : ¬ world.Live ⟨world.constructed⟩ :=
  fun live => Nat.lt_irrefl _ live.1

/-- The objects alive after one more construction. -/
theorem live_construct (bounded : ∀ session ∈ world.stopped, session.number < world.constructed)
    (key : String) (session : CLISession) :
    (world.construct key).Live session ↔ session = ⟨world.constructed⟩ ∨ world.Live session := by
  constructor
  · rintro ⟨constructed, running⟩
    rcases Nat.lt_succ_iff_lt_or_eq.mp constructed with earlier | new
    · exact Or.inr ⟨earlier, running⟩
    · exact Or.inl (congrArg CLISession.mk new)
  · rintro (rfl | ⟨constructed, running⟩)
    · exact ⟨Nat.lt_succ_self _, fun ended => Nat.lt_irrefl _ (bounded _ ended)⟩
    · exact ⟨Nat.lt_succ_of_lt constructed, running⟩

/-- **A new session under a free key keeps the maps consistent.** -/
theorem Consistent.construct (consistent : world.Consistent)
    (bounded : ∀ session ∈ world.stopped, session.number < world.constructed) {key : String}
    (free : world.manager.pendingSessions.get? key = none) :
    (world.construct key).Consistent := by
  have placed : Placed (world.construct key).manager.stored (world.construct key).Live := by
    show Placed (stored { world.manager with pendingSessions := _ }) _
    rw [stored_set_pending]
    have empty : world.manager.stored (.pending key) = none := free
    apply (consistent.placed.put empty not_live_new).congr
    exact fun session => (live_construct bounded key session).symm
  exact ⟨consistent.inverse, consistent.realSide, placed, ended_of_placed placed⟩

/-- **A new session under the key of a pending one does not.** -/
theorem Consistent.not_construct (consistent : world.Consistent)
    (bounded : ∀ session ∈ world.stopped, session.number < world.constructed) {key : String}
    {old : CLISession} (taken : world.manager.pendingSessions.get? key = some old) :
    ¬ (world.construct key).Consistent := by
  intro after
  have alive : world.Live old := consistent.placed.alive (.pending key) old taken
  have different : (⟨world.constructed⟩ : CLISession) ≠ old := by
    rintro rfl
    exact not_live_new alive
  have placed := after.placed
  have here : world.manager.stored (.pending key) = some old := taken
  apply consistent.placed.overwritten here different
    ((live_construct bounded key old).mpr (Or.inr alive))
  rw [← stored_set_pending]
  exact placed

/-- The world after a pending session has got its real id. -/
def register (world : SessionWorld) (tempId real : String) (session : CLISession) : SessionWorld :=
  { world with
    manager := {
      pendingSessions := world.manager.pendingSessions.erase tempId
      sessions := world.manager.sessions.set real session
      tempToReal := world.manager.tempToReal.set tempId real
      realToTemp := world.manager.realToTemp.set real tempId } }

theorem stored_register (tempId real : String) (session : CLISession) :
    (world.register tempId real session).manager.stored =
      Function.update (Function.update world.manager.stored (.pending tempId) none) (.session real)
        (some session) := by
  rw [← stored_erase_pending, ← stored_set_session]
  funext slot
  cases slot <;> rfl

/-- **A fresh real id for a temporary id without one keeps the maps consistent.** -/
theorem Consistent.register (consistent : world.Consistent) {tempId real : String}
    {session : CLISession} (pending : world.manager.pendingSessions.get? tempId = some session)
    (unmapped : world.manager.tempToReal.get? tempId = none)
    (fresh : world.manager.sessions.get? real = none) :
    (world.register tempId real session).Consistent := by
  have newReal : world.manager.realToTemp.get? real = none := by
    have side := consistent.realSide real
    rwa [fresh, Option.isSome_none, Option.isSome_eq_false_iff, Option.isNone_iff_eq_none] at side
  have placed : Placed (world.register tempId real session).manager.stored
      (world.register tempId real session).Live := by
    rw [stored_register]
    have here : world.manager.stored (.pending tempId) = some session := pending
    have empty : world.manager.stored (.session real) = none := fresh
    exact consistent.placed.move here empty
  refine ⟨consistent.inverse.set unmapped newReal, fun other => ?_, placed, ended_of_placed placed⟩
  show ((world.manager.realToTemp.set real tempId).get? other).isSome =
    ((world.manager.sessions.set real session).get? other).isSome
  rw [Dict.get?_set, Dict.get?_set]
  by_cases same : other = real
  · rw [if_pos same, if_pos same, Option.isSome_some, Option.isSome_some]
  · rw [if_neg same, if_neg same]
    exact consistent.realSide other

/-- **A second real id for a temporary id breaks the id maps.** -/
theorem Consistent.not_register (consistent : world.Consistent) {tempId real old : String}
    {session : CLISession} (mapped : world.manager.tempToReal.get? tempId = some old)
    (fresh : world.manager.sessions.get? real = none) :
    ¬ (world.register tempId real session).Consistent := by
  intro after
  have different : real ≠ old := by
    rintro rfl
    have side := consistent.realSide real
    rw [(consistent.inverse tempId real).mp mapped, fresh] at side
    cases side
  exact not_inverse_of_set consistent.inverse mapped different after.inverse

/-- The objects alive after one of them has been stopped. -/
theorem live_stop (manager : CLISessionManager) (session other : CLISession) :
    ({ world with manager := manager, stopped := session :: world.stopped } : SessionWorld).Live other ↔
      other ≠ session ∧ world.Live other := by
  simp only [Live, List.mem_cons, not_or]
  tauto

/-- Removing a pending session keeps the maps consistent. -/
theorem Consistent.erasePending (consistent : world.Consistent) {key : String} {session : CLISession}
    (here : world.manager.pendingSessions.get? key = some session) :
    ({ world with
      manager := { world.manager with
        pendingSessions := world.manager.pendingSessions.erase key }
      stopped := session :: world.stopped } : SessionWorld).Consistent := by
  have stands : world.manager.stored (.pending key) = some session := here
  have placed := (consistent.placed.drop stands).congr fun other =>
    (@live_stop world { world.manager with
      pendingSessions := world.manager.pendingSessions.erase key } session other).symm
  rw [← stored_erase_pending] at placed
  exact ⟨consistent.inverse, consistent.realSide, placed, ended_of_placed placed⟩

/-- Removing a registered session, its two map entries with it, keeps the maps consistent. -/
theorem Consistent.eraseSession (consistent : world.Consistent) {key : String}
    {session : CLISession} (here : world.manager.sessions.get? key = some session) :
    ({ world with
      manager := forget { world.manager with sessions := world.manager.sessions.erase key } key
      stopped := session :: world.stopped } : SessionWorld).Consistent := by
  have stands : world.manager.stored (.session key) = some session := here
  have placed := (consistent.placed.drop stands).congr fun other =>
    (@live_stop world
      (forget { world.manager with sessions := world.manager.sessions.erase key } key)
      session other).symm
  rw [← stored_erase_session, ← stored_forget _ key] at placed
  have side := consistent.realSide key
  rw [here, Option.isSome_some, Option.isSome_iff_exists] at side
  obtain ⟨tempId, back⟩ := side
  have ahead := (consistent.inverse tempId key).mpr back
  have forgotten : forget { world.manager with sessions := world.manager.sessions.erase key } key =
      { world.manager with
        sessions := world.manager.sessions.erase key
        realToTemp := world.manager.realToTemp.erase key
        tempToReal := world.manager.tempToReal.erase tempId } := by
    simp only [forget, back]
  refine ⟨?_, fun other => ?_, placed, ended_of_placed placed⟩
  · rw [forgotten]
    exact consistent.inverse.erase ahead
  · rw [forgotten]
    show ((world.manager.realToTemp.erase key).get? other).isSome =
      ((world.manager.sessions.erase key).get? other).isSome
    rw [Dict.get?_erase, Dict.get?_erase]
    by_cases same : other = key
    · rw [if_pos same, if_pos same]
      rfl
    · rw [if_neg same, if_neg same]
      exact consistent.realSide other

/-- `remove_session` keeps the maps consistent. -/
theorem Consistent.removeSession (consistent : world.Consistent) (sessionId : String) :
    (world.removeSession sessionId).2.Consistent := by
  unfold SessionWorld.removeSession
  split
  · rename_i session here
    exact consistent.erasePending here
  · split
    · rename_i session here
      exact consistent.eraseSession here
    · exact consistent

/-- Every stored object is among those that `stop_all` stops. -/
theorem mem_stopped_stopAll {slot : SessionSlot} {session : CLISession}
    (here : world.manager.stored slot = some session) : session ∈ world.stopAll.stopped := by
  apply List.mem_append_left
  rw [List.mem_append]
  cases slot with
  | session key => exact Or.inl (world.manager.sessions.mem_values_iff.mpr ⟨key, here⟩)
  | pending key => exact Or.inr (world.manager.pendingSessions.mem_values_iff.mpr ⟨key, here⟩)

/-- `stop_all` keeps the maps consistent. -/
theorem Consistent.stopAll (consistent : world.Consistent) : world.stopAll.Consistent := by
  have placed : Placed world.stopAll.manager.stored world.stopAll.Live := by
    constructor
    · rintro session ⟨constructed, running⟩
      have before : world.Live session := by
        refine ⟨constructed, fun ended => running ?_⟩
        exact List.mem_append_right _ ended
      obtain ⟨slot, here, -⟩ := consistent.placed.once session before
      exact absurd (mem_stopped_stopAll here) running
    · intro slot session here
      cases slot <;> cases here
  exact ⟨consistent_start.inverse, consistent_start.realSide, placed, ended_of_placed placed⟩

end SessionWorld

/-! ### Runs of the manager -/

inductive SessionAction
  | getOrCreateSession (sessionId : Option String) (hex : String)
  | registerRealSessionId (tempId realSessionId : String)
  | removeSession (sessionId : String)
  | stopAll
  deriving DecidableEq

/-- The world and the ids used so far, as temporary or as real ones. -/
structure SessionHistory where
  world : SessionWorld
  used : List String
  deriving DecidableEq

namespace SessionHistory

open CLISessionManager SessionWorld

/-- One operation. A session registered under a used real id has no step. -/
def step (history : SessionHistory) : SessionAction → Option SessionHistory
  | .getOrCreateSession sessionId hex =>
    let after := history.world.getOrCreateSession sessionId hex
    some ⟨after.2, if after.1.2.2 then after.1.2.1 :: history.used else history.used⟩
  | .registerRealSessionId tempId realSessionId =>
    let after := history.world.registerRealSessionId tempId realSessionId
    if after.1 then
      if realSessionId ∈ history.used then none else some ⟨after.2, realSessionId :: history.used⟩
    else some ⟨after.2, history.used⟩
  | .removeSession sessionId => some ⟨(history.world.removeSession sessionId).2, history.used⟩
  | .stopAll => some ⟨history.world.stopAll, history.used⟩

/-- The manager from its construction on. -/
def start : SessionHistory := ⟨SessionWorld.start, []⟩

/-- Sequences of operations in which every registered real id is fresh. -/
def machine : Machine SessionHistory SessionAction where
  init history := history = start
  step := step

/-- The maps of the reached world agree. -/
def Consistent (history : SessionHistory) : Prop := history.world.Consistent

/-- An id generated for a new session is no key of a pending session, and a temporary id that is
registered has no real id yet. -/
def TempIdFree (history : SessionHistory) : SessionAction → Prop
  | .getOrCreateSession sessionId hex =>
    given sessionId = none →
      history.world.manager.pendingSessions.get? (newTempId sessionId hex) = none
  | .registerRealSessionId tempId _ =>
    history.world.manager.pendingSessions.get? tempId ≠ none →
      history.world.manager.tempToReal.get? tempId = none
  | .removeSession _ => True
  | .stopAll => True

/-- The ids in the maps have been used, and the objects stored or stopped have been constructed. -/
structure Recorded (history : SessionHistory) : Prop where
  registered : ∀ real session, history.world.manager.sessions.get? real = some session →
    real ∈ history.used
  constructed : ∀ slot session, history.world.manager.stored slot = some session →
    session.number < history.world.constructed
  stopped : ∀ session ∈ history.world.stopped, session.number < history.world.constructed

theorem recorded_start : start.Recorded where
  registered real session here := by cases here
  constructed slot session here := by cases slot <;> cases here
  stopped session ended := absurd ended List.not_mem_nil

end SessionHistory

namespace SessionWorld

open CLISessionManager

variable {world : SessionWorld}

theorem getOrCreateSession_existing {sessionId : Option String} {found : CLISession × String}
    (existing : world.manager.existing sessionId = some found) (hex : String) :
    world.getOrCreateSession sessionId hex = ((found.1, found.2, false), world) := by
  simp only [getOrCreateSession, existing]

theorem getOrCreateSession_new {sessionId : Option String}
    (missing : world.manager.existing sessionId = none) (hex : String) :
    world.getOrCreateSession sessionId hex =
      ((⟨world.constructed⟩, newTempId sessionId hex, true),
        world.construct (newTempId sessionId hex)) := by
  simp only [getOrCreateSession, missing, construct]

theorem registerRealSessionId_pending {tempId : String} {session : CLISession}
    (pending : world.manager.pendingSessions.get? tempId = some session) (real : String) :
    world.registerRealSessionId tempId real = (true, world.register tempId real session) := by
  simp only [registerRealSessionId, pending, register]

theorem registerRealSessionId_missing {tempId : String}
    (missing : world.manager.pendingSessions.get? tempId = none) (real : String) :
    world.registerRealSessionId tempId real = (false, world) := by
  simp only [registerRealSessionId, missing]

/-- With consistent maps a given id for which nothing is found is no key of a pending session. -/
theorem Consistent.free_of_given (consistent : world.Consistent) {sessionId : Option String}
    {id : String} (present : given sessionId = some id)
    (missing : world.manager.existing sessionId = none) :
    world.manager.pendingSessions.get? id = none := by
  simp only [existing, present, Option.bind_some] at missing
  cases mapped : world.manager.tempToReal.get? id with
  | some real =>
    have side := consistent.realSide real
    rw [(consistent.inverse id real).mp mapped, Option.isSome_some] at side
    obtain ⟨session, here⟩ := Option.isSome_iff_exists.mp side.symm
    simp only [mapped, Option.getD_some, here] at missing
    cases missing
  | none =>
    simp only [mapped, Option.getD_none] at missing
    split at missing
    · cases missing
    · split at missing
      · cases missing
      · assumption

/-- What an operation that only takes sessions out can do. -/
structure Shrinks (world next : SessionWorld) : Prop where
  stored : ∀ slot session, next.manager.stored slot = some session →
    world.manager.stored slot = some session
  stopped : ∀ session ∈ next.stopped, session ∈ world.stopped ∨
    ∃ slot, world.manager.stored slot = some session
  constructed : next.constructed = world.constructed

/-- An erased slot has nothing in it, the others are as before. -/
theorem stored_of_update_none {stored : SessionSlot → Option CLISession} {place slot : SessionSlot}
    {session : CLISession} (here : Function.update stored place none slot = some session) :
    stored slot = some session := by
  by_cases same : slot = place
  · rw [same, Function.update_self] at here
    cases here
  · rwa [Function.update_of_ne same] at here

theorem removeSession_shrinks (sessionId : String) :
    world.Shrinks (world.removeSession sessionId).2 := by
  unfold SessionWorld.removeSession
  split
  · rename_i session here
    refine ⟨fun slot other stands => ?_, fun other ended => ?_, rfl⟩
    · exact stored_of_update_none (stored_erase_pending world.manager sessionId ▸ stands)
    · rcases List.mem_cons.mp ended with rfl | ended
      · exact Or.inr ⟨.pending sessionId, here⟩
      · exact Or.inl ended
  · split
    · rename_i session here
      refine ⟨fun slot other stands => ?_, fun other ended => ?_, rfl⟩
      · have stands := (congrFun (stored_forget _ sessionId) slot).symm.trans stands
        exact stored_of_update_none (stored_erase_session world.manager sessionId ▸ stands)
      · rcases List.mem_cons.mp ended with rfl | ended
        · exact Or.inr ⟨.session sessionId, here⟩
        · exact Or.inl ended
    · exact ⟨fun _ _ stands => stands, fun _ ended => Or.inl ended, rfl⟩

theorem stopAll_shrinks : world.Shrinks world.stopAll where
  stored slot session here := by cases slot <;> cases here
  stopped session ended := by
    rcases List.mem_append.mp ended with stopping | ended
    · rcases List.mem_append.mp stopping with inside | inside
      · obtain ⟨key, here⟩ := world.manager.sessions.mem_values_iff.mp inside
        exact Or.inr ⟨.session key, here⟩
      · obtain ⟨key, here⟩ := world.manager.pendingSessions.mem_values_iff.mp inside
        exact Or.inr ⟨.pending key, here⟩
    · exact Or.inl ended
  constructed := rfl

end SessionWorld

namespace SessionHistory

open CLISessionManager SessionWorld

variable {history : SessionHistory}

theorem Recorded.shrink (recorded : history.Recorded) {next : SessionWorld}
    (shrinks : history.world.Shrinks next) : Recorded ⟨next, history.used⟩ where
  registered real session here := by
    have stands : next.manager.stored (.session real) = some session := here
    exact recorded.registered real session (shrinks.stored _ session stands)
  constructed slot session here := by
    rw [shrinks.constructed]
    exact recorded.constructed slot session (shrinks.stored slot session here)
  stopped session ended := by
    rw [shrinks.constructed]
    rcases shrinks.stopped session ended with ended | ⟨slot, here⟩
    · exact recorded.stopped session ended
    · exact recorded.constructed slot session here

theorem Recorded.construct (recorded : history.Recorded) (key : String) :
    Recorded ⟨history.world.construct key, key :: history.used⟩ where
  registered real session here := List.mem_cons_of_mem _ (recorded.registered real session here)
  constructed slot session here := by
    by_cases same : slot = .pending key
    · subst same
      have new : (history.world.manager.pendingSessions.set key ⟨history.world.constructed⟩).get? key =
        some session := here
      rw [Dict.get?_set_self, Option.some.injEq] at new
      rw [← new]
      exact Nat.lt_succ_self _
    · have here := (congrFun (stored_set_pending history.world.manager key _) slot).symm.trans here
      rw [Function.update_of_ne same] at here
      exact Nat.lt_succ_of_lt (recorded.constructed slot session here)
  stopped session ended := Nat.lt_succ_of_lt (recorded.stopped session ended)

theorem Recorded.register (recorded : history.Recorded) {tempId : String} {session : CLISession}
    (pending : history.world.manager.pendingSessions.get? tempId = some session) (real : String) :
    Recorded ⟨history.world.register tempId real session, real :: history.used⟩ where
  registered other stands here := by
    by_cases same : other = real
    · exact same ▸ List.mem_cons_self
    · have here := (Dict.get?_set_ne history.world.manager.sessions same session).symm.trans here
      exact List.mem_cons_of_mem _ (recorded.registered other stands here)
  constructed slot other here := by
    have here := (congrFun (stored_register tempId real session) slot).symm.trans here
    by_cases same : slot = .session real
    · rw [same, Function.update_self, Option.some.injEq] at here
      rw [← here]
      exact recorded.constructed (.pending tempId) session pending
    · rw [Function.update_of_ne same] at here
      exact recorded.constructed slot other (stored_of_update_none here)
  stopped other ended := recorded.stopped other ended

/-- **What a step can do.** -/
theorem step_cases {action : SessionAction} {next : SessionHistory}
    (stepped : history.step action = some next) :
    (∃ sessionId hex, action = .getOrCreateSession sessionId hex ∧
      ((history.world.manager.existing sessionId ≠ none ∧ next = history) ∨
        (history.world.manager.existing sessionId = none ∧
          next = ⟨history.world.construct (newTempId sessionId hex),
            newTempId sessionId hex :: history.used⟩))) ∨
    (∃ tempId real, action = .registerRealSessionId tempId real ∧
      ((history.world.manager.pendingSessions.get? tempId = none ∧ next = history) ∨
        ∃ session, history.world.manager.pendingSessions.get? tempId = some session ∧
          real ∉ history.used ∧
          next = ⟨history.world.register tempId real session, real :: history.used⟩)) ∨
    (∃ sessionId, action = .removeSession sessionId ∧
      next = ⟨(history.world.removeSession sessionId).2, history.used⟩) ∨
    (action = .stopAll ∧ next = ⟨history.world.stopAll, history.used⟩) := by
  cases action with
  | getOrCreateSession sessionId hex =>
    refine Or.inl ⟨sessionId, hex, rfl, ?_⟩
    have after := Option.some.inj stepped
    cases existing : history.world.manager.existing sessionId with
    | some found =>
      rw [getOrCreateSession_existing existing] at after
      exact Or.inl ⟨Option.some_ne_none _, after.symm⟩
    | none =>
      rw [getOrCreateSession_new existing] at after
      exact Or.inr ⟨rfl, after.symm⟩
  | registerRealSessionId tempId real =>
    refine Or.inr (Or.inl ⟨tempId, real, rfl, ?_⟩)
    cases pending : history.world.manager.pendingSessions.get? tempId with
    | none =>
      simp only [step, registerRealSessionId_missing pending] at stepped
      exact Or.inl ⟨rfl, (Option.some.inj stepped).symm⟩
    | some session =>
      simp only [step, registerRealSessionId_pending pending, if_true] at stepped
      by_cases used : real ∈ history.used
      · rw [if_pos used] at stepped
        cases stepped
      · rw [if_neg used] at stepped
        exact Or.inr ⟨session, rfl, used, (Option.some.inj stepped).symm⟩
  | removeSession sessionId =>
    exact Or.inr (Or.inr (Or.inl ⟨sessionId, rfl, (Option.some.inj stepped).symm⟩))
  | stopAll => exact Or.inr (Or.inr (Or.inr ⟨rfl, (Option.some.inj stepped).symm⟩))

theorem Recorded.step (recorded : history.Recorded) {action : SessionAction} {next : SessionHistory}
    (stepped : history.step action = some next) : next.Recorded := by
  rcases step_cases stepped with ⟨sessionId, hex, -, ⟨-, rfl⟩ | ⟨-, rfl⟩⟩ |
    ⟨tempId, real, -, ⟨-, rfl⟩ | ⟨session, pending, -, rfl⟩⟩ | ⟨sessionId, -, rfl⟩ | ⟨-, rfl⟩
  · exact recorded
  · exact recorded.construct _
  · exact recorded
  · exact recorded.register pending real
  · exact recorded.shrink (removeSession_shrinks sessionId)
  · exact recorded.shrink stopAll_shrinks

/-- **A step keeps the maps consistent exactly when its temporary id is free.** -/
theorem consistent_step_iff (recorded : history.Recorded) (consistent : history.Consistent)
    {action : SessionAction} {next : SessionHistory} (stepped : history.step action = some next) :
    next.Consistent ↔ history.TempIdFree action := by
  rcases step_cases stepped with ⟨sessionId, hex, rfl, ⟨found, rfl⟩ | ⟨missing, rfl⟩⟩ |
    ⟨tempId, real, rfl, ⟨missing, rfl⟩ | ⟨session, pending, fresh, rfl⟩⟩ | ⟨sessionId, rfl, rfl⟩ |
    ⟨rfl, rfl⟩
  · refine iff_of_true consistent fun absent => absurd ?_ found
    simp only [existing, absent, Option.bind_none]
  · cases taken : history.world.manager.pendingSessions.get? (newTempId sessionId hex) with
    | none => exact iff_of_true (consistent.construct recorded.stopped taken) fun _ => taken
    | some old =>
      refine iff_of_false (consistent.not_construct recorded.stopped taken) fun free => ?_
      -- only a generated id can hit: a given one is looked up before
      cases present : given sessionId with
      | none =>
        rw [free present] at taken
        cases taken
      | some id =>
        have same : newTempId sessionId hex = id := by rw [newTempId, present, Option.getD_some]
        rw [same, consistent.free_of_given present missing] at taken
        cases taken
  · exact iff_of_true consistent fun pending => absurd missing pending
  · have unused : history.world.manager.sessions.get? real = none := by
      by_contra present
      obtain ⟨other, here⟩ := Option.ne_none_iff_exists'.mp present
      exact fresh (recorded.registered real other here)
    cases mapped : history.world.manager.tempToReal.get? tempId with
    | none => exact iff_of_true (consistent.register pending mapped unused) fun _ => mapped
    | some old =>
      refine iff_of_false (consistent.not_register mapped unused) fun free => ?_
      have nothing := free (pending ▸ Option.some_ne_none session)
      rw [mapped] at nothing
      cases nothing
  · exact iff_of_true (consistent.removeSession sessionId) trivial
  · exact iff_of_true consistent.stopAll trivial

/-- **The session ids, exactly.** For every sequence of operations that registers fresh real ids, the
maps agree after every operation if and only if every operation finds its temporary id free. -/
theorem session_ids_exact (actions : List SessionAction) {last : SessionHistory}
    (ran : machine.run start actions = some last) :
    machine.Throughout start actions Consistent ↔ machine.Obeys start actions TempIdFree := by
  have exactly := @Machine.throughout_iff_obeys _ _ machine Recorded Consistent TempIdFree start
    ⟨recorded_start, consistent_start⟩ (fun _ _ _ recorded stepped => recorded.step stepped)
    (fun _ _ _ recorded consistent stepped => consistent_step_iff recorded consistent stepped)
  exact (exactly actions ran).2

/-- Two conversations, the second resuming the first, and their ends. -/
def resumed : List SessionAction :=
  [.getOrCreateSession none "00000001000040008000000000000000",
    .registerRealSessionId "pending_00000001" "first",
    .getOrCreateSession (some "pending_00000001") "00000002000040008000000000000000",
    .removeSession "first",
    .getOrCreateSession (some "first") "00000003000040008000000000000000",
    .registerRealSessionId "first" "second",
    .removeSession "second"]

theorem resumed_consistent :
    ∃ last, machine.run start resumed = some last ∧ machine.Throughout start resumed Consistent := by
  refine ⟨_, rfl, (session_ids_exact resumed rfl).mpr ?_⟩
  refine Machine.obeys_cons rfl (fun _ => rfl) (Machine.obeys_cons rfl (fun _ => rfl)
    (Machine.obeys_cons rfl ?_ (Machine.obeys_cons rfl trivial (Machine.obeys_cons rfl ?_
      (Machine.obeys_cons rfl (fun _ => rfl) (Machine.obeys_cons rfl trivial Machine.obeys_nil))))))
  · exact fun _ => rfl
  · exact fun _ => rfl

/-- Two random numbers with the same first eight digits. -/
def collided : List SessionAction :=
  [.getOrCreateSession none "00000001000040008000000000000000",
    .getOrCreateSession none "00000001000040008000000000000001"]

/-- **The first of the two sessions leaves the maps without having been stopped.** -/
theorem collided_loses_session :
    ∃ last, machine.run start collided = some last ∧
      0 < last.world.constructed ∧ last.world.stopped = [] ∧
      (∀ slot, last.world.manager.stored slot ≠ some ⟨0⟩) ∧
      ¬ machine.Throughout start collided Consistent := by
  have nowhere : ∀ slot, stored
      { CLISessionManager.empty with
        pendingSessions := ((∅ : Dict String CLISession).set "pending_00000001" ⟨0⟩).set
          "pending_00000001" ⟨1⟩ } slot ≠ some ⟨0⟩ := by
    intro slot
    cases slot with
    | session key => exact Option.some_ne_none _ |>.symm
    | pending key =>
      simp only [stored, Dict.get?_set, Dict.get?_empty]
      split_ifs <;> simp
  refine ⟨_, rfl, Nat.succ_pos _, rfl, nowhere, fun always => ?_⟩
  have consistent := always collided List.prefix_rfl _ rfl
  exact absurd (consistent.ended ⟨0⟩ (Nat.succ_pos _) nowhere) List.not_mem_nil

end SessionHistory

end ClaudeProxy
