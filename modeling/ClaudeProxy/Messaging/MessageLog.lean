/-
**The message log of the session store** (`_load`, `record_message_id`, `get_message_ids_for_chat` and
`clear_all` of `messaging/session.py`).

* `loadMessageLog` — the logs and their id indexes, rebuilt from whatever the file holds; `fileIds` — the
  ids that the file has for a chat, of which the log keeps the first occurrences.
* `LogRun` — a loaded store under calls, with a record of the ids of each chat in the order in which
  they were inserted.
* `LogKept` — the index holds the ids of the log, which are distinct and the latest insertions; a new
  record leaves as many of them as the cap says.
* **`logKept_after`** — what a load keeps, and that the log is kept after any calls.
-/

import ClaudeProxy.Messaging.CliEvents
import ClaudeProxy.Messaging.SessionStore
import Mathlib.Data.List.DropRight

namespace ClaudeProxy

open Json (getKey)

/-! ### Loading -/

section Load

variable (text : CliText)

/-- `str(value or "")`. -/
def CliText.printOr (value : Json) : String := if text.truthy value then text.print value else ""

/-- What `_load` makes of an item of a log; `none` where it is skipped. -/
def loadRecord : Json → Option MessageRecord
  | .obj fields =>
    match getKey fields "message_id" with
    | .null => none
    | mid =>
      some ⟨text.print mid, text.printOr (getKey fields "ts"), text.printOr (getKey fields "direction"),
        text.printOr (getKey fields "kind")⟩
  | _ => none

/-- The loop over the items of a log: `cleaned` and `seen`. -/
def loadItems (cleaned : List MessageRecord) (seen : List String) :
    List Json → List MessageRecord × List String
  | [] => (cleaned, seen)
  | item :: rest =>
    match loadRecord text item with
    | none => loadItems cleaned seen rest
    | some record =>
      if record.messageId ∈ seen then loadItems cleaned seen rest
      else loadItems (cleaned ++ [record]) (seen ++ [record.messageId]) rest

/-- The logs by chat, and their id indexes. -/
abbrev MessageLogs := Dict String (List MessageRecord) × Dict String (List String)

/-- The loop over the chats. -/
def loadChats (logs : MessageLogs) : List (String × Json) → MessageLogs
  | [] => logs
  | (chatKey, .arr items) :: rest =>
    let (cleaned, seen) := loadItems text [] [] items
    loadChats (logs.1.set chatKey cleaned, logs.2.set chatKey seen) rest
  | _ :: rest => loadChats logs rest

/-- The message logs that `_load` finds in its file; without a file that can be read, there are none. -/
def loadMessageLog : Option Json → MessageLogs
  | some (.obj data) =>
    match getKey data "message_log" with
    | .obj rawLog => loadChats text (∅, ∅) rawLog
    | _ => (∅, ∅)
  | _ => (∅, ∅)

/-- The ids of a list of items. -/
def itemIds (items : List Json) : List String := (items.filterMap (loadRecord text)).map (·.messageId)

/-- The items of a chat, where they are a list. -/
def itemsFor (chatKey : String) : String × Json → Option (List Json)
  | (key, .arr items) => if key = chatKey then some items else none
  | _ => none

/-- The ids that the file has for a chat. -/
def fileIds (file : Option Json) (chatKey : String) : List String :=
  match file with
  | some (.obj data) =>
    match getKey data "message_log" with
    | .obj rawLog => itemIds text ((rawLog.filterMap (itemsFor chatKey)).getLast?.getD [])
    | _ => []
  | _ => []

/-- A store right after `_load`, with the trees and the node mappings of the file. -/
def SessionStore.loadFile (file : Option Json) (trees : Dict String TreeData)
    (nodeToTree : Dict String String) (messageLogCap : Option Int) : SessionStore where
  memory := { trees, nodeToTree, messageLog := (loadMessageLog text file).1 }
  messageLogIds := (loadMessageLog text file).2
  messageLogCap := messageLogCap

end Load

/-! ### Runs -/

namespace SessionStore

/-- `_make_chat_key`. -/
def makeChatKey (platform chatId : String) : String := platform ++ ":" ++ chatId

/-- The ids of a chat's log. -/
def logIds (store : SessionStore) (chatKey : String) : List String :=
  ((store.memory.messageLog.get? chatKey).getD []).map (·.messageId)

/-- `get_message_ids_for_chat`. -/
def getMessageIdsForChat (store : SessionStore) (platform chatId : String) : List String :=
  store.logIds (makeChatKey platform chatId)

/-- The ids in a chat's index. -/
def indexedIds (store : SessionStore) (chatKey : String) : List String :=
  (store.messageLogIds.get? chatKey).getD []

end SessionStore

inductive LogCall where
  | record (platform chatId : String) (messageId : Option String) (direction kind ts : String)
  | clearAll

/-- A store, and the ids of each chat in the order of their insertion: those that were loaded, and
behind them every id that was recorded and not in the log, since the last `clear_all`. -/
structure LogRun where
  store : SessionStore
  inserted : String → List String

namespace LogRun

def step (run : LogRun) : LogCall → LogRun
  | .record platform chatId messageId direction kind ts =>
    { store := run.store.recordMessageId platform chatId messageId direction kind ts
      inserted :=
        match messageId with
        | none => run.inserted
        | some mid =>
          let chatKey := SessionStore.makeChatKey platform chatId
          if mid ∈ run.store.logIds chatKey then run.inserted
          else Function.update run.inserted chatKey (run.inserted chatKey ++ [mid]) }
  | .clearAll => { store := run.store.clearAll, inserted := fun _ => [] }

/-- The run of so many calls on a loaded store. -/
def after (store : SessionStore) (calls : List LogCall) : LogRun :=
  calls.foldl step { store, inserted := store.logIds }

/-! ### What is asked -/

/-- **The log is kept**: the index holds the ids of the log; they are distinct, and the latest of those
inserted, all of them without a positive cap; and behind a new record, with a positive cap, there are
as many as the cap says. -/
structure LogKept (run : LogRun) : Prop where
  index : ∀ chatKey id, id ∈ run.store.indexedIds chatKey ↔ id ∈ run.store.logIds chatKey
  distinct : ∀ chatKey, (run.store.logIds chatKey).Nodup
  latest : ∀ chatKey, run.store.logIds chatKey <:+ run.inserted chatKey
  uncapped : (∀ cap, run.store.messageLogCap = some cap → cap ≤ 0) →
    ∀ chatKey, run.store.logIds chatKey = run.inserted chatKey
  capped : ∀ cap, run.store.messageLogCap = some cap → 0 < cap →
    ∀ platform chatId mid direction kind ts, mid ∉ run.store.getMessageIdsForChat platform chatId →
      let next := run.step (.record platform chatId (some mid) direction kind ts)
      next.store.getMessageIdsForChat platform chatId =
          (run.inserted (SessionStore.makeChatKey platform chatId) ++ [mid]).rtake cap.toNat ∧
        (next.store.getMessageIdsForChat platform chatId).length ≤ cap

end LogRun

/-! ### What a record does -/

/-- The ids that the cap leaves. -/
def keptIds (messageLogCap : Option Int) (ids : List String) : List String :=
  match messageLogCap with
  | some cap => if 0 < cap ∧ cap < ids.length then ids.rtake cap.toNat else ids
  | none => ids

theorem keptIds_suffix (messageLogCap : Option Int) (ids : List String) :
    keptIds messageLogCap ids <:+ ids := by
  unfold keptIds
  split
  · split_ifs
    · exact List.drop_suffix _ _
    · exact List.suffix_rfl
  · exact List.suffix_rfl

/-- Under a positive cap, they are the last ones, as many as it says. -/
theorem keptIds_of_cap {cap : Int} (positive : 0 < cap) (ids : List String) :
    keptIds (some cap) ids = ids.rtake cap.toNat := by
  unfold keptIds
  dsimp only
  split_ifs with long
  · rfl
  · have short : ids.length - cap.toNat = 0 := by omega
    rw [List.rtake, short, List.drop_zero]

/-- As many as it says, of at least so many. -/
theorem le_length_keptIds {cap : Int} (positive : 0 < cap) {ids : List String}
    (long : cap ≤ ids.length) : cap ≤ (keptIds (some cap) ids).length := by
  rw [keptIds_of_cap positive, List.rtake, List.length_drop]
  omega

/-- And never more. -/
theorem length_keptIds_le {cap : Int} (positive : 0 < cap) (ids : List String) :
    (keptIds (some cap) ids).length ≤ cap := by
  rw [keptIds_of_cap positive, List.rtake, List.length_drop]
  omega

/-- All are left, or as many as the cap says. -/
theorem keptIds_cases (messageLogCap : Option Int) (ids : List String) :
    keptIds messageLogCap ids = ids ∨ ∃ cap, messageLogCap = some cap ∧ 0 < cap ∧
      cap ≤ (keptIds messageLogCap ids).length := by
  cases messageLogCap with
  | none => exact .inl rfl
  | some cap =>
    by_cases long : 0 < cap ∧ cap < ids.length
    · exact .inr ⟨cap, rfl, long.1, le_length_keptIds long.1 (Int.le_of_lt long.2)⟩
    · exact .inl (if_neg long)

/-- The last items of a list are those of an end of it, if that is long enough. -/
theorem rtake_of_suffix {α : Type} {ending list : List α} {count : Nat} (inside : ending <:+ list)
    (enough : count ≤ ending.length) : list.rtake count = ending.rtake count := by
  obtain ⟨front, rfl⟩ := inside
  have places : (front ++ ending).length - count = front.length + (ending.length - count) := by
    rw [List.length_append]
    omega
  rw [List.rtake, List.rtake, places, List.drop_append, List.drop_of_length_le (Nat.le_add_right _ _),
    List.nil_append, Nat.add_sub_cancel_left]

namespace SessionStore

variable {store : SessionStore} {platform chatId mid : String}

theorem recordMessageId_known (known : mid ∈ store.indexedIds (makeChatKey platform chatId))
    (direction kind ts : String) :
    store.recordMessageId platform chatId (some mid) direction kind ts = store := if_pos known

/-- A chat gets another log and another index. -/
def withLog (store : SessionStore) (chatKey : String) (kept : List MessageRecord) (ids : List String) :
    SessionStore :=
  ({ store.change { store.memory with messageLog := store.memory.messageLog.set chatKey kept } with
    messageLogIds := store.messageLogIds.set chatKey ids } : SessionStore).scheduleSave

theorem logIds_withLog (store : SessionStore) (chatKey other : String) (kept : List MessageRecord)
    (ids : List String) : (store.withLog chatKey kept ids).logIds other =
      if other = chatKey then kept.map (·.messageId) else store.logIds other := by
  show (((store.memory.messageLog.set chatKey kept).get? other).getD []).map _ = _
  rw [Dict.get?_set]
  split_ifs <;> rfl

theorem indexedIds_withLog (store : SessionStore) (chatKey other : String)
    (kept : List MessageRecord) (ids : List String) :
    (store.withLog chatKey kept ids).indexedIds other =
      if other = chatKey then ids else store.indexedIds other := by
  show ((store.messageLogIds.set chatKey ids).get? other).getD [] = _
  rw [Dict.get?_set]
  split_ifs <;> rfl

/-- **A new record**: the log of its chat has the ids that the cap leaves, the index has the same, and
the logs of other chats stay. -/
theorem recordMessageId_new (fresh : mid ∉ store.indexedIds (makeChatKey platform chatId))
    (same : ∀ id, id ∈ store.indexedIds (makeChatKey platform chatId) ↔
      id ∈ store.logIds (makeChatKey platform chatId))
    (direction kind ts : String) :
    let next := store.recordMessageId platform chatId (some mid) direction kind ts
    let chatKey := makeChatKey platform chatId
    next.messageLogCap = store.messageLogCap ∧
      (∀ other, next.logIds other = if other = chatKey then
        keptIds store.messageLogCap (store.logIds chatKey ++ [mid]) else store.logIds other) ∧
      ∀ other id, id ∈ next.indexedIds other ↔ if other = chatKey then
        id ∈ keptIds store.messageLogCap (store.logIds chatKey ++ [mid]) else
        id ∈ store.indexedIds other := by
  intro next chatKey
  let items := (store.memory.messageLog.get? chatKey).getD [] ++ [⟨mid, ts, direction, kind⟩]
  have added : items.map (·.messageId) = store.logIds chatKey ++ [mid] := List.map_append
  have indexed : ∀ id, id ∈ store.indexedIds chatKey ++ [mid] ↔ id ∈ store.logIds chatKey ++ [mid] := by
    intro id
    rw [List.mem_append, List.mem_append, same id]
  have whole : items.length = (store.logIds chatKey ++ [mid]).length := by
    rw [← added, List.length_map]
  let kept : List MessageRecord × List String := match store.messageLogCap with
    | some cap =>
      if 0 < cap ∧ cap < items.length then
        let last := items.drop (items.length - cap.toNat)
        (last, last.map (·.messageId))
      else (items, store.indexedIds chatKey ++ [mid])
    | none => (items, store.indexedIds chatKey ++ [mid])
  have isNext : next = store.withLog chatKey kept.1 kept.2 := (if_neg fresh).trans rfl
  obtain ⟨isKept, isIndex⟩ : kept.1.map (·.messageId) =
      keptIds store.messageLogCap (store.logIds chatKey ++ [mid]) ∧
      ∀ id, id ∈ kept.2 ↔ id ∈ kept.1.map (·.messageId) := by
    unfold kept keptIds
    split
    · rw [← whole]
      split_ifs
      · refine ⟨?_, fun id => Iff.rfl⟩
        rw [List.map_drop, added, List.rtake, whole]
      · rw [added]
        exact ⟨rfl, indexed⟩
    · rw [added]
      exact ⟨rfl, indexed⟩
  rw [isNext]
  refine ⟨rfl, fun other => ?_, fun other id => ?_⟩
  · rw [logIds_withLog, isKept]
  · rw [indexedIds_withLog]
    split_ifs
    · rw [isIndex id, isKept]
    · exact Iff.rfl

end SessionStore

/-! ### Every call keeps the log -/

/-- What the log and the index of every chat have to do with what was inserted. -/
structure LogTracked (store : SessionStore) (inserted : String → List String) : Prop where
  index : ∀ chatKey id, id ∈ store.indexedIds chatKey ↔ id ∈ store.logIds chatKey
  distinct : ∀ chatKey, (store.logIds chatKey).Nodup
  latest : ∀ chatKey, store.logIds chatKey <:+ inserted chatKey
  whole : ∀ chatKey, store.logIds chatKey = inserted chatKey ∨
    ∃ cap, store.messageLogCap = some cap ∧ 0 < cap ∧ cap ≤ (store.logIds chatKey).length

namespace LogTracked

variable {store : SessionStore} {inserted : String → List String}

/-- With a positive cap, what it leaves of a log is what it leaves of all insertions. -/
theorem keptIds_concat (tracked : LogTracked store inserted) {cap : Int}
    (capped : store.messageLogCap = some cap) (positive : 0 < cap) (chatKey mid : String) :
    keptIds (some cap) (store.logIds chatKey ++ [mid]) = (inserted chatKey ++ [mid]).rtake cap.toNat := by
  rw [keptIds_of_cap positive]
  rcases tracked.whole chatKey with same | ⟨other, known, -, long⟩
  · rw [same]
  · obtain rfl := Option.some.inj (capped.symm.trans known)
    symm
    refine rtake_of_suffix ?_ ?_
    · obtain ⟨front, same⟩ := tracked.latest chatKey
      exact ⟨front, by rw [← List.append_assoc, same]⟩
    · rw [List.length_append, List.length_singleton]
      omega

theorem record (tracked : LogTracked store inserted) {platform chatId mid : String}
    (fresh : mid ∉ store.logIds (SessionStore.makeChatKey platform chatId))
    (direction kind ts : String) :
    LogTracked (store.recordMessageId platform chatId (some mid) direction kind ts)
      (Function.update inserted (SessionStore.makeChatKey platform chatId)
        (inserted (SessionStore.makeChatKey platform chatId) ++ [mid])) := by
  have unindexed : mid ∉ store.indexedIds (SessionStore.makeChatKey platform chatId) := fun known =>
    fresh ((tracked.index _ mid).mp known)
  obtain ⟨cap, log, index⟩ :=
    SessionStore.recordMessageId_new unindexed (tracked.index _) direction kind ts
  generalize SessionStore.makeChatKey platform chatId = chatKey at *
  have distinct : (store.logIds chatKey ++ [mid]).Nodup :=
    List.nodup_append.mpr ⟨tracked.distinct chatKey, List.nodup_singleton mid, fun id known other same =>
      by rw [List.mem_singleton.mp same]; rintro rfl; exact fresh known⟩
  refine ⟨fun other id => ?_, fun other => ?_, fun other => ?_, fun other => ?_⟩
  · rw [index other id, log other]
    split_ifs
    · exact Iff.rfl
    · exact tracked.index other id
  · rw [log other]
    split_ifs
    · exact distinct.sublist (keptIds_suffix _ _).sublist
    · exact tracked.distinct other
  · rw [log other, Function.update_apply]
    split_ifs
    · refine (keptIds_suffix _ _).trans ?_
      obtain ⟨front, same⟩ := tracked.latest chatKey
      exact ⟨front, by rw [← List.append_assoc, same]⟩
    · exact tracked.latest other
  · rw [log other, Function.update_apply, cap]
    split_ifs
    · rcases tracked.whole chatKey with same | ⟨most, known, positive, long⟩
      · rw [← same]
        exact keptIds_cases _ _
      · rw [known]
        refine .inr ⟨most, rfl, positive, le_length_keptIds positive ?_⟩
        rw [List.length_append, List.length_singleton]
        omega
    · exact tracked.whole other

theorem step {run : LogRun} (tracked : LogTracked run.store run.inserted) (call : LogCall) :
    LogTracked (run.step call).store (run.step call).inserted := by
  cases call with
  | clearAll =>
    exact ⟨fun _ _ => Iff.rfl, fun _ => List.nodup_nil, fun _ => List.suffix_rfl, fun _ => .inl rfl⟩
  | record platform chatId messageId direction kind ts =>
    cases messageId with
    | none => exact tracked
    | some mid =>
      rw [LogRun.step]
      dsimp only
      split_ifs with known
      · rw [SessionStore.recordMessageId_known ((tracked.index _ mid).mpr known)]
        exact tracked
      · exact tracked.record known direction kind ts

/-- **A tracked log is kept.** -/
theorem kept {run : LogRun} (tracked : LogTracked run.store run.inserted) : run.LogKept where
  index := tracked.index
  distinct := tracked.distinct
  latest := tracked.latest
  uncapped without chatKey := by
    rcases tracked.whole chatKey with same | ⟨cap, known, positive, -⟩
    · exact same
    · exact absurd positive (Int.not_lt.mpr (without cap known))
  capped cap known positive platform chatId mid direction kind ts fresh := by
    intro next
    have unindexed : mid ∉ run.store.indexedIds (SessionStore.makeChatKey platform chatId) :=
      fun indexed => fresh ((tracked.index _ mid).mp indexed)
    obtain ⟨-, log, -⟩ :=
      SessionStore.recordMessageId_new unindexed (tracked.index _) direction kind ts
    have left : next.store.getMessageIdsForChat platform chatId =
        keptIds (some cap) (run.store.logIds (SessionStore.makeChatKey platform chatId) ++ [mid]) :=
      (log _).trans (by rw [if_pos rfl, known])
    rw [left]
    exact ⟨tracked.keptIds_concat known positive _ mid, length_keptIds_le positive _⟩

end LogTracked

/-! ### A loaded store -/

/-- What a chat's log is loaded as. -/
theorem loadItems_tracked (text : CliText) (items : List Json) {cleaned : List MessageRecord}
    {seen : List String} (same : ∀ id, id ∈ seen ↔ id ∈ cleaned.map (·.messageId))
    (distinct : (cleaned.map (·.messageId)).Nodup) :
    (∀ id, id ∈ (loadItems text cleaned seen items).2 ↔
        id ∈ (loadItems text cleaned seen items).1.map (·.messageId)) ∧
      ((loadItems text cleaned seen items).1.map (·.messageId)).Nodup := by
  induction items generalizing cleaned seen with
  | nil => exact ⟨same, distinct⟩
  | cons item rest ih =>
    rw [loadItems]
    split
    · exact ih same distinct
    · rename_i record _
      split_ifs with known
      · exact ih same distinct
      · have fresh : record.messageId ∉ cleaned.map (·.messageId) := fun inside =>
          known ((same _).mpr inside)
        refine ih (fun id => ?_) ?_
        · rw [List.map_append, List.mem_append, List.mem_append, same id]
          exact Iff.rfl
        · rw [List.map_append]
          exact List.nodup_append.mpr ⟨distinct, List.nodup_singleton _, fun id inside other single => by
            rw [List.mem_singleton.mp single]
            rintro rfl
            exact fresh inside⟩

/-- The logs of a file. -/
theorem loadChats_tracked (text : CliText) (chats : List (String × Json)) {logs : MessageLogs}
    (tracked : ∀ chatKey, (∀ id, id ∈ (logs.2.get? chatKey).getD [] ↔
        id ∈ ((logs.1.get? chatKey).getD []).map (·.messageId)) ∧
      (((logs.1.get? chatKey).getD []).map (·.messageId)).Nodup) (chatKey : String) :
    (∀ id, id ∈ ((loadChats text logs chats).2.get? chatKey).getD [] ↔
        id ∈ (((loadChats text logs chats).1.get? chatKey).getD []).map (·.messageId)) ∧
      ((((loadChats text logs chats).1.get? chatKey).getD []).map (·.messageId)).Nodup := by
  induction chats generalizing logs with
  | nil => exact tracked chatKey
  | cons chat rest ih =>
    obtain ⟨key, value⟩ := chat
    cases value with
    | arr items =>
      rw [loadChats]
      refine ih fun other => ?_
      rw [Dict.get?_set, Dict.get?_set]
      split_ifs
      · exact loadItems_tracked text items (fun _ => Iff.rfl) List.nodup_nil
      · exact tracked other
    | _ =>
      rw [loadChats]
      · exact ih tracked
      · simp

theorem loadFile_tracked (text : CliText) (file : Option Json) (trees : Dict String TreeData)
    (nodeToTree : Dict String String) (messageLogCap : Option Int) :
    let store := SessionStore.loadFile text file trees nodeToTree messageLogCap
    LogTracked store store.logIds := by
  have empty : ∀ chatKey : String,
      (∀ id, id ∈ ((∅ : Dict String (List String)).get? chatKey).getD [] ↔
        id ∈ (((∅ : Dict String (List MessageRecord)).get? chatKey).getD []).map (·.messageId)) ∧
      ((((∅ : Dict String (List MessageRecord)).get? chatKey).getD []).map (·.messageId)).Nodup :=
    fun _ => ⟨fun _ => Iff.rfl, List.nodup_nil⟩
  have logs : ∀ chatKey, (∀ id, id ∈ ((loadMessageLog text file).2.get? chatKey).getD [] ↔
      id ∈ (((loadMessageLog text file).1.get? chatKey).getD []).map (·.messageId)) ∧
      ((((loadMessageLog text file).1.get? chatKey).getD []).map (·.messageId)).Nodup := by
    unfold loadMessageLog
    split
    · split
      · exact loadChats_tracked text _ empty
      · exact empty
    · exact empty
  exact ⟨fun chatKey => (logs chatKey).1, fun chatKey => (logs chatKey).2,
    fun _ => List.suffix_rfl, fun _ => .inl rfl⟩

/-- **The loop over the items keeps the first occurrence of every id**, in the order of the file. -/
theorem loadItems_ids (text : CliText) (items : List Json) (cleaned : List MessageRecord)
    (seen : List String) : (loadItems text cleaned seen items).1.map (·.messageId) =
      cleaned.map (·.messageId) ++ ((itemIds text items).filter fun id => id ∉ seen).eraseDups := by
  induction items generalizing cleaned seen with
  | nil => exact (List.append_nil _).symm
  | cons item rest ih =>
    rw [loadItems, itemIds, List.filterMap_cons]
    cases loadRecord text item with
    | none => exact ih cleaned seen
    | some record =>
      dsimp only
      rw [List.map_cons, ← itemIds]
      split_ifs with known
      · rw [List.filter_cons_of_neg (by simpa using known)]
        exact ih cleaned seen
      · have others : ((itemIds text rest).filter fun id => id ∉ seen ++ [record.messageId]) =
            ((itemIds text rest).filter fun id => id ∉ seen).filter fun id => !id == record.messageId := by
          rw [List.filter_filter]
          refine List.filter_congr fun id _ => Bool.eq_iff_iff.mpr ?_
          simp [and_comm]
        rw [List.filter_cons_of_pos (by simpa using known), List.eraseDups_cons, ih, others,
          List.map_append, List.append_assoc]
        rfl

/-- The last list of a chat is what its log is loaded from. -/
theorem loadChats_ids (text : CliText) (chats : List (String × Json)) (logs : MessageLogs)
    (chatKey : String) : ((loadChats text logs chats).1.get? chatKey).map (List.map (·.messageId)) =
      ((chats.filterMap (itemsFor chatKey)).getLast?.map fun items => (itemIds text items).eraseDups).or
        ((logs.1.get? chatKey).map (List.map (·.messageId))) := by
  induction chats generalizing logs with
  | nil => rfl
  | cons chat rest ih =>
    obtain ⟨key, value⟩ := chat
    cases value with
    | arr items =>
      rw [loadChats, ih, Dict.get?_set, List.filterMap_cons, itemsFor]
      by_cases same : key = chatKey
      · rw [if_pos same, if_pos same.symm, List.getLast?_cons, Option.map_some, loadItems_ids]
        cases (rest.filterMap (itemsFor chatKey)).getLast? <;> simp
      · rw [if_neg same, if_neg (Ne.symm same)]
    | _ =>
      rw [loadChats, ih]
      · rfl
      · simp

/-- **A load keeps the first occurrences of the file's ids**, in their order. -/
theorem logIds_loadFile (text : CliText) (file : Option Json) (trees : Dict String TreeData)
    (nodeToTree : Dict String String) (messageLogCap : Option Int) (chatKey : String) :
    (SessionStore.loadFile text file trees nodeToTree messageLogCap).logIds chatKey =
      (fileIds text file chatKey).eraseDups := by
  show (((loadMessageLog text file).1.get? chatKey).getD []).map (·.messageId) = _
  unfold loadMessageLog fileIds
  split
  · split
    · rename_i rawLog _
      have read := loadChats_ids text rawLog (∅, ∅) chatKey
      generalize (rawLog.filterMap (itemsFor chatKey)).getLast? = last at read ⊢
      generalize (loadChats text (∅, ∅) rawLog).1.get? chatKey = log at read ⊢
      cases last with
      | none =>
        obtain rfl := Option.map_eq_none_iff.mp (read.trans rfl)
        rfl
      | some items =>
        obtain ⟨kept, rfl, same⟩ := Option.map_eq_some_iff.mp (read.trans rfl)
        exact same
    · rfl
  · rfl

/-- **The message log.** A load keeps, for every chat, the first occurrences of the ids that its file has
for it, in their order. Whatever file was loaded, and after any calls of `record_message_id` and
`clear_all`, the log of every chat is kept. -/
theorem logKept_after (text : CliText) (file : Option Json) (trees : Dict String TreeData)
    (nodeToTree : Dict String String) (messageLogCap : Option Int) (calls : List LogCall) :
    let store := SessionStore.loadFile text file trees nodeToTree messageLogCap
    (∀ chatKey, store.logIds chatKey = (fileIds text file chatKey).eraseDups) ∧
      (LogRun.after store calls).LogKept := by
  refine ⟨logIds_loadFile text file trees nodeToTree messageLogCap, ?_⟩
  have all : ∀ run : LogRun, LogTracked run.store run.inserted →
      LogTracked (calls.foldl LogRun.step run).store (calls.foldl LogRun.step run).inserted := by
    induction calls with
    | nil => exact fun run tracked => tracked
    | cons call rest ih => exact fun run tracked => ih _ (tracked.step call)
  exact (all ⟨_, _⟩ (loadFile_tracked text file trees nodeToTree messageLogCap)).kept

end ClaudeProxy
