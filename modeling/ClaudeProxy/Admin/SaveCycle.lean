/-
**Saving the settings and loading them again** (`api/admin_config.py`, `api/admin_routes.py`).

The admin page shows every setting's value, a secret as a mask, and where the value comes from. What is
submitted goes into the managed env file, which the next load reads below the environment and an
explicit env file, and above the repository's own.

* `layers`, `entryOf` — the values of a setting from the top down, and the one that counts.
* `keptValue`, `submitted?` — what a save leaves as it was, and what it is asked to change.
* `exportConfig`, `importConfig` — the values as the page shows them, and their submission.
* **`entry_after_saves`** — what each setting is after a run of saves: a locked one is what it was,
  another one what was submitted for it last, or else what was kept.
* **`reimport_iff`** — the export of a configuration changes nothing when it is imported again, except
  for a secret of the repository's env file that a managed file hides without having it.
-/

import ClaudeProxy.Admin.EnvFile
import ClaudeProxy.Library.Assignments
import ClaudeProxy.Library.Layers

namespace ClaudeProxy

namespace AdminConfig

open Layers (topmost)

/-! ### The layers of a setting -/

section Layers

variable (manifest : Manifest) (world : World)

/-- The value of a file, as one of this source. -/
def layerOf (source : SourceType) (values : Dict String String) (key : String) : Option ValueEntry :=
  (values.get? key).map fun value => ⟨value, source⟩

/-- Where a setting's value may come from, the highest layer first. -/
def layers (key : String) : List (Option ValueEntry) :=
  [(world.environ key).map fun value => ⟨value, .process⟩,
    layerOf .explicitEnvFile (dotenvValuesFromFile world world.explicitEnv) key,
    layerOf .managedEnv (dotenvValuesFromFile world world.managedEnv) key,
    layerOf .repoEnv (dotenvValuesFromFile world world.repoEnv) key,
    layerOf .template (templateValues manifest world) key]

/-- The value of a setting and where it comes from. -/
def entryOf (field : ConfigFieldSpec) : ValueEntry :=
  (topmost (layers manifest world field.key)).getD ⟨"", .default⟩

/-- The template's value. -/
def templateValue (field : ConfigFieldSpec) : String :=
  ((templateValues manifest world).get? field.key).getD ""

end Layers

/-! ### The page -/

/-- `_display_value`. -/
def displayValue (field : ConfigFieldSpec) (value : String) : String :=
  if field.secret ∧ value ≠ "" then MASKED_SECRET else value

/-- A setting as the page shows it. -/
structure FieldResponse where
  key : String
  sectionId : String
  value : String
  configured : Bool
  source : SourceType
  locked : Bool
  secret : Bool
  deriving DecidableEq

/-- A setting of `load_config_response`. -/
def fieldResponse (state : Dict String ValueEntry) (field : ConfigFieldSpec) : FieldResponse :=
  let entry := (state.get? field.key).getD ⟨"", .default⟩
  { key := field.key
    sectionId := field.sectionId
    value := displayValue field entry.value
    configured := decide (Py.strip entry.value ≠ "")
    source := entry.source
    locked := isLockedSource entry.source
    secret := field.secret }

section Page

variable (manifest : Manifest) (world : World)

/-- The settings of `load_config_response`. -/
def fieldResponses : List FieldResponse :=
  manifest.FIELDS.map (fieldResponse (loadValueState manifest world))

/-- `export_config`. -/
def exportConfig : List (String × Json) :=
  (fieldResponses manifest world).map fun field => (field.key, .str field.value)

/-- `_filtered_values`. -/
def filteredValues (values : List (String × Json)) : List (String × Json) :=
  values.filter fun value => (manifest.fieldByKey value.1).isSome

/-- `import_config`, and the write of `apply_admin_config`. -/
def importConfig (strOf : Json → String) (valid : Dict String String → Bool)
    (values : List (String × Json)) : World :=
  writeManagedEnv manifest world strOf valid (filteredValues manifest values)

end Page

/-! ### What a load finds -/

section Load

variable {manifest : Manifest} {world : World} {field : ConfigFieldSpec}

theorem fieldByKey_of_mem (member : field ∈ manifest.FIELDS) :
    manifest.fieldByKey field.key = some field := by
  unfold Manifest.fieldByKey
  cases found : manifest.FIELDS.find? fun other => other.key = field.key with
  | none => exact absurd (decide_eq_true rfl) (List.find?_eq_none.mp found field member)
  | some other =>
    have same : other.key = field.key := by simpa using List.find?_some found
    rw [List.inj_on_of_nodup_map manifest.distinctKeys (List.mem_of_find?_eq_some found) member same]

theorem templateValues_get? (member : field ∈ manifest.FIELDS) :
    (templateValues manifest world).get? field.key = some (templateValue manifest world field) := by
  obtain ⟨value, here⟩ := Option.isSome_iff_exists.mp (isSome_foldl_setDefault member
    (dotenvValuesFromText world.environ world.templateText))
  rw [templateValue, templateValues, here, Option.getD_some]

theorem get?_loadFile (member : field ∈ manifest.FIELDS) (state : Dict String ValueEntry)
    (file : SourceType × Option String) :
    (loadFile manifest world state file).get? field.key =
      (layerOf file.1 (dotenvValuesFromFile world file.2) field.key).or (state.get? field.key) := by
  have put := @Dict.get?_foldl_put String ValueEntry String _
    (fun state entry =>
      if (manifest.fieldByKey entry.1).isSome then state.set entry.1 ⟨entry.2, file.1⟩ else state)
    (fun key value => if (manifest.fieldByKey key).isSome then some ⟨value, file.1⟩ else none)
    (fun state key value => by dsimp only; split_ifs <;> rfl)
    (dotenvValuesFromFile world file.2).entries (Dict.nodupKeys _) state field.key
  rw [loadFile, put, fieldByKey_of_mem member, layerOf]
  unfold Dict.get?
  cases Assoc.get? field.key (dotenvValuesFromFile world file.2).entries <;> rfl

/-- What is put for each setting of the manifest. -/
theorem get?_foldl_fields {step : Dict String ValueEntry → ConfigFieldSpec → Dict String ValueEntry}
    {put : ConfigFieldSpec → Option ValueEntry}
    (isStep : ∀ state field, step state field = (put field).elim state (state.set field.key))
    (member : field ∈ manifest.FIELDS) (state : Dict String ValueEntry) :
    (manifest.FIELDS.foldl step state).get? field.key = (put field).or (state.get? field.key) := by
  have entries := @Dict.get?_foldl_put String ValueEntry ConfigFieldSpec _
    (fun state entry => (put entry.2).elim state (state.set entry.1)) (fun _ field => put field)
    (fun _ _ _ => rfl) (manifest.FIELDS.map fun field => (field.key, field))
    (by rw [List.map_map]; exact manifest.distinctKeys) state field.key
  have found : Assoc.get? field.key (manifest.FIELDS.map fun field => (field.key, field)) =
      some field :=
    Assoc.get?_eq_some_of_mem (by rw [List.map_map]; exact manifest.distinctKeys)
      (List.mem_map.mpr ⟨field, member, rfl⟩)
  rw [List.foldl_map, found, Option.bind_some] at entries
  rw [← entries]
  congr 2
  funext state field
  exact isStep state field

/-- The files are loaded one above the other. -/
theorem get?_loadFiles (member : field ∈ manifest.FIELDS) (state : Dict String ValueEntry) :
    ((configuredEnvFiles world).foldl (loadFile manifest world) state).get? field.key =
      (layerOf .explicitEnvFile (dotenvValuesFromFile world world.explicitEnv) field.key).or
        ((layerOf .managedEnv (dotenvValuesFromFile world world.managedEnv) field.key).or
          ((layerOf .repoEnv (dotenvValuesFromFile world world.repoEnv) field.key).or
            (state.get? field.key))) := by
  unfold configuredEnvFiles
  cases explicit : world.explicitEnv with
  | none => simp [get?_loadFile member, layerOf, dotenvValuesFromFile]
  | some text => simp [get?_loadFile member]

theorem topmost_layers (member : field ∈ manifest.FIELDS) :
    topmost (layers manifest world field.key) = some (entryOf manifest world field) := by
  have found : (topmost (layers manifest world field.key)).isSome = true := by
    simp [layers, layerOf, @templateValues_get? manifest world field member]
  obtain ⟨entry, here⟩ := Option.isSome_iff_exists.mp found
  rw [entryOf, here, Option.getD_some]

/-- **A load finds the highest layer.** -/
theorem get?_loadValueState (member : field ∈ manifest.FIELDS) :
    (loadValueState manifest world).get? field.key = some (entryOf manifest world field) := by
  have template := @templateValues_get? manifest world field member
  rw [loadValueState]
  refine (@get?_foldl_fields manifest field _
    (fun field => (world.environ field.key).map fun value => ⟨value, .process⟩)
    (fun state field => ?_) member _).trans ?_
  · unfold loadProcess
    cases world.environ field.key <;> rfl
  rw [get?_loadFiles member]
  rw [@get?_foldl_fields manifest field _
    (fun field => some (((templateValues manifest world).get? field.key).elim ⟨"", .default⟩
      fun value => ⟨value, .template⟩))
    (fun state field => by cases (templateValues manifest world).get? field.key <;> rfl) member ∅]
  rw [← topmost_layers member]
  simp [layers, layerOf, template]

variable (manifest world field) in
/-- The layer that supplies a setting's value: every one above it has none. -/
inductive Supplied : ValueEntry → Prop
  | process {value : String} (here : world.environ field.key = some value) :
      Supplied ⟨value, .process⟩
  | explicitEnvFile {value : String} (noProcess : world.environ field.key = none)
      (here : (dotenvValuesFromFile world world.explicitEnv).get? field.key = some value) :
      Supplied ⟨value, .explicitEnvFile⟩
  | managedEnv {value : String} (noProcess : world.environ field.key = none)
      (noExplicit : (dotenvValuesFromFile world world.explicitEnv).get? field.key = none)
      (here : (dotenvValuesFromFile world world.managedEnv).get? field.key = some value) :
      Supplied ⟨value, .managedEnv⟩
  | repoEnv {value : String} (noProcess : world.environ field.key = none)
      (noExplicit : (dotenvValuesFromFile world world.explicitEnv).get? field.key = none)
      (noManaged : (dotenvValuesFromFile world world.managedEnv).get? field.key = none)
      (here : (dotenvValuesFromFile world world.repoEnv).get? field.key = some value) :
      Supplied ⟨value, .repoEnv⟩
  | template (noProcess : world.environ field.key = none)
      (noExplicit : (dotenvValuesFromFile world world.explicitEnv).get? field.key = none)
      (noManaged : (dotenvValuesFromFile world world.managedEnv).get? field.key = none)
      (noRepo : (dotenvValuesFromFile world world.repoEnv).get? field.key = none) :
      Supplied ⟨templateValue manifest world field, .template⟩

theorem supplied_entryOf (member : field ∈ manifest.FIELDS) :
    Supplied manifest world field (entryOf manifest world field) := by
  have template := @templateValues_get? manifest world field member
  unfold entryOf layers layerOf
  cases noProcess : world.environ field.key with
  | some value => exact .process noProcess
  | none =>
  cases noExplicit : (dotenvValuesFromFile world world.explicitEnv).get? field.key with
  | some value => exact .explicitEnvFile noProcess noExplicit
  | none =>
  cases noManaged : (dotenvValuesFromFile world world.managedEnv).get? field.key with
  | some value => exact .managedEnv noProcess noExplicit noManaged
  | none =>
  cases noRepo : (dotenvValuesFromFile world world.repoEnv).get? field.key with
  | some value => exact .repoEnv noProcess noExplicit noManaged noRepo
  | none =>
    rw [template]
    exact .template noProcess noExplicit noManaged noRepo

/-- A setting is locked by the environment and by an explicit env file. -/
theorem unlocked_iff (member : field ∈ manifest.FIELDS) :
    isLockedSource (entryOf manifest world field).source = false ↔
      world.environ field.key = none ∧
        (dotenvValuesFromFile world world.explicitEnv).get? field.key = none := by
  have supplied := @supplied_entryOf manifest world field member
  generalize entryOf manifest world field = entry at supplied ⊢
  cases supplied with
  | process here => simp [isLockedSource, here]
  | explicitEnvFile _ here => simp [isLockedSource, here]
  | managedEnv noProcess noExplicit => exact iff_of_true rfl ⟨noProcess, noExplicit⟩
  | repoEnv noProcess noExplicit => exact iff_of_true rfl ⟨noProcess, noExplicit⟩
  | template noProcess noExplicit => exact iff_of_true rfl ⟨noProcess, noExplicit⟩

end Load

/-! ### What a save writes -/

/-- What a save leaves a setting at. -/
def keptValue (manifest : Manifest) (world : World) (field : ConfigFieldSpec) : String :=
  if (entryOf manifest world field).source = .repoEnv ∧
      (dotenvValuesFromFile world world.managedEnv).entries ≠ [] then
    templateValue manifest world field
  else (entryOf manifest world field).value

/-- What is submitted for a setting, and is no mask. -/
def submitted? (strOf : Json → String) (values : List (String × Json)) (field : ConfigFieldSpec) :
    Option String :=
  (Assoc.get? field.key values).bind fun value =>
    if field.secret ∧ value = .str MASKED_SECRET then none else some (normalizeForEnv strOf value)

section Save

variable {manifest : Manifest} {world : World} {field : ConfigFieldSpec} {strOf : Json → String}
  {values : List (String × Json)}

/-- What is kept is the managed file's value, or the one that counts where there is no such file. -/
theorem get?_keptValues (member : field ∈ manifest.FIELDS) :
    (keptValues manifest world).get? field.key =
      some (if (dotenvValuesFromFile world world.managedEnv).entries = [] then
          if isLockedSource (entryOf manifest world field).source then templateValue manifest world field
          else (entryOf manifest world field).value
        else ((dotenvValuesFromFile world world.managedEnv).get? field.key).getD
          (templateValue manifest world field)) := by
  have template := @templateValues_get? manifest world field member
  unfold keptValues
  by_cases managed : (dotenvValuesFromFile world world.managedEnv).entries = []
  · have put := @Dict.get?_foldl_put String String ValueEntry _
      (fun values entry => if entry.2.source ∈ [SourceType.repoEnv, .template, .default] then
        values.set entry.1 entry.2.value else values)
      (fun _ entry => if entry.source ∈ [SourceType.repoEnv, .template, .default] then
        some entry.value else none)
      (fun values key entry => by dsimp only; split_ifs <;> rfl)
      (loadValueState manifest world).entries (Dict.nodupKeys _) (templateValues manifest world)
      field.key
    have found : Assoc.get? field.key (loadValueState manifest world).entries =
        some (entryOf manifest world field) := get?_loadValueState member
    have absent : (dotenvValuesFromFile world world.managedEnv).get? field.key = none := by
      rw [Dict.get?, managed, Assoc.get?_nil]
    rw [if_neg (not_not.mpr managed), if_pos managed, put, found, Option.bind_some, template]
    have supplied := @supplied_entryOf manifest world field member
    generalize entryOf manifest world field = entry at supplied ⊢
    cases supplied with
    | process => rfl
    | explicitEnvFile => rfl
    | managedEnv _ _ here => cases absent.symm.trans here
    | repoEnv => rfl
    | template => rfl
  · have put := @Dict.get?_foldl_put String String String _
      (fun values entry => if ((templateValues manifest world).get? entry.1).isSome then
        values.set entry.1 entry.2 else values)
      (fun key value => if ((templateValues manifest world).get? key).isSome then some value else none)
      (fun values key value => by dsimp only; split_ifs <;> rfl)
      (dotenvValuesFromFile world world.managedEnv).entries (Dict.nodupKeys _)
      (templateValues manifest world) field.key
    rw [if_pos managed, if_neg managed, put, template, ← Dict.get?]
    cases (dotenvValuesFromFile world world.managedEnv).get? field.key <;> rfl

/-- What is submitted for a setting that is not locked, and is no mask, is taken over. -/
theorem get?_foldl_applyUpdate (member : field ∈ manifest.FIELDS)
    (distinct : (values.map Prod.fst).Nodup) (before : Dict String String) :
    (values.foldl (applyUpdate manifest world strOf) before).get? field.key =
      (if isLockedSource (entryOf manifest world field).source then none
        else submitted? strOf values field).or (before.get? field.key) := by
  have put := @Dict.get?_foldl_put String String Json _ (applyUpdate manifest world strOf)
    (fun key value => (manifest.fieldByKey key).bind fun field =>
      if ((loadValueState manifest world).get? key).any fun entry => isLockedSource entry.source then none
      else if field.secret ∧ value = .str MASKED_SECRET then none
      else some (normalizeForEnv strOf value))
    (fun before key value => by
      unfold applyUpdate
      cases manifest.fieldByKey key with
      | none => rfl
      | some field =>
        rw [Option.bind_some]
        dsimp only
        split_ifs <;> rfl)
    values distinct before field.key
  rw [put, submitted?]
  simp only [fieldByKey_of_mem member, Option.bind_some, get?_loadValueState member, Option.any_some]
  split_ifs with locked
  · rw [Option.bind_fun_none]
  · rfl

/-- **What is written for a setting.** -/
theorem valueOf_target (member : field ∈ manifest.FIELDS) (distinct : (values.map Prod.fst).Nodup)
    {kept : String} (isKept : (keptValues manifest world).get? field.key = some kept) :
    valueOf (targetValuesWithUpdates manifest world strOf values) field =
      (if isLockedSource (entryOf manifest world field).source then none
        else submitted? strOf values field).getD kept := by
  have updated := @get?_foldl_applyUpdate manifest world field strOf values member distinct
    (keptValues manifest world)
  rw [isKept] at updated
  have stored : (values.foldl (applyUpdate manifest world strOf) (keptValues manifest world)).get?
      field.key = some ((if isLockedSource (entryOf manifest world field).source then none
        else submitted? strOf values field).getD kept) := by
    rw [updated]
    cases (if isLockedSource (entryOf manifest world field).source then none
      else submitted? strOf values field) <;> rfl
  rw [valueOf, targetValuesWithUpdates, get?_foldl_setDefault stored, Option.getD_some]

/-- What is kept of a setting that is not locked. -/
theorem get?_keptValues_of_unlocked (member : field ∈ manifest.FIELDS)
    (unlocked : isLockedSource (entryOf manifest world field).source = false) :
    (keptValues manifest world).get? field.key = some (keptValue manifest world field) := by
  rw [get?_keptValues member, unlocked, if_neg Bool.false_ne_true, keptValue]
  congr 1
  by_cases managed : (dotenvValuesFromFile world world.managedEnv).entries = []
  · rw [if_pos managed, if_neg fun both => both.2 managed]
  · rw [if_neg managed]
    have supplied := @supplied_entryOf manifest world field member
    generalize entryOf manifest world field = entry at supplied unlocked ⊢
    cases supplied with
    | process => cases unlocked
    | explicitEnvFile => cases unlocked
    | managedEnv _ _ here => rw [here, if_neg (by simp), Option.getD_some]
    | repoEnv _ _ noManaged => rw [noManaged, if_pos ⟨rfl, managed⟩, Option.getD_none]
    | template _ _ noManaged => rw [noManaged, if_neg (by simp), Option.getD_none]

theorem distinct_filteredValues (distinct : (values.map Prod.fst).Nodup) :
    ((filteredValues manifest values).map Prod.fst).Nodup :=
  distinct.sublist (List.filter_sublist.map _)

theorem submitted?_filteredValues (member : field ∈ manifest.FIELDS)
    (distinct : (values.map Prod.fst).Nodup) :
    submitted? strOf (filteredValues manifest values) field = submitted? strOf values field := by
  unfold submitted?
  congr 1
  cases found : Assoc.get? field.key values with
  | none =>
    refine Assoc.get?_of_notMem fun inside => ?_
    obtain ⟨entry, kept, same⟩ := List.mem_map.mp inside
    have there := Assoc.get?_eq_some_of_mem distinct (List.mem_of_mem_filter kept)
    rw [same, found] at there
    cases there
  | some value =>
    refine Assoc.get?_eq_some_of_mem (distinct_filteredValues distinct) ?_
    refine List.mem_filter.mpr ⟨Assoc.mem_of_get?_eq_some found, ?_⟩
    rw [fieldByKey_of_mem member]
    rfl

/-- The managed file is a layer below the locked ones. -/
theorem entryOf_managed (member : field ∈ manifest.FIELDS) {value : String} {text : String}
    (stored : (dotenvValuesFromFile world (some text)).get? field.key = some value) :
    entryOf manifest { world with managedEnv := some text } field =
      if isLockedSource (entryOf manifest world field).source then entryOf manifest world field
      else ⟨value, .managedEnv⟩ := by
  have before := @topmost_layers manifest world field member
  have after := @topmost_layers manifest { world with managedEnv := some text } field member
  have written : (dotenvValuesFromFile { world with managedEnv := some text } (some text)).get?
      field.key = some value := stored
  have explicit : dotenvValuesFromFile { world with managedEnv := some text } world.explicitEnv =
      dotenvValuesFromFile world world.explicitEnv := rfl
  simp only [layers, layerOf, Layers.topmost_cons, explicit, written, Option.map_some,
    Option.some_or] at before after
  split_ifs with locked
  · refine Option.some.inj (after.symm.trans (Eq.trans ?_ before))
    cases environ : world.environ field.key with
    | some other => rfl
    | none =>
      cases explicitly : (dotenvValuesFromFile world world.explicitEnv).get? field.key with
      | some other => rfl
      | none =>
        rw [(unlocked_iff member).mpr ⟨environ, explicitly⟩] at locked
        cases locked
  · obtain ⟨noProcess, noExplicit⟩ := (unlocked_iff member).mp (Bool.eq_false_iff.mpr locked)
    rw [noProcess, noExplicit] at after
    exact (Option.some.inj after).symm

end Save

/-! ### Saves, one after another -/

/-- A save goes through: its settings are valid, and its file is read back. -/
structure Saves (manifest : Manifest) (strOf : Json → String) (valid : Dict String String → Bool)
    (world : World) (values : List (String × Json)) : Prop where
  distinct : (values.map Prod.fst).Nodup
  accepted : valid (effectiveValuesForValidation manifest world
    (targetValuesWithUpdates manifest world strOf (filteredValues manifest values))) = true
  back : ReadsBack world.environ manifest
    (targetValuesWithUpdates manifest world strOf (filteredValues manifest values))

section Saves

variable {manifest : Manifest} {world : World} {field : ConfigFieldSpec} {strOf : Json → String}
  {valid : Dict String String → Bool} {values : List (String × Json)}

/-- Values without variables that begin with no single quote are read back. -/
theorem Saves.of_plain (distinct : (values.map Prod.fst).Nodup)
    (accepted : valid (effectiveValuesForValidation manifest world
      (targetValuesWithUpdates manifest world strOf (filteredValues manifest values))) = true)
    (plain : ∀ field ∈ manifest.FIELDS,
      let value := valueOf (targetValuesWithUpdates manifest world strOf
        (filteredValues manifest values)) field
      value.toList.head? ≠ some '\'' ∧ '$' ∉ value.toList) :
    Saves manifest strOf valid world values := by
  refine ⟨distinct, accepted, (readsBack_iff fun field member opens =>
    (plain field member).1 opens.1).mpr (Dotenv.standForThemselves_of_plain fun pair inside => ?_)⟩
  obtain ⟨field, isField, rfl⟩ := List.mem_map.mp inside
  exact (plain field (mem_fileFields.mp isField)).2

/-- **One save**: a locked setting is what it was, another one what was submitted, or else kept. -/
theorem entryOf_importConfig (saves : Saves manifest strOf valid world values)
    (member : field ∈ manifest.FIELDS) :
    entryOf manifest (importConfig manifest world strOf valid values) field =
      if isLockedSource (entryOf manifest world field).source then entryOf manifest world field
      else ⟨(submitted? strOf values field).getD (keptValue manifest world field), .managedEnv⟩ := by
  rw [importConfig, writeManagedEnv, if_pos saves.accepted,
    entryOf_managed member (saves.back.settings field member)]
  split_ifs with locked
  · rfl
  · rw [valueOf_target member (distinct_filteredValues saves.distinct)
        (get?_keptValues_of_unlocked member (Bool.eq_false_iff.mpr locked)),
      if_neg locked, submitted?_filteredValues member saves.distinct]

theorem locked_importConfig (saves : Saves manifest strOf valid world values)
    (member : field ∈ manifest.FIELDS) :
    isLockedSource (entryOf manifest (importConfig manifest world strOf valid values) field).source =
      isLockedSource (entryOf manifest world field).source := by
  rw [entryOf_importConfig saves member]
  split_ifs with locked
  · rfl
  · rw [Bool.eq_false_iff.mpr locked]
    rfl

/-- Behind a save a setting is kept at its value. -/
theorem keptValue_importConfig (saves : Saves manifest strOf valid world values)
    (member : field ∈ manifest.FIELDS)
    (unlocked : isLockedSource (entryOf manifest world field).source = false) :
    keptValue manifest (importConfig manifest world strOf valid values) field =
      (submitted? strOf values field).getD (keptValue manifest world field) := by
  rw [keptValue, entryOf_importConfig saves member, unlocked, if_neg Bool.false_ne_true]
  simp

variable (manifest strOf valid)

/-- Every save goes through, each where the ones before it have led. -/
def AllSave : World → List (List (String × Json)) → Prop
  | _, [] => True
  | world, values :: rest =>
    Saves manifest strOf valid world values ∧
      AllSave (importConfig manifest world strOf valid values) rest

/-- The saves of a run. -/
def afterSaves (world : World) (submissions : List (List (String × Json))) : World :=
  submissions.foldl (fun world values => importConfig manifest world strOf valid values) world

variable {manifest strOf valid}

/-- **Saves and the next load.** However often the settings are saved, a locked one is what it was;
another one is what was submitted for it last, where that was no mask, or else what was kept by the
first save. -/
theorem entry_after_saves (submissions : List (List (String × Json))) (world : World)
    (some_ : submissions ≠ []) (allSave : AllSave manifest strOf valid world submissions) :
    ∀ field ∈ manifest.FIELDS,
      (loadValueState manifest (afterSaves manifest strOf valid world submissions)).get? field.key =
        some (if isLockedSource (entryOf manifest world field).source then entryOf manifest world field
          else ⟨(submissions.reverse.findSome? fun values => submitted? strOf values field).getD
            (keptValue manifest world field), .managedEnv⟩) := by
  intro field member
  rw [get?_loadValueState member]
  congr 1
  induction submissions generalizing world with
  | nil => exact absurd rfl some_
  | cons values rest ih =>
    obtain ⟨saves, later⟩ := allSave
    have first := entryOf_importConfig saves member
    cases rest with
    | nil => simpa [afterSaves] using first
    | cons next rest =>
      have run := ih (importConfig manifest world strOf valid values) (List.cons_ne_nil _ _) later
      rw [afterSaves, List.foldl_cons, ← afterSaves, run, locked_importConfig saves member]
      split_ifs with locked
      · rw [first, if_pos locked]
      · have last : ((values :: next :: rest).reverse.findSome? fun values =>
            submitted? strOf values field) =
            ((next :: rest).reverse.findSome? fun values => submitted? strOf values field).or
              (submitted? strOf values field) := by
          rw [List.reverse_cons, List.findSome?_append]
          simp
        rw [keptValue_importConfig saves member (Bool.eq_false_iff.mpr locked), last]
        cases (next :: rest).reverse.findSome? fun values => submitted? strOf values field <;> rfl

end Saves

/-! ### An export, imported -/

section Reimport

variable {manifest : Manifest} {world : World} {field : ConfigFieldSpec}

theorem exportConfig_eq : exportConfig manifest world =
    manifest.FIELDS.map fun field =>
      (field.key, .str (displayValue field (((loadValueState manifest world).get? field.key).getD
        ⟨"", .default⟩).value)) := by
  rw [exportConfig, fieldResponses, List.map_map]
  rfl

theorem distinct_exportConfig : ((exportConfig manifest world).map Prod.fst).Nodup := by
  rw [exportConfig_eq, List.map_map]
  exact manifest.distinctKeys

/-- An exported value is submitted unless it is a mask. -/
theorem submitted?_exportConfig (member : field ∈ manifest.FIELDS) (strOf : Json → String) :
    submitted? strOf (exportConfig manifest world) field =
      if field.secret = true ∧ (entryOf manifest world field).value ≠ "" then none
      else some (entryOf manifest world field).value := by
  have found : Assoc.get? field.key (exportConfig manifest world) =
      some (.str (displayValue field (entryOf manifest world field).value)) := by
    refine Assoc.get?_eq_some_of_mem distinct_exportConfig ?_
    rw [exportConfig_eq]
    refine List.mem_map.mpr ⟨field, member, ?_⟩
    rw [get?_loadValueState member, Option.getD_some]
  rw [submitted?, found, Option.bind_some, displayValue]
  split_ifs with shown masked masked
  · rfl
  · exact absurd ⟨shown.1, rfl⟩ masked
  · obtain ⟨secret, same⟩ := masked
    have empty : (entryOf manifest world field).value = "" := by
      by_contra nonempty
      exact shown ⟨secret, nonempty⟩
    rw [empty] at same
    exact absurd (Json.str.inj same) (by decide)
  · rfl

/-- A secret of the repository's env file, where there is a managed file. -/
structure Shadowed (manifest : Manifest) (world : World) (field : ConfigFieldSpec) : Prop where
  secret : field.secret = true
  fromRepo : (entryOf manifest world field).source = .repoEnv
  managed : (dotenvValuesFromFile world world.managedEnv).entries ≠ []
  nonempty : (entryOf manifest world field).value ≠ ""

/-- **An export that is imported again** changes no setting just when every secret that a managed file
would hide is the template's. -/
theorem reimport_iff (manifest : Manifest) (world : World) (strOf : Json → String)
    (valid : Dict String String → Bool)
    (saves : Saves manifest strOf valid world (exportConfig manifest world)) :
    (∀ field ∈ manifest.FIELDS,
      ((loadValueState manifest (importConfig manifest world strOf valid
        (exportConfig manifest world))).get? field.key).map ValueEntry.value =
          ((loadValueState manifest world).get? field.key).map ValueEntry.value) ↔
      ∀ field ∈ manifest.FIELDS, Shadowed manifest world field →
        (entryOf manifest world field).value = templateValue manifest world field := by
  refine forall₂_congr fun field member => ?_
  rw [get?_loadValueState member, get?_loadValueState member, entryOf_importConfig saves member,
    submitted?_exportConfig member, Option.map_some, Option.map_some, Option.some.injEq]
  split_ifs with locked masked
  · refine iff_of_true rfl fun shadowed => ?_
    rw [shadowed.fromRepo] at locked
    cases locked
  · rw [Option.getD_none, keptValue]
    split_ifs with hidden
    · exact ⟨fun same _ => same.symm, fun all => (all ⟨masked.1, hidden.1, hidden.2, masked.2⟩).symm⟩
    · exact iff_of_true rfl fun shadowed => absurd ⟨shadowed.fromRepo, shadowed.managed⟩ hidden
  · exact iff_of_true rfl fun shadowed => absurd ⟨shadowed.secret, shadowed.nonempty⟩ masked

end Reimport

/-! ### A small configuration -/

/-- A key and an address. -/
def keyAndUrl : Manifest where
  SECTIONS := [⟨"providers", "Providers"⟩]
  FIELDS := [⟨"API_KEY", "providers", "", true⟩, ⟨"BASE_URL", "providers", "http://localhost", false⟩]
  distinctSections := by decide +kernel
  plainLabels := by decide +kernel
  distinctKeys := by decide +kernel
  plainKeys := by
    have constants : ([⟨"API_KEY", "providers", "", true⟩,
        ⟨"BASE_URL", "providers", "http://localhost", false⟩] : List ConfigFieldSpec).all
          (fun field => Dotenv.isConstant field.key) = true := by decide +kernel
    exact fun field member => Dotenv.PlainKey.of_isConstant (List.all_eq_true.mp constants field member)
  listed := by decide +kernel

/-- The key is in the repository's env file, the address in the managed one. -/
def twoFiles : World where
  environ _ := none
  templateText := ""
  repoEnv := some "API_KEY=abc\n"
  managedEnv := some "BASE_URL=http://remote\n"
  explicitEnv := none

/-- An address of one's own, then a key for it, with the mask of the page first. -/
def ownAddress : List (List (String × Json)) :=
  [[("BASE_URL", .str "http://own"), ("API_KEY", .str MASKED_SECRET)], [("API_KEY", .str "new")]]

theorem ownAddress_save :
    AllSave keyAndUrl (fun _ => "") (fun _ => true) twoFiles ownAddress := by
  refine ⟨Saves.of_plain (by decide +kernel) rfl ?_, Saves.of_plain (by decide +kernel) rfl ?_, trivial⟩
  · exact List.forall_iff_forall_mem.mp (by decide +kernel)
  · exact List.forall_iff_forall_mem.mp (by decide +kernel)

/-- The key is kept by no save, and is then the one that was submitted. -/
theorem ownAddress_saved :
    ((loadValueState keyAndUrl (afterSaves keyAndUrl (fun _ => "") (fun _ => true) twoFiles
      ownAddress)).get? "API_KEY") = some ⟨"new", .managedEnv⟩ :=
  (entry_after_saves ownAddress twoFiles (by decide) ownAddress_save
    ⟨"API_KEY", "providers", "", true⟩ List.mem_cons_self).trans (by decide +kernel)

/-- The managed file has no key: the one that was in use is lost. -/
theorem shadowedKey_lost :
    ¬ ∀ field ∈ keyAndUrl.FIELDS,
      ((loadValueState keyAndUrl (importConfig keyAndUrl twoFiles (fun _ => "") (fun _ => true)
        (exportConfig keyAndUrl twoFiles))).get? field.key).map ValueEntry.value =
          ((loadValueState keyAndUrl twoFiles).get? field.key).map ValueEntry.value := by
  have saves : Saves keyAndUrl (fun _ => "") (fun _ => true) twoFiles
      (exportConfig keyAndUrl twoFiles) :=
    Saves.of_plain distinct_exportConfig rfl (List.forall_iff_forall_mem.mp (by decide +kernel))
  intro same
  have isTemplate := (reimport_iff keyAndUrl twoFiles (fun _ => "") (fun _ => true) saves).mp same
    ⟨"API_KEY", "providers", "", true⟩ List.mem_cons_self
    ⟨rfl, by decide +kernel, by decide +kernel, by decide +kernel⟩
  revert isTemplate
  decide +kernel

end AdminConfig

end ClaudeProxy
