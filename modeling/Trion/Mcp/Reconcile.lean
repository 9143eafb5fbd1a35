import Trion.Mcp.MirrorConsistency
import Trion.Python.PosixPath

/-!
# Reconciling the registry with the bundles

`installer_reconcile.py`: at the start of the hub every entry of the registry that belongs to the
installer gets the mirror its bundle has now, and entries whose bundle is gone are removed.  An
exception that is no `InstallationError` ends the loop over the entries.
-/

namespace Trion.Mcp

open Trion.Python

/-! ### Bundles and entries -/

/-- The custom part of the registry, as `json.loads` reads it back. -/
abbrev Registry := List (String × PyDict)

/-- What is at `custom_mcps_dir() / name`: whether it resolves to a path directly below the root,
whether it exists, whether it has a receipt, and its `tool_intents.json`. -/
structure BundleDir where
  below : Bool
  present : Bool
  hasReceipt : Bool
  intents : Option IntentsFile

/-- `MANAGED_BY_INSTALLER`. -/
def managedByInstaller : String := "trion_installer"

/-- The test of `validate_mcp_id`. -/
def validMcpId (candidate : String) : Bool :=
  !(candidate == "" || candidate == "." || candidate == ".." || candidate.toList.contains '/' ||
    candidate.toList.contains '\\' || candidate.toList.contains '\x00' ||
    startsWith candidate "/" || (components candidate).getLast?.getD "" != candidate)

/-- What `reconcile_tool_manifest_mirrors` returns. -/
structure ReconcileReport where
  repaired : List String
  removed : List String
  unresolved : List String
deriving DecidableEq

section Source

variable (env : InstallerRuntime) (fs : String → BundleDir) (core : List String)

/-- `custom_mcp_dir`. -/
def customMcpDir (name : String) : Except Raised BundleDir :=
  if validMcpId name && (fs name).below then .ok (fs name)
  else .error (.http 400 ("Invalid MCP id: " ++ env.repr (.str name)))

/-- `is_installer_owned`. -/
def isInstallerOwned (name : String) : Except Raised Bool :=
  (customMcpDir env fs name).map fun bundle => bundle.present && bundle.hasReceipt

/-- `int(d.get(key, default) or default)`. -/
def intField (d : PyDict) (key : String) (default : ℤ) : Except PyError ℤ :=
  ((getOr d key (.int default)).or (.int default)).toInt env.toPyRuntime

/-- `str(d.get(key, default) or default)`. -/
def strField (d : PyDict) (key default : String) : String :=
  (getOr d key (.str default)).strOr env.toPyRuntime default

/-- A field that is written only if it is not empty. -/
def optionalField (key value : String) : PyDict :=
  if value = "" then [] else [(key, .str value)]

/-- `registry_entry_from_config`. -/
def registryEntryFromConfig (config : PyDict) : Except Raised PyDict := do
  let schemaVersion ← lift (intField env config "schema_version" 0)
  return [("enabled", .bool (getOr config "enabled" (.bool true)).truthy),
    ("transport", .str (strField env config "transport" "http")),
    ("url", .str (strField env config "url" "")),
    ("description", .str (strField env config "description" "")),
    ("display_name", .str (strField env config "display_name" "")),
    ("version", .str (strField env config "version" "")),
    ("schema_version", .int schemaVersion),
    ("entry", getOr config "entry" (.dict [])),
    ("ui", getOr config "ui" (.dict [])),
    ("plugin", PyDict.get config "plugin"),
    ("install", getOr config "install" (.dict [])),
    ("tool_intents", PyDict.get config "tool_intents"),
    ("managed_by", .str managedByInstaller)] ++
      optionalField "command" (strField env config "command" "") ++
      optionalField "cwd" (strField env config "cwd" "")

/-- `upsert_registry_entry`. -/
def upsertRegistryEntry (name : String) (config : PyDict) (registry : Registry) :
    Except Raised Registry := do
  let entry ← registryEntryFromConfig env config
  assertMirrorConsistency env config
  raiseIf (core.contains name)
    (.python (.valueError "Core MCP entries cannot be persisted as custom data"))
  return OrderedDict.insert registry name entry

/-- `remove_registry_entry`. -/
def removeRegistryEntry (name : String) (registry : Registry) : Except Raised Registry := do
  raiseIf (core.contains name)
    (.python (.valueError "Core MCP entries cannot be removed by the custom writer"))
  return OrderedDict.erase registry name

/-- The entry carries a mirror that counts as true. -/
def hasMirror (entry : PyDict) : Bool := (PyDict.get entry "tool_intents").truthy

/-- The entry without its mirror, if it has one: whether it changes, and whether it is
unresolved. -/
def dropMirror (entry : PyDict) (unresolved : Bool) : PyDict × Bool × Bool :=
  if hasMirror entry then (PyDict.set entry "tool_intents" .none, true, unresolved)
  else (entry, false, unresolved)

/-- `build_tool_intent_mirror` for the version of the entry. -/
def freshMirror (file : IntentsFile) (entry : PyDict) : Except Raised PyDict :=
  buildToolIntentMirror env file (strField env entry "version" "")

/-- `_refresh_mirror`: the entry, whether it changes, and whether it is unresolved. -/
def refreshMirror (bundle : BundleDir) (entry : PyDict) : Except Raised (PyDict × Bool × Bool) :=
  match bundle.intents with
  | none => .ok (dropMirror entry false)
  | some file =>
    match freshMirror env file entry with
    | .ok mirror =>
      if (PyDict.get entry "tool_intents").pyEq (.dict mirror) then .ok (entry, false, false)
      else .ok (PyDict.set entry "tool_intents" (.dict mirror), true, false)
    | .error (.installation _ _) => .ok (dropMirror entry true)
    | .error error => .error error

/-- The entry belongs to the installer by its marker. -/
def hasMarker (entry : PyDict) : Bool :=
  (PyDict.get entry "managed_by").pyEq (.str managedByInstaller)

/-- The entry has its marker, or its bundle a receipt. -/
def provenOwned (name : String) (entry : PyDict) : Except Raised Bool :=
  if hasMarker entry then .ok true else isInstallerOwned env fs name

/-- The entry with its marker. -/
def marked (entry : PyDict) : PyDict :=
  if hasMarker entry then entry else PyDict.set entry "managed_by" (.str managedByInstaller)

/-- `_reconcile_entry`. -/
def reconcileEntry (name : String) (entry : PyDict) (registry : Registry)
    (report : ReconcileReport) : Except Raised (Registry × ReconcileReport) := do
  let owned ← provenOwned env fs name entry
  if !owned then
    return (registry, { report with unresolved := report.unresolved ++ [name] })
  let bundle ← customMcpDir env fs name
  if !bundle.present then
    let registry ← removeRegistryEntry core name registry
    return (registry, { report with removed := report.removed ++ [name] })
  let (entry', changed, unresolved) ← refreshMirror env bundle (marked entry)
  let report := if unresolved then { report with unresolved := report.unresolved ++ [name] }
    else report
  if !hasMarker entry || changed then
    let registry ← upsertRegistryEntry env core name entry' registry
    return (registry, { report with repaired := report.repaired ++ [name] })
  return (registry, report)

/-- The loop over the entries. -/
def reconcileEntries : Registry → Registry → ReconcileReport →
    Except Raised (Registry × ReconcileReport)
  | [], registry, report => .ok (registry, report)
  | (name, entry) :: entries, registry, report =>
    if core.contains name then reconcileEntries entries registry report
    else do
      let (registry, report) ← reconcileEntry env fs core name entry registry report
      reconcileEntries entries registry report

/-- `load_registry_source` takes the registry: no name is blank, and none is that of a core
entry. -/
def loadsRegistry (registry : Registry) : Bool :=
  registry.all fun e => strip e.1 != "" && !core.contains e.1

/-- `reconcile_tool_manifest_mirrors`, with the core entries `get_all_mcps` puts before the custom
ones. -/
def reconcileToolManifestMirrors (coreEntries : Registry) (registry : Registry) :
    Except Raised (Registry × ReconcileReport) := do
  raiseIf (!loadsRegistry (OrderedDict.keys coreEntries) registry)
    (.python (.valueError "Registry source status blocks composition: PARSE_FAILED"))
  reconcileEntries env fs (OrderedDict.keys coreEntries) (coreEntries ++ registry) registry
    ⟨[], [], []⟩

end Source

/-! ### Errors of a bundle -/

section Errors

variable {env : InstallerRuntime}

/-- What the call raises is an `InstallationError`. -/
def OnlyInstallation {α : Type} (call : Except Raised α) : Prop :=
  ∀ error, call = .error error → ∃ message target, error = .installation message target

lemma onlyInstallation_ok {α : Type} (a : α) : OnlyInstallation (.ok a : Except Raised α) := nofun

lemma onlyInstallation_error {α : Type} (message : String) (target : Option String) :
    OnlyInstallation (.error (.installation message target) : Except Raised α) :=
  fun _ h => ⟨message, target, (Except.error.inj h).symm⟩

lemma OnlyInstallation.bind {α β : Type} {call : Except Raised α} {next : α → Except Raised β}
    (h : OnlyInstallation call) (hnext : ∀ a, call = .ok a → OnlyInstallation (next a)) :
    OnlyInstallation (call >>= next) := by
  cases call with
  | error error => exact fun error' h' => h error' (by simpa [Bind.bind, Except.bind] using h')
  | ok a => exact hnext a rfl

lemma OnlyInstallation.map {α β : Type} {call : Except Raised α} (h : OnlyInstallation call)
    (f : α → β) : OnlyInstallation (call.map f) := by
  cases call with
  | error error => exact fun error' h' => h error' (by simpa [Except.map] using h')
  | ok a => exact onlyInstallation_ok (f a)

lemma onlyInstallation_mapM {α β : Type} {f : α → Except Raised β} {xs : List α}
    (h : ∀ x ∈ xs, OnlyInstallation (f x)) : OnlyInstallation (xs.mapM f) := by
  induction xs with
  | nil => exact onlyInstallation_ok []
  | cons x xs ih =>
    rw [List.mapM_cons]
    refine (h x List.mem_cons_self).bind fun y _ => ?_
    exact (ih fun x' hx' => h x' (List.mem_cons_of_mem x hx')).bind fun _ _ =>
      onlyInstallation_ok _

lemma onlyInstallation_foldlM {α β : Type} {f : β → α → Except Raised β}
    (h : ∀ b x, OnlyInstallation (f b x)) (xs : List α) (b : β) :
    OnlyInstallation (xs.foldlM f b) := by
  induction xs generalizing b with
  | nil => exact onlyInstallation_ok b
  | cons x xs ih =>
    rw [List.foldlM_cons]
    exact (h b x).bind fun b' _ => ih b'

lemma onlyInstallation_raiseIf (condition : Bool) (message : String) (target : Option String) :
    OnlyInstallation (raiseIf condition (.installation message target)) := by
  cases condition
  · exact onlyInstallation_ok ()
  · exact onlyInstallation_error message target

lemma onlyInstallation_stringList (value : PyVal) (field : String) :
    OnlyInstallation (stringList env value field) := by
  unfold stringList
  split
  · exact onlyInstallation_ok _
  · exact onlyInstallation_ok _
  · exact onlyInstallation_error _ _

lemma onlyInstallation_outputSchemaReference (value : PyVal) (schemaVersion : ℤ) :
    OnlyInstallation (outputSchemaReference env value schemaVersion) := by
  unfold outputSchemaReference
  split
  · exact onlyInstallation_error _ _
  · exact onlyInstallation_error _ _
  · dsimp only
    split_ifs
    · exact onlyInstallation_error _ _
    · exact onlyInstallation_ok _

lemma onlyInstallation_setIfPresent {raw tool : PyDict} {field : String}
    {value : Except Raised PyVal} (h : OnlyInstallation value) :
    OnlyInstallation (setIfPresent raw field value tool) := by
  unfold setIfPresent
  split_ifs
  · exact h.map _
  · exact onlyInstallation_ok _

lemma onlyInstallation_normalizeTool (schemaVersion : ℤ) (raw : PyVal) :
    OnlyInstallation (normalizeTool env schemaVersion raw) := by
  unfold normalizeTool
  split
  · dsimp only
    split_ifs
    · exact onlyInstallation_error _ _
    · refine (onlyInstallation_stringList _ _).bind fun examples _ => ?_
      refine (onlyInstallation_stringList _ _).bind fun keywords _ => ?_
      refine (onlyInstallation_foldlM (fun tool field =>
        onlyInstallation_setIfPresent (onlyInstallation_ok _)) _ _).bind fun withTexts _ => ?_
      refine (onlyInstallation_setIfPresent
        (onlyInstallation_outputSchemaReference _ _)).bind fun withSchema _ => ?_
      refine (onlyInstallation_foldlM (fun tool field =>
        onlyInstallation_setIfPresent (onlyInstallation_stringList _ _)) _ _).bind
          fun withLists _ => ?_
      exact onlyInstallation_setIfPresent (onlyInstallation_ok _)
  · exact onlyInstallation_error _ _

lemma onlyInstallation_assertUniqueToolNames (seen : List PyVal) (tools : List PyDict) :
    OnlyInstallation (assertUniqueToolNames env seen tools) := by
  induction tools generalizing seen with
  | nil => exact onlyInstallation_ok ()
  | cons tool tools ih =>
    rw [assertUniqueToolNames]
    split_ifs
    · exact onlyInstallation_error _ _
    · exact ih _

/-- The version of the schema in the file, if it holds an object, is one that `int` takes. -/
def ReadableVersion (env : InstallerRuntime) (file : IntentsFile) : Prop :=
  ∀ payload, file.payload = some (.dict payload) →
    ∃ n, intField env payload "schema_version" 1 = .ok n

lemma onlyInstallation_loadToolIntents {file : IntentsFile} (h : ReadableVersion env file) :
    OnlyInstallation (loadToolIntents env file) := by
  unfold loadToolIntents
  split
  · exact onlyInstallation_error _ _
  · rename_i payload hpayload
    obtain ⟨n, hn⟩ := h payload hpayload
    unfold intField at hn
    rw [lift_eq_ok.mpr hn, bind_ok]
    split
    · exact (onlyInstallation_mapM fun raw _ => onlyInstallation_normalizeTool n raw).bind
        fun tools _ => onlyInstallation_ok _
    · exact onlyInstallation_error _ _
  · exact onlyInstallation_error _ _

lemma loadToolIntents_unreadable {file : IntentsFile} (h : ¬ReadableVersion env file) :
    ∃ error, loadToolIntents env file = .error (.python error) := by
  simp only [ReadableVersion, not_forall] at h
  obtain ⟨payload, hpayload, hnone⟩ := h
  unfold loadToolIntents
  rw [hpayload]
  unfold intField at hnone
  simp only
  cases hint : ((getOr payload "schema_version" (.int 1)).or (.int 1)).toInt env.toPyRuntime with
  | ok n => exact absurd ⟨n, hint⟩ hnone
  | error error => exact ⟨error, rfl⟩

lemma canonicalJsonSha256_loaded {file : IntentsFile} {loaded : LoadedIntents}
    (h : loadToolIntents env file = .ok loaded) :
    ∃ sha256, canonicalJsonSha256 env loaded.payload = .ok sha256 := by
  have hjson : loaded.payload.FromJson := by
    refine ⟨by simp [OrderedDict.keys], trivial, fromJson_list.mpr fun x hx => ?_, trivial⟩
    obtain ⟨tool, htool, rfl⟩ := List.mem_map.mp hx
    exact (sourceTool_of_loadToolIntents h tool htool).fromJson
  unfold canonicalJsonSha256 canonicalJson?
  rw [jsonCopy_of_fromJson hjson]
  exact ⟨_, rfl⟩

lemma onlyInstallation_projectTool (tool : PyDict) (schemaVersion : ℤ) (header : PyDict) :
    OnlyInstallation (projectTool tool (.int schemaVersion) header) := by
  unfold projectTool
  refine OnlyInstallation.bind (onlyInstallation_ok _) fun two _ => ?_
  cases two <;> exact onlyInstallation_ok _

/-- Building a mirror raises something else than an `InstallationError` just where `int` does not
take the version of the schema. -/
lemma onlyInstallation_freshMirror_iff {file : IntentsFile} {entry : PyDict} :
    OnlyInstallation (freshMirror env file entry) ↔ ReadableVersion env file := by
  unfold freshMirror buildToolIntentMirror
  constructor
  · intro h
    by_contra hunreadable
    obtain ⟨error, herror⟩ := loadToolIntents_unreadable hunreadable
    rw [herror] at h
    obtain ⟨message, target, heq⟩ := h _ rfl
    exact nomatch heq
  · intro h
    refine (onlyInstallation_loadToolIntents h).bind fun loaded hload => ?_
    refine (onlyInstallation_raiseIf _ _ _).bind fun _ _ => ?_
    refine (onlyInstallation_raiseIf _ _ _).bind fun _ _ => ?_
    refine (onlyInstallation_assertUniqueToolNames _ _).bind fun _ _ => ?_
    obtain ⟨sha256, hsha256⟩ := canonicalJsonSha256_loaded hload
    rw [hsha256, bind_ok]
    exact (onlyInstallation_mapM fun tool _ => onlyInstallation_projectTool _ _ _).bind
      fun _ _ => onlyInstallation_ok _

end Errors

/-! ### The mirror of an entry -/

section Mirrors

variable (env : InstallerRuntime)

/-- The mirror an entry should carry: the one built from the file of its bundle, or none. -/
def bundleMirror (bundle : BundleDir) (entry : PyDict) : PyVal :=
  match bundle.intents with
  | none => .none
  | some file =>
    match freshMirror env file entry with
    | .ok mirror => .dict mirror
    | .error _ => .none

/-- The entry carries it, as far as Python's `==` can tell. -/
def upToDate (bundle : BundleDir) (entry : PyDict) : Bool :=
  match bundleMirror env bundle entry with
  | .none => !hasMirror entry
  | mirror => (PyDict.get entry "tool_intents").pyEq mirror

/-- The entry carries exactly the mirror of its bundle, or none where there is none. -/
def CarriesMirror (bundle : BundleDir) (entry : PyDict) : Prop :=
  match bundleMirror env bundle entry with
  | .none => hasMirror entry = false
  | mirror => SameJson (PyDict.get entry "tool_intents") mirror

/-- The entry with the mirror of its bundle. -/
def refreshed (bundle : BundleDir) (entry : PyDict) : PyDict :=
  if upToDate env bundle entry then entry
  else PyDict.set entry "tool_intents" (bundleMirror env bundle entry)

variable {env} {bundle : BundleDir} {entry : PyDict}

/-- `_refresh_mirror`, where it returns. -/
lemma refreshMirror_eq (h : ∀ file, bundle.intents = some file → ReadableVersion env file) :
    ∃ unresolved, refreshMirror env bundle entry =
      .ok (refreshed env bundle entry, !upToDate env bundle entry, unresolved) := by
  unfold refreshMirror refreshed upToDate bundleMirror dropMirror
  cases hintents : bundle.intents with
  | none => exact ⟨false, by cases hasMirror entry <;> rfl⟩
  | some file =>
    simp only
    cases hfresh : freshMirror env file entry with
    | ok mirror =>
      refine ⟨false, ?_⟩
      simp only
      cases (PyDict.get entry "tool_intents").pyEq (.dict mirror) <;> rfl
    | error error =>
      obtain ⟨message, target, rfl⟩ :=
        onlyInstallation_freshMirror_iff.mpr (h file hintents) _ hfresh
      refine ⟨true, ?_⟩
      simp only
      cases hasMirror entry <;> rfl

lemma refreshMirror_raises {file : IntentsFile} (hfile : bundle.intents = some file)
    (h : ¬ReadableVersion env file) : ∃ error, refreshMirror env bundle entry = .error error := by
  obtain ⟨error, herror⟩ := loadToolIntents_unreadable h
  have hfresh : freshMirror env file entry = .error (.python error) := by
    unfold freshMirror buildToolIntentMirror
    rw [herror]
    rfl
  unfold refreshMirror
  rw [hfile]
  simp only [hfresh]
  exact ⟨_, rfl⟩

end Mirrors

/-! ### One entry -/

/-- What becomes of an entry. -/
inductive EntryOutcome where
  | kept (unresolved : Bool)
  | removed
  | repaired (entry : PyDict) (unresolved : Bool)

/-- The names of a report and one more, under a condition. -/
def withName (condition : Bool) (names : List String) (name : String) : List String :=
  if condition then names ++ [name] else names

/-- The registry and the report after an entry. -/
def EntryOutcome.apply (name : String) (registry : Registry) (report : ReconcileReport) :
    EntryOutcome → Registry × ReconcileReport
  | .kept unresolved =>
    (registry, { report with unresolved := withName unresolved report.unresolved name })
  | .removed =>
    (OrderedDict.erase registry name, { report with removed := report.removed ++ [name] })
  | .repaired entry unresolved =>
    (OrderedDict.insert registry name entry, { report with
      repaired := report.repaired ++ [name]
      unresolved := withName unresolved report.unresolved name })

section Entries

variable (env : InstallerRuntime) (fs : String → BundleDir)

/-- `_reconcile_entry` without the registry. -/
def entryOutcome (name : String) (entry : PyDict) : Except Raised EntryOutcome := do
  let owned ← provenOwned env fs name entry
  if !owned then return .kept true
  let bundle ← customMcpDir env fs name
  if !bundle.present then return .removed
  let (entry', changed, unresolved) ← refreshMirror env bundle (marked entry)
  if !hasMarker entry || changed then
    let written ← registryEntryFromConfig env entry'
    assertMirrorConsistency env entry'
    return .repaired written unresolved
  return .kept unresolved

/-- The entry belongs to the installer, by its marker or by the receipt of its bundle, and its
bundle is there. -/
def Managed (name : String) (entry : PyDict) : Prop :=
  (hasMarker entry = true ∨ (fs name).hasReceipt = true) ∧ (fs name).present = true

/-- Nothing in the entry, its name or its bundle ends the reconciliation. -/
structure WellFormed (name : String) (entry : PyDict) : Prop where
  /-- The name is that of a directory of the bundles. -/
  dir : validMcpId name = true ∧ (fs name).below = true
  /-- `int` takes the version of the schema of the bundle. -/
  readable : Managed fs name entry → ∀ file, (fs name).intents = some file →
    ReadableVersion env file
  /-- `int` takes the version of the schema of an entry that is written. -/
  writable : Managed fs name entry →
    hasMarker entry = false ∨ upToDate env (fs name) entry = false →
      ∃ n, intField env entry "schema_version" 0 = .ok n
  /-- An entry that only gets its marker passes the check of the writer. -/
  consistent : Managed fs name entry → hasMarker entry = false →
    upToDate env (fs name) entry = true → assertMirrorConsistency env entry = .ok ()

variable {env fs} {core : List String} {name : String} {entry : PyDict}

lemma reconcileEntry_eq (hcore : name ∉ core) (registry : Registry) (report : ReconcileReport) :
    reconcileEntry env fs core name entry registry report =
      (entryOutcome env fs name entry).map (EntryOutcome.apply name registry report) := by
  have hcontains : core.contains name = false := by simpa using hcore
  have hremove :
      removeRegistryEntry core name registry = .ok (OrderedDict.erase registry name) := by
    unfold removeRegistryEntry
    rw [hcontains]
    rfl
  have hupsert (config : PyDict) : upsertRegistryEntry env core name config registry = (do
      let written ← registryEntryFromConfig env config
      assertMirrorConsistency env config
      return OrderedDict.insert registry name written) := by
    unfold upsertRegistryEntry
    rw [hcontains]
    rfl
  unfold reconcileEntry entryOutcome
  cases provenOwned env fs name entry with
  | error error => rfl
  | ok owned =>
    cases owned with
    | false => rfl
    | true =>
      simp only [bind_ok, Bool.not_true, Bool.false_eq_true, if_false]
      cases customMcpDir env fs name with
      | error error => rfl
      | ok bundle =>
        simp only [bind_ok]
        cases bundle.present with
        | false =>
          simp only [hremove, bind_ok]
          rfl
        | true =>
          simp only [Bool.not_true, Bool.false_eq_true, if_false]
          cases refreshMirror env bundle (marked entry) with
          | error error => rfl
          | ok refreshed =>
            obtain ⟨entry', changed, unresolved⟩ := refreshed
            simp only [bind_ok, hupsert]
            cases !hasMarker entry || changed with
            | false => cases unresolved <;> rfl
            | true =>
              simp only [if_true]
              cases registryEntryFromConfig env entry' with
              | error error => rfl
              | ok written =>
                simp only [bind_ok]
                cases assertMirrorConsistency env entry' with
                | error error => rfl
                | ok _ => cases unresolved <;> rfl

lemma customMcpDir_of_dir (h : validMcpId name = true ∧ (fs name).below = true) :
    customMcpDir env fs name = .ok (fs name) := by
  unfold customMcpDir
  rw [h.1, h.2]
  rfl

lemma provenOwned_of_dir (h : validMcpId name = true ∧ (fs name).below = true) :
    provenOwned env fs name entry =
      .ok (hasMarker entry || ((fs name).present && (fs name).hasReceipt)) := by
  unfold provenOwned isInstallerOwned
  rw [customMcpDir_of_dir h]
  cases hasMarker entry <;> rfl

/-- The name has to be that of a directory of the bundles. -/
lemma dir_of_entryOutcome {outcome : EntryOutcome}
    (h : entryOutcome env fs name entry = .ok outcome) :
    validMcpId name = true ∧ (fs name).below = true := by
  by_contra hdir
  have hraise : ∃ error, customMcpDir env fs name = .error error := by
    unfold customMcpDir
    rw [if_neg (by simpa using hdir)]
    exact ⟨_, rfl⟩
  obtain ⟨error, herror⟩ := hraise
  obtain ⟨owned, howned, h⟩ := ok_of_bind h
  cases hmark : hasMarker entry with
  | false =>
    unfold provenOwned isInstallerOwned at howned
    rw [hmark, herror] at howned
    exact nomatch howned
  | true =>
    unfold provenOwned at howned
    rw [hmark] at howned
    obtain rfl := Except.ok.inj howned
    obtain ⟨bundle, hbundle, -⟩ := ok_of_bind h
    exact nomatch herror.symm.trans hbundle

/-! ### What the writer keeps of an entry -/

/-- The entries have the same mirror and version. -/
structure SameMirror (env : InstallerRuntime) (entry entry' : PyDict) : Prop where
  mirror : PyDict.get entry' "tool_intents" = PyDict.get entry "tool_intents"
  version : strField env entry' "version" "" = strField env entry "version" ""

variable {entry' : PyDict} {bundle : BundleDir}

lemma SameMirror.bundleMirror_eq (h : SameMirror env entry entry') :
    bundleMirror env bundle entry' = bundleMirror env bundle entry := by
  unfold bundleMirror freshMirror
  rw [h.version]

lemma SameMirror.upToDate_eq (h : SameMirror env entry entry') :
    upToDate env bundle entry' = upToDate env bundle entry := by
  unfold upToDate hasMirror
  rw [h.bundleMirror_eq, h.mirror]

lemma SameMirror.carriesMirror_iff (h : SameMirror env entry entry') :
    CarriesMirror env bundle entry' ↔ CarriesMirror env bundle entry := by
  unfold CarriesMirror hasMirror
  rw [h.bundleMirror_eq, h.mirror]

lemma get_set_of_ne {d : PyDict} {key key' : String} {value : PyVal} (h : key' ≠ key) :
    PyDict.get (PyDict.set d key value) key' = PyDict.get d key' :=
  congrArg (Option.getD · PyVal.none) (OrderedDict.get?_insert_of_ne h)

lemma getOr_set_of_ne {d : PyDict} {key key' : String} {value default : PyVal} (h : key' ≠ key) :
    getOr (PyDict.set d key value) key' default = getOr d key' default :=
  congrArg (Option.getD · default) (OrderedDict.get?_insert_of_ne h)

lemma get_set_self' {d : PyDict} {key : String} {value : PyVal} :
    PyDict.get (PyDict.set d key value) key = value :=
  congrArg (Option.getD · PyVal.none) OrderedDict.get?_insert_self

lemma sameMirror_marked : SameMirror env entry (marked entry) := by
  unfold marked
  split_ifs
  · exact ⟨rfl, rfl⟩
  · refine ⟨get_set_of_ne (by decide), ?_⟩
    unfold strField
    rw [getOr_set_of_ne (by decide)]

lemma assertMirrorConsistency_marked :
    assertMirrorConsistency env (marked entry) = assertMirrorConsistency env entry := by
  have hsame := @sameMirror_marked env entry
  have hversion := hsame.version
  unfold strField at hversion
  unfold assertMirrorConsistency
  rw [hsame.mirror, hversion]

lemma intField_marked :
    intField env (marked entry) "schema_version" 0 = intField env entry "schema_version" 0 := by
  unfold marked intField
  split_ifs
  · rfl
  · rw [getOr_set_of_ne (by decide)]

lemma strOr_strField {d : PyDict} {key : String} :
    (PyVal.str (strField env d key "")).strOr env.toPyRuntime "" = strField env d key "" := by
  unfold PyVal.strOr PyVal.or
  split_ifs with htruthy
  · rfl
  · have hempty : strField env d key "" = "" := by simpa [PyVal.truthy] using htruthy
    rw [hempty]
    rfl

/-- The entry that is written has the marker, and the mirror and the version of the given one. -/
lemma written_of_registryEntryFromConfig {written : PyDict}
    (h : registryEntryFromConfig env entry = .ok written) :
    hasMarker written = true ∧ SameMirror env entry written := by
  unfold registryEntryFromConfig at h
  obtain ⟨n, -, h⟩ := ok_of_bind h
  obtain rfl := Except.ok.inj h
  refine ⟨?_, ?_, ?_⟩
  · simp [hasMarker, PyDict.get_cons, PyVal.pyEq]
  · simp [PyDict.get_cons]
  · refine Eq.trans ?_ (@strOr_strField _ _ "version")
    unfold strField
    simp [getOr, List.lookup_cons]

/-! ### What becomes of an entry -/

variable {outcome : EntryOutcome}

/-- An entry that is not proven to belong to the installer is left. -/
lemma entryOutcome_unproven (hdir : validMcpId name = true ∧ (fs name).below = true)
    (hmark : hasMarker entry = false)
    (hreceipt : ¬((fs name).present = true ∧ (fs name).hasReceipt = true)) :
    entryOutcome env fs name entry = .ok (.kept true) := by
  have howned : (hasMarker entry || ((fs name).present && (fs name).hasReceipt)) = false := by
    rw [hmark, Bool.false_or, ← Bool.not_eq_true, Bool.and_eq_true]
    exact hreceipt
  unfold entryOutcome
  rw [provenOwned_of_dir hdir, howned]
  rfl

/-- An entry with the marker whose bundle is gone is removed. -/
lemma entryOutcome_gone (hdir : validMcpId name = true ∧ (fs name).below = true)
    (hmark : hasMarker entry = true) (hpresent : (fs name).present = false) :
    entryOutcome env fs name entry = .ok .removed := by
  unfold entryOutcome
  rw [provenOwned_of_dir hdir, hmark, customMcpDir_of_dir hdir]
  simp only [Bool.true_or, bind_ok, Bool.not_true, Bool.false_eq_true, if_false, hpresent]
  rfl

/-- An entry with its bundle is refreshed, and written if its marker or its mirror is new. -/
lemma entryOutcome_managed (hdir : validMcpId name = true ∧ (fs name).below = true)
    (hmanaged : Managed fs name entry) :
    entryOutcome env fs name entry = (do
      let (entry', changed, unresolved) ← refreshMirror env (fs name) (marked entry)
      if !hasMarker entry || changed then
        let written ← registryEntryFromConfig env entry'
        assertMirrorConsistency env entry'
        return .repaired written unresolved
      return .kept unresolved) := by
  have howned : (hasMarker entry || ((fs name).present && (fs name).hasReceipt)) = true := by
    rw [hmanaged.2, Bool.true_and, Bool.or_eq_true]
    exact hmanaged.1
  conv_lhs => unfold entryOutcome
  rw [provenOwned_of_dir hdir, howned, bind_ok, customMcpDir_of_dir hdir]
  simp only [bind_ok, Bool.not_true, Bool.false_eq_true, if_false, hmanaged.2]

lemma intField_refreshed :
    intField env (refreshed env bundle entry) "schema_version" 0 =
      intField env entry "schema_version" 0 := by
  unfold refreshed intField
  split_ifs
  · rfl
  · rw [getOr_set_of_ne (by decide)]

lemma strField_refreshed :
    strField env (refreshed env bundle entry) "version" "" = strField env entry "version" "" := by
  unfold refreshed strField
  split_ifs
  · rfl
  · rw [getOr_set_of_ne (by decide)]

lemma bundleMirror_cases : bundleMirror env bundle entry = .none ∨
    ∃ file mirror, bundle.intents = some file ∧ freshMirror env file entry = .ok mirror ∧
      bundleMirror env bundle entry = .dict mirror := by
  unfold bundleMirror
  cases hintents : bundle.intents with
  | none => exact .inl rfl
  | some file =>
    simp only
    cases hfresh : freshMirror env file entry with
    | error error => exact .inl rfl
    | ok mirror => exact .inr ⟨file, mirror, rfl, hfresh, rfl⟩

/-- A new mirror passes the check of the writer. -/
lemma assertMirrorConsistency_refreshed (h : upToDate env bundle entry = false) :
    assertMirrorConsistency env (refreshed env bundle entry) = .ok () := by
  have hversion := @strField_refreshed env entry bundle
  unfold refreshed at hversion ⊢
  rw [h] at hversion ⊢
  simp only [Bool.false_eq_true, if_false] at hversion ⊢
  rcases @bundleMirror_cases env entry bundle with
    hnone | ⟨file, mirror, -, hfresh, hmirror⟩
  · unfold assertMirrorConsistency
    rw [get_set_self', hnone]
  · refine built_accepted hfresh ?_ ?_
    · rw [get_set_self', hmirror]
    · exact congrArg strip hversion

/-- The mirror that is written is the one of the bundle. -/
lemma carriesMirror_refreshed (h : upToDate env bundle entry = false) :
    CarriesMirror env bundle (refreshed env bundle entry) := by
  have hfresh : bundleMirror env bundle (refreshed env bundle entry) =
      bundleMirror env bundle entry := by
    unfold bundleMirror freshMirror
    rw [strField_refreshed]
  have hget : PyDict.get (refreshed env bundle entry) "tool_intents" =
      bundleMirror env bundle entry := by
    unfold refreshed
    rw [h]
    exact get_set_self'
  unfold CarriesMirror hasMirror
  rw [hfresh, hget]
  rcases @bundleMirror_cases env entry bundle with
    hnone | ⟨file, mirror, -, -, hmirror⟩
  · rw [hnone]
    rfl
  · rw [hmirror]
    rfl

lemma fromJson_freshMirror {file : IntentsFile} {mirror : PyDict}
    (h : freshMirror env file entry = .ok mirror) : (PyVal.dict mirror).FromJson := by
  obtain ⟨loaded, sha256, tools, hbuilt, rfl⟩ := built_of_buildToolIntentMirror h
  refine ⟨by simp [OrderedDict.keys, headerOf], trivial, trivial, trivial, ?_, trivial⟩
  refine fromJson_list.mpr fun x hx => ?_
  obtain ⟨tool, htool, rfl⟩ := List.mem_map.mp hx
  exact hbuilt.fromJson tool htool

/-- A refreshed entry is up to date. -/
lemma upToDate_refreshed : upToDate env bundle (refreshed env bundle entry) = true := by
  cases hfresh : upToDate env bundle entry with
  | true =>
    unfold refreshed
    rw [hfresh]
    exact hfresh
  | false =>
    have hmirror : bundleMirror env bundle (refreshed env bundle entry) =
        bundleMirror env bundle entry := by
      unfold bundleMirror freshMirror
      rw [strField_refreshed]
    have hget : PyDict.get (refreshed env bundle entry) "tool_intents" =
        bundleMirror env bundle entry := by
      unfold refreshed
      rw [hfresh]
      exact get_set_self'
    unfold upToDate hasMirror
    rw [hmirror, hget]
    rcases @bundleMirror_cases env entry bundle with
      hnone | ⟨file, mirror, -, hbuilt, hdict⟩
    · rw [hnone]
      rfl
    · rw [hdict]
      exact pyEq_self (fromJson_freshMirror hbuilt)

/-! ### Entries that are settled -/

/-- The entry that is left in the registry, if one is. -/
def EntryOutcome.left (entry : PyDict) : EntryOutcome → Option PyDict
  | .kept _ => some entry
  | .removed => none
  | .repaired written _ => some written

/-- The entry belongs to the installer. -/
def Owned (fs : String → BundleDir) (name : String) (entry : PyDict) : Prop :=
  hasMarker entry = true ∨ (fs name).present = true ∧ (fs name).hasReceipt = true

/-- If the entry belongs to the installer, its bundle is there and it carries exactly the mirror
of the bundle. -/
def Mirrored (env : InstallerRuntime) (fs : String → BundleDir) (name : String)
    (entry : PyDict) : Prop :=
  Owned fs name entry → (fs name).present = true ∧ CarriesMirror env (fs name) entry

/-- A mirror that Python takes for the one of the bundle is the same JSON. -/
def Distinguished (env : InstallerRuntime) (fs : String → BundleDir) (name : String)
    (entry : PyDict) : Prop :=
  Managed fs name entry → upToDate env (fs name) entry = true → CarriesMirror env (fs name) entry

/-- What a managed entry comes to. -/
lemma managed_outcome (h : WellFormed env fs name entry) (hmanaged : Managed fs name entry) :
    (hasMarker entry = true ∧ upToDate env (fs name) entry = true ∧
        ∃ unresolved, entryOutcome env fs name entry = .ok (.kept unresolved)) ∨
      ∃ written unresolved, entryOutcome env fs name entry = .ok (.repaired written unresolved) ∧
        hasMarker written = true ∧
          SameMirror env (refreshed env (fs name) (marked entry)) written := by
  have hsame := @sameMirror_marked env entry
  obtain ⟨unresolved, hrefresh⟩ := @refreshMirror_eq env _ (marked entry)
    (h.readable hmanaged)
  rw [entryOutcome_managed h.dir hmanaged, hrefresh, bind_ok]
  simp only [hsame.upToDate_eq]
  by_cases hwrite : (!hasMarker entry || !upToDate env (fs name) entry) = true
  · rw [if_pos hwrite]
    have hstale : hasMarker entry = false ∨ upToDate env (fs name) entry = false := by
      simpa using hwrite
    obtain ⟨n, hn⟩ := h.writable hmanaged hstale
    rw [← intField_marked, ← @intField_refreshed _ _ (fs name)] at hn
    obtain ⟨written, hwritten⟩ : ∃ written, registryEntryFromConfig env
        (refreshed env (fs name) (marked entry)) = .ok written := by
      unfold registryEntryFromConfig
      rw [lift_eq_ok.mpr hn]
      exact ⟨_, rfl⟩
    have hcheck :
        assertMirrorConsistency env (refreshed env (fs name) (marked entry)) = .ok () := by
      cases hfresh : upToDate env (fs name) entry with
      | false => exact assertMirrorConsistency_refreshed (hsame.upToDate_eq.trans hfresh)
      | true =>
        have hmark : hasMarker entry = false := by simpa [hfresh] using hstale
        unfold refreshed
        rw [hsame.upToDate_eq, hfresh, if_pos rfl, assertMirrorConsistency_marked]
        exact h.consistent hmanaged hmark hfresh
    rw [hwritten, bind_ok, hcheck, bind_ok]
    obtain ⟨hmarker, hmirror⟩ := written_of_registryEntryFromConfig hwritten
    exact .inr ⟨written, unresolved, rfl, hmarker, hmirror⟩
  · rw [if_neg hwrite]
    obtain ⟨hmark, hfresh⟩ : hasMarker entry = true ∧ upToDate env (fs name) entry = true := by
      simpa using hwrite
    exact .inl ⟨hmark, hfresh, unresolved, rfl⟩

/-- An entry with its marker and its mirror is left alone. -/
lemma kept_of_upToDate (hdir : validMcpId name = true ∧ (fs name).below = true)
    (hreadable : ∀ file, (fs name).intents = some file → ReadableVersion env file)
    (hpresent : (fs name).present = true) (hmark : hasMarker entry = true)
    (hfresh : upToDate env (fs name) entry = true) :
    ∃ unresolved, entryOutcome env fs name entry = .ok (.kept unresolved) := by
  obtain ⟨unresolved, hrefresh⟩ := @refreshMirror_eq env _ (marked entry) hreadable
  rw [entryOutcome_managed hdir ⟨.inl hmark, hpresent⟩, hrefresh, bind_ok]
  simp only [sameMirror_marked.upToDate_eq, hmark, hfresh]
  exact ⟨unresolved, rfl⟩

lemma managed_or (name : String) (entry : PyDict) : Managed fs name entry ∨
    (hasMarker entry = true ∧ (fs name).present = false) ∨ (hasMarker entry = false ∧
      ¬((fs name).present = true ∧ (fs name).hasReceipt = true)) := by
  unfold Managed
  cases hasMarker entry <;> cases (fs name).present <;> cases (fs name).hasReceipt <;> simp

/-- A well-formed entry does not end the reconciliation. -/
lemma outcome_of_wellFormed (h : WellFormed env fs name entry) :
    ∃ outcome, entryOutcome env fs name entry = .ok outcome := by
  rcases @managed_or fs name entry with hmanaged | ⟨hmark, hgone⟩ | ⟨hmark, hreceipt⟩
  · rcases managed_outcome h hmanaged with ⟨-, -, unresolved, hkept⟩ |
      ⟨written, unresolved, hwritten, -, -⟩
    · exact ⟨_, hkept⟩
    · exact ⟨_, hwritten⟩
  · exact ⟨_, entryOutcome_gone h.dir hmark hgone⟩
  · exact ⟨_, entryOutcome_unproven h.dir hmark hreceipt⟩

/-- And any other entry does. -/
lemma wellFormed_of_outcome (h : entryOutcome env fs name entry = .ok outcome) :
    WellFormed env fs name entry := by
  have hdir := dir_of_entryOutcome h
  have hreadable : Managed fs name entry → ∀ file, (fs name).intents = some file →
      ReadableVersion env file := by
    intro hmanaged file hfile
    by_contra hunreadable
    obtain ⟨error, herror⟩ := @refreshMirror_raises _ _ (marked entry) _ hfile hunreadable
    rw [entryOutcome_managed hdir hmanaged, herror] at h
    exact nomatch h
  have hwritten : Managed fs name entry →
      hasMarker entry = false ∨ upToDate env (fs name) entry = false →
        (∃ written, registryEntryFromConfig env (refreshed env (fs name) (marked entry)) =
          .ok written) ∧
          assertMirrorConsistency env (refreshed env (fs name) (marked entry)) = .ok () := by
    intro hmanaged hstale
    obtain ⟨unresolved, hrefresh⟩ := @refreshMirror_eq env _ (marked entry)
      (hreadable hmanaged)
    rw [entryOutcome_managed hdir hmanaged, hrefresh, bind_ok] at h
    simp only [sameMirror_marked.upToDate_eq] at h
    rw [if_pos (by simpa using hstale)] at h
    obtain ⟨written, hwritten, h⟩ := ok_of_bind h
    obtain ⟨_, hcheck, -⟩ := ok_of_bind h
    exact ⟨⟨written, hwritten⟩, hcheck⟩
  refine ⟨hdir, hreadable, fun hmanaged hstale => ?_, fun hmanaged hmark hfresh => ?_⟩
  · obtain ⟨written, hentry⟩ := (hwritten hmanaged hstale).1
    obtain ⟨n, hn, -⟩ := ok_of_bind hentry
    rw [lift_eq_ok, intField_refreshed, intField_marked] at hn
    exact ⟨n, hn⟩
  · have hcheck := (hwritten hmanaged (.inl hmark)).2
    unfold refreshed at hcheck
    rwa [sameMirror_marked.upToDate_eq, hfresh, if_pos rfl,
      assertMirrorConsistency_marked] at hcheck

/-- What is left of a well-formed entry is left alone the next time, and is mirrored just where
Python can tell its mirror from the one of the bundle. -/
lemma left_of_wellFormed (h : WellFormed env fs name entry)
    (houtcome : entryOutcome env fs name entry = .ok outcome)
    (hleft : outcome.left entry = some entry') :
    (∃ unresolved, entryOutcome env fs name entry' = .ok (.kept unresolved)) ∧
      (Mirrored env fs name entry' ↔ Distinguished env fs name entry) := by
  rcases @managed_or fs name entry with hmanaged | ⟨hmark, hgone⟩ | ⟨hmark, hreceipt⟩
  · rcases managed_outcome h hmanaged with ⟨hmark, hfresh, unresolved, hkept⟩ |
      ⟨written, unresolved, hrepaired, hmark, hsame⟩
    · obtain rfl := Except.ok.inj (houtcome.symm.trans hkept)
      obtain rfl := Option.some.inj hleft
      refine ⟨⟨unresolved, hkept⟩, fun hmirrored _ _ => (hmirrored (.inl hmark)).2, ?_⟩
      exact fun hdistinct _ => ⟨hmanaged.2, hdistinct hmanaged hfresh⟩
    · obtain rfl := Except.ok.inj (houtcome.symm.trans hrepaired)
      obtain rfl := Option.some.inj hleft
      have hiff : CarriesMirror env (fs name) written ↔ Distinguished env fs name entry := by
        rw [hsame.carriesMirror_iff]
        cases hfresh : upToDate env (fs name) entry with
        | false =>
          refine iff_of_true ?_ fun _ hstale => absurd (hfresh.symm.trans hstale) Bool.false_ne_true
          exact carriesMirror_refreshed (sameMirror_marked.upToDate_eq.trans hfresh)
        | true =>
          unfold refreshed
          rw [sameMirror_marked.upToDate_eq, hfresh, if_pos rfl,
            sameMirror_marked.carriesMirror_iff]
          exact ⟨fun hcarry _ _ => hcarry, fun hdistinct => hdistinct hmanaged hfresh⟩
      refine ⟨kept_of_upToDate h.dir (h.readable hmanaged) hmanaged.2 hmark
        (hsame.upToDate_eq.trans upToDate_refreshed), ?_, ?_⟩
      · exact fun hmirrored => hiff.mp (hmirrored (.inl hmark)).2
      · exact fun hdistinct _ => ⟨hmanaged.2, hiff.mpr hdistinct⟩
  · obtain rfl := Except.ok.inj (houtcome.symm.trans (entryOutcome_gone h.dir hmark hgone))
    exact nomatch hleft
  · have hkept := @entryOutcome_unproven env _ _ _ h.dir hmark hreceipt
    obtain rfl := Except.ok.inj (houtcome.symm.trans hkept)
    obtain rfl := Option.some.inj hleft
    refine ⟨⟨true, hkept⟩, iff_of_true (fun howned => ?_) fun hmanaged _ => ?_⟩
    · rcases howned with hmark' | hreceipt'
      · exact absurd (hmark.symm.trans hmark') Bool.false_ne_true
      · exact absurd hreceipt' hreceipt
    · rcases hmanaged.1 with hmark' | hreceipt'
      · exact absurd (hmark.symm.trans hmark') Bool.false_ne_true
      · exact absurd ⟨hmanaged.2, hreceipt'⟩ hreceipt

end Entries

/-! ### The registry -/

section Runs

variable {env : InstallerRuntime} {fs : String → BundleDir} {core : List String}
  {entries registry : Registry}

/-- What is left of an entry of the registry. -/
def leftOf (env : InstallerRuntime) (fs : String → BundleDir) (e : String × PyDict) :
    Option (String × PyDict) :=
  match entryOutcome env fs e.1 e.2 with
  | .ok outcome => (outcome.left e.2).map fun entry => (e.1, entry)
  | .error _ => none

lemma insert_middle {done rest : Registry} {name : String} {entry written : PyDict}
    (hdone : name ∉ OrderedDict.keys done) (hrest : name ∉ OrderedDict.keys rest) :
    OrderedDict.insert (done ++ (name, entry) :: rest) name written =
      done ++ (name, written) :: rest := by
  have hsame : ∀ es : Registry, name ∉ OrderedDict.keys es →
      (es.map fun e => if e.1 == name then (name, written) else e) = es := by
    intro es hes
    refine (List.map_congr_left fun e he => ?_).trans (List.map_id es)
    refine if_neg fun hkey => hes ?_
    rw [← beq_iff_eq.mp hkey]
    exact List.mem_map_of_mem he
  have hhas : OrderedDict.has (done ++ (name, entry) :: rest) name = true := by
    simp [OrderedDict.has]
  rw [OrderedDict.insert, if_pos hhas, List.map_append, List.map_cons, hsame done hdone,
    hsame rest hrest]
  simp

lemma erase_middle {done rest : Registry} {name : String} {entry : PyDict}
    (hdone : name ∉ OrderedDict.keys done) (hrest : name ∉ OrderedDict.keys rest) :
    OrderedDict.erase (done ++ (name, entry) :: rest) name = done ++ rest := by
  have hsame : ∀ es : Registry, name ∉ OrderedDict.keys es →
      (es.filter fun e => !(e.1 == name)) = es := by
    intro es hes
    refine List.filter_eq_self.mpr fun e he => ?_
    rw [Bool.not_eq_true', beq_eq_false_iff_ne]
    rintro rfl
    exact hes (List.mem_map_of_mem he)
  rw [OrderedDict.erase, List.filter_append, List.filter_cons_of_neg (by simp), hsame done hdone,
    hsame rest hrest]

/-- What an outcome does to the registry. -/
lemma apply_middle {done rest : Registry} {name : String} {entry : PyDict}
    (hdone : name ∉ OrderedDict.keys done) (hrest : name ∉ OrderedDict.keys rest)
    (outcome : EntryOutcome) (report : ReconcileReport) :
    (outcome.apply name (done ++ (name, entry) :: rest) report).1 =
      done ++ ((outcome.left entry).map fun e => (name, e)).toList ++ rest := by
  cases outcome with
  | kept unresolved => simp [EntryOutcome.apply, EntryOutcome.left]
  | removed => simp [EntryOutcome.apply, EntryOutcome.left, erase_middle hdone hrest]
  | repaired written unresolved =>
    simp [EntryOutcome.apply, EntryOutcome.left, insert_middle hdone hrest]

lemma reconcileEntries_cons {name : String} {entry : PyDict} {outcome : EntryOutcome}
    (hname : name ∉ core) (houtcome : entryOutcome env fs name entry = .ok outcome)
    (report : ReconcileReport) :
    reconcileEntries env fs core ((name, entry) :: entries) registry report =
      reconcileEntries env fs core entries (outcome.apply name registry report).1
        (outcome.apply name registry report).2 := by
  rw [reconcileEntries, if_neg (by simpa using hname), reconcileEntry_eq hname, houtcome]
  rfl

/-- The loop over well-formed entries goes through, and leaves what is left of each. -/
lemma reconcileEntries_ok {done : Registry}
    (hnodup : (OrderedDict.keys (done ++ entries)).Nodup)
    (hcore : ∀ e ∈ entries, e.1 ∉ core) (h : ∀ e ∈ entries, WellFormed env fs e.1 e.2)
    (report : ReconcileReport) :
    ∃ report', reconcileEntries env fs core entries (done ++ entries) report =
      .ok (done ++ entries.filterMap (leftOf env fs), report') := by
  induction entries generalizing done report with
  | nil => exact ⟨report, rfl⟩
  | cons e entries ih =>
    obtain ⟨name, entry⟩ := e
    obtain ⟨hname, hcore⟩ := List.forall_mem_cons.mp hcore
    obtain ⟨hentry, hrest⟩ := List.forall_mem_cons.mp h
    obtain ⟨outcome, houtcome⟩ := outcome_of_wellFormed hentry
    have hkeys : OrderedDict.keys (done ++ (name, entry) :: entries) =
        OrderedDict.keys done ++ name :: OrderedDict.keys entries := by
      simp [OrderedDict.keys]
    rw [hkeys] at hnodup
    obtain ⟨hdone, htail, hdisjoint⟩ := List.nodup_append.mp hnodup
    obtain ⟨hnotin, hentries⟩ := List.nodup_cons.mp htail
    have hnotdone : name ∉ OrderedDict.keys done :=
      fun hmem => hdisjoint name hmem name List.mem_cons_self rfl
    -- the loop goes on behind what is left of the entry
    have hnext : (OrderedDict.keys
        (done ++ ((outcome.left entry).map fun e => (name, e)).toList ++ entries)).Nodup := by
      have hname' : (OrderedDict.keys
          ((outcome.left entry).map fun e => (name, e)).toList).Sublist [name] := by
        cases outcome.left entry <;> simp [OrderedDict.keys]
      rw [OrderedDict.keys, List.map_append, List.map_append, List.append_assoc]
      exact hnodup.sublist ((List.Sublist.refl _).append (hname'.append (List.Sublist.refl _)))
    obtain ⟨report', hrun⟩ := ih hnext hcore hrest (outcome.apply name
      (done ++ (name, entry) :: entries) report).2
    refine ⟨report', ?_⟩
    rw [reconcileEntries_cons hname houtcome, apply_middle hnotdone hnotin, hrun]
    have hleft : leftOf env fs (name, entry) = (outcome.left entry).map fun e => (name, e) := by
      unfold leftOf
      rw [houtcome]
    rw [List.filterMap_cons, hleft, List.append_assoc]
    cases outcome.left entry <;> rfl

/-- The loop ends with an exception at an entry that is not well-formed. -/
lemma reconcileEntries_raises (hcore : ∀ e ∈ entries, e.1 ∉ core) {e : String × PyDict}
    (he : e ∈ entries) (h : ¬WellFormed env fs e.1 e.2) (registry : Registry)
    (report : ReconcileReport) :
    ∃ error, reconcileEntries env fs core entries registry report = .error error := by
  induction entries generalizing registry report with
  | nil => exact absurd he List.not_mem_nil
  | cons first entries ih =>
    obtain ⟨name, entry⟩ := first
    obtain ⟨hname, hcore⟩ := List.forall_mem_cons.mp hcore
    cases houtcome : entryOutcome env fs name entry with
    | error error =>
      refine ⟨error, ?_⟩
      rw [reconcileEntries, if_neg (by simpa using hname), reconcileEntry_eq hname, houtcome]
      rfl
    | ok outcome =>
      rw [reconcileEntries_cons hname houtcome]
      rcases List.mem_cons.mp he with rfl | he
      · exact absurd (wellFormed_of_outcome houtcome) h
      · exact ih hcore he _ _

/-- The loop over entries that are left alone changes nothing. -/
lemma reconcileEntries_kept (hcore : ∀ e ∈ entries, e.1 ∉ core)
    (h : ∀ e ∈ entries, ∃ unresolved, entryOutcome env fs e.1 e.2 = .ok (.kept unresolved))
    (report : ReconcileReport) :
    ∃ unresolved, reconcileEntries env fs core entries registry report =
      .ok (registry, { report with unresolved := unresolved }) := by
  induction entries generalizing report with
  | nil => exact ⟨report.unresolved, rfl⟩
  | cons e entries ih =>
    obtain ⟨name, entry⟩ := e
    obtain ⟨hname, hcore⟩ := List.forall_mem_cons.mp hcore
    obtain ⟨⟨unresolved, hkept⟩, hrest⟩ := List.forall_mem_cons.mp h
    rw [reconcileEntries_cons hname hkept]
    exact ih hcore hrest _

/-- The core entries are passed over. -/
lemma reconcileEntries_core {coreEntries : Registry} (hcore : ∀ e ∈ coreEntries, e.1 ∈ core)
    (report : ReconcileReport) :
    reconcileEntries env fs core (coreEntries ++ entries) registry report =
      reconcileEntries env fs core entries registry report := by
  induction coreEntries with
  | nil => rfl
  | cons e coreEntries ih =>
    obtain ⟨hname, hrest⟩ := List.forall_mem_cons.mp hcore
    obtain ⟨name, entry⟩ := e
    rw [List.cons_append, reconcileEntries, if_pos (by simpa using hname)]
    exact ih hrest

lemma reconcileToolManifestMirrors_eq {coreEntries : Registry}
    (hblank : ∀ e ∈ registry, strip e.1 ≠ "")
    (hcore : ∀ e ∈ registry, e.1 ∉ OrderedDict.keys coreEntries) :
    reconcileToolManifestMirrors env fs coreEntries registry =
      reconcileEntries env fs (OrderedDict.keys coreEntries) registry registry ⟨[], [], []⟩ := by
  have hloads : loadsRegistry (OrderedDict.keys coreEntries) registry = true :=
    List.all_eq_true.mpr fun e he => by simpa using ⟨hblank e he, hcore e he⟩
  rw [reconcileToolManifestMirrors, hloads]
  exact reconcileEntries_core (fun _ he => List.mem_map_of_mem he) _

/-- A registry with a blank name is not read. -/
lemma blank_of_reconcileToolManifestMirrors {coreEntries : Registry}
    {result : Registry × ReconcileReport}
    (h : reconcileToolManifestMirrors env fs coreEntries registry = .ok result) :
    ∀ e ∈ registry, strip e.1 ≠ "" := by
  intro e he hblank
  have hrefused : loadsRegistry (OrderedDict.keys coreEntries) registry = false :=
    List.all_eq_false.mpr ⟨e, he, by simp [hblank]⟩
  rw [reconcileToolManifestMirrors, hrefused] at h
  exact nomatch h

end Runs

/-- Reconciling repairs the registry: it returns, a second run changes nothing, and every entry
that belongs to the installer has its bundle and carries exactly the mirror of it. -/
def Reconciles (env : InstallerRuntime) (fs : String → BundleDir) (coreEntries : Registry)
    (registry : Registry) : Prop :=
  ∃ registry' report unresolved,
    reconcileToolManifestMirrors env fs coreEntries registry = .ok (registry', report) ∧
      reconcileToolManifestMirrors env fs coreEntries registry' =
        .ok (registry', ⟨[], [], unresolved⟩) ∧
      ∀ e ∈ registry', Mirrored env fs e.1 e.2

section Reconciles

variable {env : InstallerRuntime} {fs : String → BundleDir} {coreEntries registry : Registry}

lemma mem_leftOf {e e' : String × PyDict} (h : leftOf env fs e = some e') :
    ∃ outcome, entryOutcome env fs e.1 e.2 = .ok outcome ∧ e'.1 = e.1 ∧
      outcome.left e.2 = some e'.2 := by
  unfold leftOf at h
  split at h
  · rename_i outcome houtcome
    obtain ⟨entry, hleft, rfl⟩ := Option.map_eq_some_iff.mp h
    exact ⟨outcome, houtcome, rfl, hleft⟩
  · exact nomatch h

end Reconciles

/-! ### A bundle whose schema version is no number -/

/-- The built-ins on ASCII text. -/
def reconcileRuntime : InstallerRuntime where
  toPyRuntime := .ascii
  printable := fun _ => true
  sha256 := fun text => text

/-- The bundle `alpha` names the schema version `"two"`, and no other bundle is there. -/
def reconcileBundles (name : String) : BundleDir where
  below := true
  present := name == "alpha"
  hasReceipt := name == "alpha"
  intents := some ⟨"tool_intents.json", some (.dict [("schema_version", .str "two")])⟩

/-- An entry of the installer. -/
def installerEntry : PyDict := [("managed_by", .str "trion_installer")]

end Trion.Mcp
