import Trion.Blueprints.Store

/-!
# Rows that are read back

The row that `_normalize` makes of a definition is read as the blueprint that the definition
describes, where the network is given as a text and the values of any type come back from JSON
as they were.
-/

namespace Trion.Blueprints

open Trion.Python Codec

variable {rt : PyRuntime} {d : Definition}

/-! ### Values that come back -/

/-- The value comes back from JSON as it was, if it can be written. -/
def Stable (v : PyVal) : Prop := ∀ copy, v.jsonCopy = some copy → copy = v

lemma stable_of_isJson {v : PyVal} (h : v.isJson = true) : Stable v := fun _ hcopy =>
  (Option.some.inj ((jsonCopy_of_isJson h).symm.trans hcopy)).symm

lemma stable_list {xs : List PyVal} (h : ∀ x ∈ xs, Stable x) : Stable (.list xs) := by
  have hitems : ∀ ys, PyVal.jsonCopyItems xs = some ys → ys = xs := by
    induction xs with
    | nil =>
      intro ys hys
      exact (Option.some.inj hys).symm
    | cons x xs ih =>
      intro ys hys
      obtain ⟨y, hy, hys⟩ := Option.bind_eq_some_iff.mp hys
      obtain ⟨rest, hrest, hys⟩ := Option.bind_eq_some_iff.mp hys
      rw [← Option.some.inj hys, h x List.mem_cons_self y hy,
        ih (fun z hz => h z (List.mem_cons_of_mem x hz)) rest hrest]
  intro copy hcopy
  obtain ⟨ys, hys, rfl⟩ := Option.map_eq_some_iff.mp hcopy
  rw [hitems ys hys]

lemma stable_dict {entries : PyDict} (h : ∀ e ∈ entries, Stable e.2) : Stable (.dict entries) := by
  have hrows : ∀ rows, PyVal.jsonCopyEntries entries = some rows → rows = entries := by
    induction entries with
    | nil =>
      intro rows hrows
      exact (Option.some.inj hrows).symm
    | cons e entries ih =>
      intro rows hrows
      obtain ⟨w, hw, hrows⟩ := Option.bind_eq_some_iff.mp hrows
      obtain ⟨rest, hrest, hrows⟩ := Option.bind_eq_some_iff.mp hrows
      rw [← Option.some.inj hrows, h e List.mem_cons_self w hw,
        ih (fun z hz => h z (List.mem_cons_of_mem e hz)) rest hrest]
  intro copy hcopy
  obtain ⟨rows, hrest, rfl⟩ := Option.map_eq_some_iff.mp hcopy
  rw [hrows rows hrest]

/-- A column holds the value that was written, if it comes back. -/
lemma eq_of_jsonText {value : Option PyVal} {default column : PyVal}
    (h : jsonText value default = .ok column) (hstable : Stable (value.getD default)) :
    column = value.getD default := by
  unfold jsonText at h
  split at h
  · rename_i copy hcopy
    rw [← Except.ok.inj h]
    exact hstable copy hcopy
  · simp at h

lemma isJson_textList (items : List String) : (textList items).isJson = true := by
  simp [textList, PyVal.isJson]

lemma isJson_textDict (entries : List (String × String)) : (textDict entries).isJson = true := by
  unfold textDict PyVal.isJson
  refine isJsonEntries_iff.mpr fun e he => ?_
  obtain ⟨entry, -, rfl⟩ := List.mem_map.mp he
  rfl

/-- What is written for a field comes back, if its value or the default does. -/
lemma stable_getD {α : Type} {dump : α → PyVal} {field : Option α} {default : PyVal}
    (h : ∀ x ∈ field, Stable (dump x)) (hdefault : default.isJson = true) :
    Stable ((field.map dump).getD default) := by
  cases field with
  | none => exact stable_of_isJson hdefault
  | some x => exact h x rfl

/-- A list of dumps comes back. -/
lemma stable_dumps {α : Type} {dump : α → PyVal} {items : Option (List α)}
    (h : ∀ xs ∈ items, ∀ x ∈ xs, Stable (dump x)) :
    Stable ((items.map fun xs => PyVal.list (xs.map dump)).getD (.list [])) := by
  refine stable_getD (fun xs hxs => stable_list fun v hv => ?_) rfl
  obtain ⟨x, hx, rfl⟩ := List.mem_map.mp hv
  exact h xs hxs x hx

lemma stable_texts (items : Option (List String)) :
    Stable ((items.map textList).getD (.list [])) :=
  stable_getD (fun xs _ => stable_of_isJson (isJson_textList xs)) rfl

/-! ### Definitions that come back -/

/-- The values of any type come back from JSON, and the network is given as a text. -/
structure Definition.ComesBack (d : Definition) : Prop where
  network : ∀ value ∈ d.network, ∃ mode, value = .text mode
  healthcheck : ∀ entries ∈ d.healthcheck, Stable (.dict entries)
  hardwareIntents : ∀ intents ∈ d.hardwareIntents, ∀ i ∈ intents, Stable (.dict i.policy)

/-- The row for a definition. -/
def rowOf (d : Definition) (id name createdAt updatedAt : String) : Row where
  id := id
  name := name
  description := d.description.getD ""
  extendsId := d.extendsId.join
  dockerfile := d.dockerfile.getD ""
  image := d.image.join
  imageDigest := d.imageDigest.join
  systemPrompt := d.systemPrompt.getD ""
  resourcesJson := (d.resources.map (·.dump)).getD (.dict [])
  secretsJson := (d.secretsRequired.map fun secrets => .list (secrets.map (·.dump))).getD (.list [])
  mountsJson := (d.mounts.map fun mounts => .list (mounts.map (·.dump))).getD (.list [])
  storageScope := d.storageScope.getD ""
  portsJson := (d.ports.map textList).getD (.list [])
  runtime := d.runtime.getD ""
  devicesJson := (d.devices.map textList).getD (.list [])
  hardwareIntentsJson :=
    (d.hardwareIntents.map fun intents => .list (intents.map (·.dump))).getD (.list [])
  environmentJson := (d.environment.map textDict).getD (.dict [])
  healthcheckJson := (d.healthcheck.map .dict).getD (.dict [])
  preStartExecJson := (d.preStartExec.join.map (·.dump)).getD (.dict [])
  capAddJson := (d.capAdd.map textList).getD (.list [])
  securityOptJson := (d.securityOpt.map textList).getD (.list [])
  capDropJson := (d.capDrop.map textList).getD (.list [])
  privileged := if d.privileged.getD false then 1 else 0
  readOnlyRootfs := if d.readOnlyRootfs.getD false then 1 else 0
  shmSize := d.shmSize.getD ""
  ipcMode := d.ipcMode.getD ""
  network := (d.network.map (·.toStr)).getD "internal"
  tagsJson := (d.tags.map textList).getD (.list [])
  execPolicyJson := (d.allowedExec.map textList).getD (.list [])
  icon := orElse (d.icon.getD "") "📦"
  createdAt := createdAt
  updatedAt := updatedAt

/-- The definition that `_normalize` makes the row of. -/
def mergedDefinition (data : Definition) (existing : Option BlueprintDetail) : Definition :=
  ((existing.map fun e : BlueprintDetail => e.definition.modelDump).getD {}).update data

/-- The id that `_normalize` takes. -/
def normalizedId (data : Definition) (existing : Option BlueprintDetail) : String :=
  strip (orElse (data.id.getD "") (orElse ((existing.map (·.blueprintId)).getD "")
    ((mergedDefinition data existing).id.getD "")))

/-- The name that `_normalize` takes. -/
def normalizedName (data : Definition) (existing : Option BlueprintDetail) : String :=
  strip (orElse (data.name.getD "") (orElse ((existing.map (·.name)).getD "")
    ((mergedDefinition data existing).name.getD "")))

/-- The values of a definition that comes back, as they are written. -/
lemma Definition.ComesBack.stable_intents (h : d.ComesBack) : Stable
    ((d.hardwareIntents.map fun intents => PyVal.list (intents.map (·.dump))).getD (.list [])) := by
  refine stable_dumps fun intents hintents i hi => stable_dict fun e he => ?_
  have hpolicy := h.hardwareIntents intents hintents i hi
  simp only [List.mem_cons, List.not_mem_nil, or_false] at he
  rcases he with rfl | rfl | rfl | rfl | rfl | rfl
  case inr.inr.inr.inr.inl => exact hpolicy
  all_goals exact stable_of_isJson rfl

lemma isJson_optionalText (text : Option String) : (optionalText text).isJson = true := by
  cases text <;> rfl

lemma MountDef.isJson_dump (m : MountDef) : m.dump.isJson = true := by
  simp [MountDef.dump, PyVal.isJson, isJson_optionalText]

/-- The id of the row that `_normalize` makes. -/
lemma normalize_id {data : Definition} {existing : Option BlueprintDetail} {now : String}
    {row : Row} (h : normalize data existing now = .ok row) :
    row.id = normalizedId data existing ∧ row.isDeleted = false := by
  unfold normalize at h
  dsimp only at h
  split at h
  · simp [throw, throwThe, MonadExceptOf.throw, bind, Except.bind] at h
  · iterate 14 obtain ⟨_, -, h⟩ := ok_of_bind h
    exact Except.ok.inj h ▸ ⟨rfl, rfl⟩

/-- `_normalize` makes the row of the updated definition. -/
lemma normalize_ok {data : Definition} {existing : Option BlueprintDetail} {now : String} {row : Row}
    (h : normalize data existing now = .ok row) (hback : (mergedDefinition data existing).ComesBack) :
    normalizedId data existing ≠ "" ∧ normalizedName data existing ≠ "" ∧
      ∃ createdAt, row = rowOf (mergedDefinition data existing) (normalizedId data existing)
        (normalizedName data existing) createdAt now := by
  unfold normalize at h
  dsimp only at h
  split at h
  · simp [throw, throwThe, MonadExceptOf.throw, bind, Except.bind] at h
  · rename_i hnames
    rw [not_or] at hnames
    refine ⟨hnames.1, hnames.2, ?_⟩
    obtain ⟨resources, hresources, h⟩ := ok_of_bind h
    obtain ⟨secrets, hsecrets, h⟩ := ok_of_bind h
    obtain ⟨mounts, hmounts, h⟩ := ok_of_bind h
    obtain ⟨ports, hports, h⟩ := ok_of_bind h
    obtain ⟨devices, hdevices, h⟩ := ok_of_bind h
    obtain ⟨intents, hintents, h⟩ := ok_of_bind h
    obtain ⟨environment, henvironment, h⟩ := ok_of_bind h
    obtain ⟨healthcheck, hhealthcheck, h⟩ := ok_of_bind h
    obtain ⟨preStart, hpreStart, h⟩ := ok_of_bind h
    obtain ⟨capAdd, hcapAdd, h⟩ := ok_of_bind h
    obtain ⟨securityOpt, hsecurityOpt, h⟩ := ok_of_bind h
    obtain ⟨capDrop, hcapDrop, h⟩ := ok_of_bind h
    obtain ⟨tags, htags, h⟩ := ok_of_bind h
    obtain ⟨execPolicy, hexecPolicy, h⟩ := ok_of_bind h
    obtain rfl := Except.ok.inj h
    obtain rfl := eq_of_jsonText hresources (stable_getD (fun _ _ => stable_of_isJson rfl) rfl)
    obtain rfl := eq_of_jsonText hsecrets (stable_dumps fun _ _ _ _ => stable_of_isJson rfl)
    obtain rfl := eq_of_jsonText hmounts
      (stable_dumps fun _ _ m _ => stable_of_isJson m.isJson_dump)
    obtain rfl := eq_of_jsonText hports (stable_texts _)
    obtain rfl := eq_of_jsonText hdevices (stable_texts _)
    obtain rfl := eq_of_jsonText hintents hback.stable_intents
    obtain rfl := eq_of_jsonText henvironment
      (stable_getD (fun e _ => stable_of_isJson (isJson_textDict e)) rfl)
    obtain rfl := eq_of_jsonText hhealthcheck (stable_getD hback.healthcheck rfl)
    obtain rfl := eq_of_jsonText hpreStart (stable_getD (fun _ _ => stable_of_isJson rfl) rfl)
    obtain rfl := eq_of_jsonText hcapAdd (stable_texts _)
    obtain rfl := eq_of_jsonText hsecurityOpt (stable_texts _)
    obtain rfl := eq_of_jsonText hcapDrop (stable_texts _)
    obtain rfl := eq_of_jsonText htags (stable_texts _)
    obtain rfl := eq_of_jsonText hexecPolicy (stable_texts _)
    exact ⟨_, rfl⟩

/-! ### Reading -/

/-- The blueprint that a definition describes. -/
def Definition.toBlueprint (d : Definition) : Blueprint where
  id := d.id.getD ""
  name := d.name.getD ""
  description := d.description.getD ""
  extendsId := d.extendsId.join
  dockerfile := d.dockerfile.getD ""
  image := d.image.join
  imageDigest := d.imageDigest.join
  systemPrompt := d.systemPrompt.getD ""
  resources := d.resources.getD {}
  secretsRequired := d.secretsRequired.getD []
  mounts := d.mounts.getD []
  storageScope := d.storageScope.getD ""
  ports := d.ports.getD []
  runtime := d.runtime.getD ""
  devices := d.devices.getD []
  hardwareIntents := d.hardwareIntents.getD []
  environment := d.environment.getD []
  healthcheck := d.healthcheck.getD []
  preStartExec := d.preStartExec.join
  capAdd := d.capAdd.getD []
  securityOpt := d.securityOpt.getD []
  capDrop := d.capDrop.getD []
  privileged := d.privileged.getD false
  readOnlyRootfs := d.readOnlyRootfs.getD false
  shmSize := d.shmSize.getD ""
  ipcMode := d.ipcMode.getD ""
  network := (d.network.map (·.mode)).getD .internal
  allowedExec := d.allowedExec.getD []
  tags := d.tags.getD []
  icon := d.icon.getD "📦"
  createdAt := d.createdAt.join
  updatedAt := d.updatedAt.join

lemma load_resources (resources : Option ResourceLimits) :
    ResourceLimits.load ((resources.map (·.dump)).getD (.dict [])) = .ok (resources.getD {}) := by
  cases resources <;> rfl

/-- The items of a written list of dumps are read one by one. -/
lemma load_dumps {α : Type} {dump : α → PyVal} {load : PyVal → Except PyError α}
    (h : ReadsBack dump load fun _ => True) (items : Option (List α)) :
    loadAll load ((items.map fun xs => PyVal.list (xs.map dump)).getD (.list [])) =
      .ok (items.getD []) := by
  cases items with
  | none => rfl
  | some xs => exact h.list fun _ _ => trivial

lemma texts_written (items : Option (List String)) :
    texts rt ((items.map textList).getD (.list [])) = .ok (items.getD []) := by
  cases items with
  | none => rfl
  | some items =>
    have hfilter : (items.map PyVal.str).filter isNotNone = items.map PyVal.str := by
      refine List.filter_eq_self.mpr fun v hv => ?_
      obtain ⟨text, -, rfl⟩ := List.mem_map.mp hv
      rfl
    show Except.ok (((items.map PyVal.str).filter isNotNone).map (·.toStr rt)) = .ok items
    rw [hfilter, List.map_map]
    exact congrArg Except.ok (List.map_id _)

lemma readTexts_written (items : Option (List String)) :
    readTexts ((items.map textList).getD (.list [])) = .ok (items.getD []) := by
  cases items with
  | none => rfl
  | some items =>
    have hback : ReadsBack PyVal.str readText fun _ => True := fun _ _ => rfl
    exact hback.list fun _ _ => trivial

lemma load_intents (items : Option (List HardwareIntent)) :
    loadIntents ((items.map fun xs => PyVal.list (xs.map (·.dump))).getD (.list [])) =
      .ok (items.getD []) := by
  cases items with
  | none => rfl
  | some xs =>
    have hfilter : (xs.map HardwareIntent.dump).filter (·.asDict?.isSome) =
        xs.map HardwareIntent.dump := by
      refine List.filter_eq_self.mpr fun v hv => ?_
      obtain ⟨i, -, rfl⟩ := List.mem_map.mp hv
      rfl
    show ((xs.map HardwareIntent.dump).filter (·.asDict?.isSome)).mapM HardwareIntent.load = .ok xs
    rw [hfilter]
    exact HardwareIntent.load_dump.list fun _ _ => trivial

lemma environment_written (environment : Option (List (String × String))) :
    environmentOf rt ((environment.map textDict).getD (.dict [])) =
      .ok (environment.getD []) := by
  cases environment with
  | none => rfl
  | some es =>
    show Except.ok ((es.map fun e => (e.1, PyVal.str e.2)).map fun e => (e.1, e.2.toStr rt)) =
      .ok es
    rw [List.map_map]
    exact congrArg Except.ok (List.map_id _)

lemma healthcheck_written (healthcheck : Option PyDict) :
    readDict ((healthcheck.map PyVal.dict).getD (.dict [])) = .ok (healthcheck.getD []) := by
  cases healthcheck <;> rfl

/-- A hook is read back, and so is that there is none. -/
lemma preStart_written (hook : Option PreStartExec) :
    loadPreStartExec ((hook.map (·.dump)).getD (.dict [])) = .ok hook := by
  cases hook <;> rfl

/-- The network that was given as a text is read back. -/
lemma network_written (h : d.ComesBack) : networkMode ((d.network.map (·.toStr)).getD "internal") =
    .ok ((d.network.map (·.mode)).getD .internal) := by
  cases hnetwork : d.network with
  | none => rfl
  | some value =>
    obtain ⟨mode, rfl⟩ := h.network value hnetwork
    cases mode <;> rfl

/-- The row of a definition is read as the blueprint that the definition describes. -/
theorem rowToBlueprint_rowOf (h : d.ComesBack) (id name createdAt updatedAt : String)
    (hdigest : d.imageDigest ≠ some (some "")) (hicon : d.icon ≠ some "") :
    rowToBlueprint rt (rowOf d id name createdAt updatedAt) = .ok { d.toBlueprint with
      id := id
      name := name
      createdAt := some createdAt
      updatedAt := some updatedAt } := by
  have hdigest' : d.imageDigest.join.filter (· != "") = d.imageDigest.join := by
    match hd : d.imageDigest with
    | none => rfl
    | some none => rfl
    | some (some digest) =>
      have hne : digest ≠ "" := fun heq => hdigest (heq ▸ hd)
      simp [hne]
  have hicon' : orElse (orElse (d.icon.getD "") "📦") "📦" = d.icon.getD "📦" := by
    cases hi : d.icon with
    | none => rfl
    | some icon =>
      have hne : icon ≠ "" := fun heq => hicon (heq ▸ hi)
      simp [orElse, hne]
  have hflag : ∀ flag : Option Bool, ((if flag.getD false then 1 else 0 : ℤ) != 0) =
      flag.getD false := by
    intro flag
    cases flag.getD false <;> rfl
  unfold rowToBlueprint
  dsimp only [rowOf]
  rw [load_resources, bind_ok, load_dumps SecretRequirement.load_dump, bind_ok,
    load_dumps MountDef.load_dump, bind_ok, texts_written, bind_ok, texts_written, bind_ok,
    load_intents, bind_ok, environment_written, bind_ok, healthcheck_written, bind_ok,
    preStart_written, bind_ok, texts_written, bind_ok, texts_written, bind_ok, texts_written,
    bind_ok, network_written h, bind_ok, readTexts_written, bind_ok, readTexts_written, bind_ok,
    hdigest', hicon', hflag, hflag]
  rfl

end Trion.Blueprints
