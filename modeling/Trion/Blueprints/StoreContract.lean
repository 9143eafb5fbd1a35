import Trion.Blueprints.WrittenRows
import Trion.Python.Text

/-!
# The contract of the blueprint store

What is created is read back, an update changes the fields it sets of its blueprint and nothing
else, every row can be read, and what is deleted can be created anew.  The store keeps this as
long as the network is given as a text with every update, no id, name, digest or icon is given
that is changed on the way, no update sets a field to `None`, and no stored blueprint is
deleted.
-/

namespace Trion.Blueprints

open Trion.Python OperationRun System

variable {rt : PyRuntime} {s : Store} {d u : Definition} {b : Blueprint} {id now : String}

/-! ### The contract -/

/-- A blueprint without its time stamps. -/
def Blueprint.timeless (b : Blueprint) : Blueprint := { b with createdAt := none, updatedAt := none }

/-- The blueprint with the fields that a definition sets. -/
def Definition.applyTo (u : Definition) (b : Blueprint) : Blueprint where
  id := u.id.getD b.id
  name := u.name.getD b.name
  description := u.description.getD b.description
  extendsId := u.extendsId.getD b.extendsId
  dockerfile := u.dockerfile.getD b.dockerfile
  image := u.image.getD b.image
  imageDigest := u.imageDigest.getD b.imageDigest
  systemPrompt := u.systemPrompt.getD b.systemPrompt
  resources := u.resources.getD b.resources
  secretsRequired := u.secretsRequired.getD b.secretsRequired
  mounts := u.mounts.getD b.mounts
  storageScope := u.storageScope.getD b.storageScope
  ports := u.ports.getD b.ports
  runtime := u.runtime.getD b.runtime
  devices := u.devices.getD b.devices
  hardwareIntents := u.hardwareIntents.getD b.hardwareIntents
  environment := u.environment.getD b.environment
  healthcheck := u.healthcheck.getD b.healthcheck
  preStartExec := u.preStartExec.getD b.preStartExec
  capAdd := u.capAdd.getD b.capAdd
  securityOpt := u.securityOpt.getD b.securityOpt
  capDrop := u.capDrop.getD b.capDrop
  privileged := u.privileged.getD b.privileged
  readOnlyRootfs := u.readOnlyRootfs.getD b.readOnlyRootfs
  shmSize := u.shmSize.getD b.shmSize
  ipcMode := u.ipcMode.getD b.ipcMode
  network := (u.network.map (·.mode)).getD b.network
  allowedExec := u.allowedExec.getD b.allowedExec
  tags := u.tags.getD b.tags
  icon := u.icon.getD b.icon
  createdAt := u.createdAt.getD b.createdAt
  updatedAt := u.updatedAt.getD b.updatedAt

/-- The id that a call is about. -/
def StoreCall.target : StoreCall → String
  | .create d _ => d.id.getD ""
  | .update id _ _ => id
  | .delete id _ => id

/-- What a call may do to the store. -/
structure StoreKept (rt : PyRuntime) (s : Store) (call : StoreCall) (s' : Store)
    (answer : Except StoreError StoreAnswer) : Prop where
  created : ∀ d now, call = .create d now → Succeeded answer = true →
    ∃ b, s'.getBlueprint rt (d.id.getD "") = .ok (some b) ∧ b.timeless = d.toBlueprint.timeless
  updated : ∀ id u now, call = .update id u now → Succeeded answer = true →
    ∃ b b', s.getBlueprint rt id = .ok (some b) ∧ s'.getBlueprint rt id = .ok (some b') ∧
      b'.timeless = (u.applyTo b).timeless
  others : ∀ id, id ≠ call.target → s'.getBlueprint rt id = s.getBlueprint rt id
  readable : ∀ row ∈ s'.rows, ∃ b, rowToBlueprint rt row = .ok b
  anew : ∀ id now, call = .delete id now → ∀ (d : Definition) now', d.id = some id →
    Succeeded (Store.createBlueprint rt {} d now').2 = true →
      Succeeded (s'.createBlueprint rt d now').2 = true

/-! ### The condition -/

/-- The values of a definition are stored as they are. -/
structure Definition.Plain (d : Definition) : Prop where
  comesBack : d.ComesBack
  id : ∀ id ∈ d.id, strip id = id
  name : ∀ name ∈ d.name, strip name = name
  imageDigest : d.imageDigest ≠ some (some "")
  icon : d.icon ≠ some ""

/-- An update sets the network, keeps the id, and sets no field to `None` that is not. -/
structure Definition.PlainUpdate (u : Definition) (b : Blueprint) : Prop extends u.Plain where
  network : u.network ≠ none
  sameId : ∀ id ∈ u.id, id = b.id
  notEmpty : u.name ≠ some ""
  extendsId : u.extendsId = some none → b.extendsId = none
  image : u.image = some none → b.image = none
  digest : u.imageDigest = some none → b.imageDigest = none
  preStartExec : u.preStartExec = some none → b.preStartExec = none

/-- The call stores the values it is given as they are, and deletes no stored blueprint. -/
def CallPlain (rt : PyRuntime) (s : Store) : StoreCall → Prop
  | .create d _ => d.Plain
  | .update id u _ => ∀ b, s.getBlueprint rt id = .ok (some b) → u.PlainUpdate b
  | .delete id _ => ∀ row ∈ s.rows, row.id ≠ strip id

/-! ### The invariant -/

/-- A blueprint that is stored as it is. -/
structure Blueprint.Stored (b : Blueprint) : Prop where
  id : strip b.id = b.id ∧ b.id ≠ ""
  name : strip b.name = b.name ∧ b.name ≠ ""
  imageDigest : b.imageDigest ≠ some ""
  icon : b.icon ≠ ""
  healthcheck : Stable (.dict b.healthcheck)
  hardwareIntents : ∀ i ∈ b.hardwareIntents, Stable (.dict i.policy)

/-- Every row is the only one of its id and is read as a blueprint that is stored as it is. -/
structure StoreSound (rt : PyRuntime) (s : Store) : Prop where
  distinct : (s.rows.map (·.id)).Nodup
  stored : ∀ row ∈ s.rows, ∃ b, rowToBlueprint rt row = .ok b ∧ b.id = row.id ∧ b.Stored

lemma getD_or_some {α : Type} (new : Option α) (old default : α) :
    (new.or (some old)).getD default = new.getD old := by
  cases new <;> rfl

lemma join_overwrite {α : Type} {new : Option (Option α)} {old : Option α}
    (h : new = some none → old = none) : (overwrite (some old) new).join = new.getD old := by
  match new with
  | none => rfl
  | some none => exact h rfl
  | some (some value) => rfl

lemma join_overwrite_none {α : Type} (new : Option (Option α)) :
    (overwrite none new).join = new.join := by
  match new with
  | none => rfl
  | some none => rfl
  | some (some value) => rfl

/-- A definition that is created describes the blueprint that it describes. -/
lemma toBlueprint_created (d : Definition) :
    (mergedDefinition d none).toBlueprint.timeless = d.toBlueprint.timeless := by
  simp only [mergedDefinition, Definition.update, Definition.toBlueprint, Blueprint.timeless,
    Option.map_none, Option.getD_none, Option.or_none, join_overwrite_none]

/-- An update of a blueprint describes the blueprint with the fields that it sets. -/
lemma toBlueprint_updated (h : u.PlainUpdate b) :
    (mergedDefinition u (some (detail b))).toBlueprint.timeless = (u.applyTo b).timeless := by
  have hnetwork : ((u.network.or (some (NetworkValue.member b.network))).map (·.mode)).getD
      .internal = (u.network.map (·.mode)).getD b.network := by
    cases u.network <;> rfl
  simp only [mergedDefinition, Definition.update, Definition.toBlueprint, Blueprint.timeless,
    Definition.applyTo, Blueprint.modelDump, detail, Option.map_some, Option.getD_some,
    getD_or_some, join_overwrite h.extendsId, join_overwrite h.image, join_overwrite h.digest,
    join_overwrite h.preStartExec, hnetwork]

/-! ### Definitions that are stored as they are -/

/-- What the row of a definition needs so that it is read as the definition says. -/
structure Definition.Storable (d : Definition) : Prop where
  comesBack : d.ComesBack
  imageDigest : d.imageDigest ≠ some (some "")
  icon : d.icon ≠ some ""

lemma storable_created (h : d.Plain) : (mergedDefinition d none).Storable := by
  have hdigest := h.imageDigest
  constructor
  case comesBack =>
    refine ⟨?_, ?_, ?_⟩
    · simpa [mergedDefinition, Definition.update] using h.comesBack.network
    · simpa [mergedDefinition, Definition.update] using h.comesBack.healthcheck
    · simpa [mergedDefinition, Definition.update] using h.comesBack.hardwareIntents
  case imageDigest =>
    show overwrite none d.imageDigest ≠ some (some "")
    unfold overwrite
    split
    · exact hdigest
    · simp
  case icon => simpa [mergedDefinition, Definition.update] using h.icon

lemma storable_updated (h : u.PlainUpdate b) (hb : b.Stored) :
    (mergedDefinition u (some (detail b))).Storable := by
  constructor
  case comesBack =>
    refine ⟨fun value hvalue => ?_, fun entries hentries => ?_, fun intents hintents => ?_⟩
    · obtain ⟨given, hgiven⟩ := Option.ne_none_iff_exists'.mp h.network
      have hmerged : u.network.or (some (.member b.network)) = some value := hvalue
      rw [hgiven, Option.some_or] at hmerged
      obtain rfl := Option.some.inj hmerged
      exact h.comesBack.network given hgiven
    · have hmerged : u.healthcheck.or (some b.healthcheck) = some entries := hentries
      cases hset : u.healthcheck with
      | none =>
        rw [hset, Option.none_or] at hmerged
        exact Option.some.inj hmerged ▸ hb.healthcheck
      | some given =>
        rw [hset, Option.some_or] at hmerged
        exact h.comesBack.healthcheck entries (hset.trans hmerged)
    · have hmerged : u.hardwareIntents.or (some b.hardwareIntents) = some intents := hintents
      cases hset : u.hardwareIntents with
      | none =>
        rw [hset, Option.none_or] at hmerged
        exact Option.some.inj hmerged ▸ hb.hardwareIntents
      | some given =>
        rw [hset, Option.some_or] at hmerged
        exact h.comesBack.hardwareIntents intents (hset.trans hmerged)
  case imageDigest =>
    show overwrite (some b.imageDigest) u.imageDigest ≠ some (some "")
    unfold overwrite
    split
    · exact h.imageDigest
    · exact fun heq => hb.imageDigest (Option.some.inj heq)
  case icon =>
    show u.icon.or (some b.icon) ≠ some ""
    cases hset : u.icon with
    | none => simpa using hb.icon
    | some icon =>
      rw [Option.some_or]
      exact hset ▸ h.icon

variable (rt) in
/-- The row of a storable definition is read as what the definition describes, stored as it
is. -/
lemma read_storable (h : d.Storable) {id name : String} (hid : strip id = id ∧ id ≠ "")
    (hname : strip name = name ∧ name ≠ "") (hdid : d.toBlueprint.id = id)
    (hdname : d.toBlueprint.name = name) (createdAt updatedAt : String) (isDeleted : Bool) :
    ∃ b, rowToBlueprint rt { rowOf d id name createdAt updatedAt with isDeleted := isDeleted } =
      .ok b ∧ b.id = id ∧ b.Stored ∧ b.timeless = d.toBlueprint.timeless := by
  refine ⟨_, rowToBlueprint_rowOf h.comesBack id name createdAt updatedAt h.imageDigest h.icon,
    rfl, ⟨hid, hname, ?_, ?_, ?_, ?_⟩, ?_⟩
  · show d.imageDigest.join ≠ some ""
    intro heq
    exact h.imageDigest (Option.join_eq_some_iff.mp heq)
  · show d.icon.getD "📦" ≠ ""
    cases hicon : d.icon with
    | none => decide
    | some icon => exact fun heq => h.icon (hicon.trans (congrArg some heq))
  · show Stable (.dict (d.healthcheck.getD []))
    cases hset : d.healthcheck with
    | none => exact stable_of_isJson rfl
    | some entries => exact h.comesBack.healthcheck entries hset
  · show ∀ i ∈ d.hardwareIntents.getD [], Stable (.dict i.policy)
    cases hset : d.hardwareIntents with
    | none => simp
    | some intents => exact h.comesBack.hardwareIntents intents hset
  · rw [← hdid, ← hdname]
    rfl

/-! ### Ids and names -/

lemma normalizedId_created (h : d.Plain) :
    normalizedId d none = (mergedDefinition d none).toBlueprint.id := by
  show strip (orElse (d.id.getD "") (orElse "" ((d.id.or none).getD ""))) = (d.id.or none).getD ""
  rw [Option.or_none]
  cases hid : d.id with
  | none => decide
  | some id =>
    have hstrip := h.id id hid
    by_cases hempty : id = ""
    · rw [hempty]
      decide
    · simp [orElse, hempty, hstrip]

lemma normalizedName_created (h : d.Plain) :
    normalizedName d none = (mergedDefinition d none).toBlueprint.name := by
  show strip (orElse (d.name.getD "") (orElse "" ((d.name.or none).getD ""))) =
    (d.name.or none).getD ""
  rw [Option.or_none]
  cases hname : d.name with
  | none => decide
  | some name =>
    have hstrip := h.name name hname
    by_cases hempty : name = ""
    · rw [hempty]
      decide
    · simp [orElse, hempty, hstrip]

lemma normalizedId_updated (h : u.PlainUpdate b) (hb : b.Stored) :
    normalizedId u (some (detail b)) = b.id := by
  show strip (orElse (u.id.getD "") (orElse b.id ((u.id.or (some b.id)).getD ""))) = b.id
  cases hid : u.id with
  | none => simp [orElse, hb.id]
  | some id => simp [orElse, h.sameId id hid, hb.id]

lemma normalizedName_updated (h : u.PlainUpdate b) (hb : b.Stored) :
    normalizedName u (some (detail b)) =
      (mergedDefinition u (some (detail b))).toBlueprint.name := by
  show strip (orElse (u.name.getD "") (orElse b.name ((u.name.or (some b.name)).getD ""))) =
    (u.name.or (some b.name)).getD ""
  cases hname : u.name with
  | none => simp [orElse, hb.name]
  | some name =>
    have hne : name ≠ "" := fun heq => h.notEmpty (hname.trans (congrArg some heq))
    simp [orElse, hne, h.name name hname]

/-! ### Rows that are found -/

lemma getBlueprint_of_fetch {row : Row} (h : s.fetch id = some row) (hb : rowToBlueprint rt row = .ok b) :
    s.getBlueprint rt id = .ok (some b) := by
  unfold Store.getBlueprint
  rw [h]
  dsimp only
  rw [hb]
  rfl

/-- A blueprint that is got has a row that is read as it. -/
lemma fetch_of_getBlueprint (h : s.getBlueprint rt id = .ok (some b)) :
    ∃ row, s.fetch id = some row ∧ rowToBlueprint rt row = .ok b := by
  unfold Store.getBlueprint at h
  split at h
  · rename_i row hrow
    refine ⟨row, hrow, ?_⟩
    cases hread : rowToBlueprint rt row with
    | error e =>
      rw [hread] at h
      exact nomatch h
    | ok read =>
      rw [hread] at h
      exact congrArg Except.ok (Option.some.inj (Except.ok.inj h))
  · exact nomatch Except.ok.inj h

lemma of_fetch {row : Row} (h : s.fetch id = some row) : row ∈ s.rows ∧ row.id = id := by
  have hfound := List.find?_some h
  simp only [Bool.and_eq_true, beq_iff_eq] at hfound
  exact ⟨List.mem_of_find?_eq_some h, hfound.1⟩

/-- A row is found after it was inserted, and the others as before. -/
lemma fetch_insert {row : Row} (hnew : ∀ old ∈ s.rows, old.id ≠ row.id)
    (hdeleted : row.isDeleted = false) (id : String) :
    Store.fetch ⟨s.rows ++ [row]⟩ id = if id = row.id then some row else s.fetch id := by
  unfold Store.fetch
  rw [List.find?_append]
  split
  · rename_i hid
    have hnone : s.rows.find? (fun old => old.id == id && !old.isDeleted) = none := by
      refine List.find?_eq_none.mpr fun old hold => ?_
      simp [hid, hnew old hold]
    rw [hnone]
    simp [hid, hdeleted]
  · rename_i hid
    simp [Ne.symm hid]

/-- A row is found with its new values, and the others as before. -/
lemma fetch_overwriteRow (params : Row) (id : String) :
    (s.overwriteRow params).fetch id = (s.fetch id).map fun row => if row.id = params.id then
      { params with createdAt := row.createdAt, isDeleted := row.isDeleted } else row := by
  unfold Store.fetch Store.overwriteRow
  rw [List.find?_map]
  congr 2
  funext row
  by_cases hid : row.id = params.id <;> simp [hid]

/-- A row that is found and not overwritten stays. -/
lemma getBlueprint_overwriteRow_of_ne {params : Row} (h : id ≠ params.id) :
    (s.overwriteRow params).getBlueprint rt id = s.getBlueprint rt id := by
  unfold Store.getBlueprint
  rw [fetch_overwriteRow]
  cases hrow : s.fetch id with
  | none => rfl
  | some row =>
    have hne : row.id ≠ params.id := (of_fetch hrow).2 ▸ h
    rw [Option.map_some, if_neg hne]

/-! ### One call -/

/-- A call that leaves the store as it is and does not succeed. -/
lemma kept_of_failed (hs : StoreSound rt s) {call : StoreCall}
    {answer : Except StoreError StoreAnswer} (h : Succeeded answer = false)
    (hcall : ∀ id now, call ≠ .delete id now) : StoreSound rt s ∧ StoreKept rt s call s answer := by
  refine ⟨hs, ?_⟩
  constructor
  case created => exact fun _ _ _ hsucceeded => absurd hsucceeded (by simp [h])
  case updated => exact fun _ _ _ _ hsucceeded => absurd hsucceeded (by simp [h])
  case others => exact fun _ _ => rfl
  case readable => exact fun row hrow => (hs.stored row hrow).imp fun _ hb => hb.1
  case anew => exact fun id now heq => absurd heq (hcall id now)

/-- A row that is inserted. -/
lemma sound_insert (hs : StoreSound rt s) {row : Row} (hnew : ∀ old ∈ s.rows, old.id ≠ row.id)
    (hread : rowToBlueprint rt row = .ok b) (hid : b.id = row.id) (hstored : b.Stored) :
    StoreSound rt ⟨s.rows ++ [row]⟩ := by
  constructor
  case distinct =>
    show ((s.rows ++ [row]).map (·.id)).Nodup
    rw [List.map_append, List.map_singleton]
    have hnot : row.id ∉ s.rows.map (·.id) := by
      intro hmem
      obtain ⟨old, hold, heq⟩ := List.mem_map.mp hmem
      exact hnew old hold heq
    refine List.nodup_append.mpr ⟨hs.distinct, by simp, fun i hi j hj => ?_⟩
    rw [List.mem_singleton.mp hj]
    exact fun heq => hnot (heq ▸ hi)
  case stored =>
    intro other hother
    rcases List.mem_append.mp hother with hold | hrow
    · exact hs.stored other hold
    · rw [List.mem_singleton.mp hrow]
      exact ⟨b, hread, hid, hstored⟩

/-- A call of `create_blueprint`. -/
lemma create_kept (hs : StoreSound rt s) (h : d.Plain) (now : String) :
    StoreSound rt (s.createBlueprint rt d now).1 ∧ StoreKept rt s (.create d now)
      (s.createBlueprint rt d now).1 (s.createBlueprint rt d now).2 := by
  unfold Store.createBlueprint
  split
  · exact kept_of_failed hs rfl fun _ _ => nofun
  · rename_i params hparams
    obtain ⟨hidne, hnamene, createdAt, hrow⟩ := normalize_ok hparams (storable_created h).comesBack
    have hid := normalizedId_created h
    obtain ⟨b, hread, hbid, hstored, htimeless⟩ :=
      read_storable rt (storable_created h) ⟨strip_strip _, hidne⟩ ⟨strip_strip _, hnamene⟩
        hid.symm (normalizedName_created h).symm createdAt now false
    have hparamsId : params.id = normalizedId d none := hrow ▸ rfl
    have hdid : d.id.getD "" = params.id := by
      rw [hparamsId, hid]
      show d.id.getD "" = (d.id.or none).getD ""
      rw [Option.or_none]
    replace hread : rowToBlueprint rt params = .ok b := hrow ▸ hread
    have hdeleted : params.isDeleted = false := hrow ▸ rfl
    by_cases hany : s.rows.any (·.id == params.id) = true
    · have hinsert : s.insert params =
          .error (.integrityError "UNIQUE constraint failed: blueprints.id") := if_pos hany
      rw [hinsert]
      exact kept_of_failed hs rfl fun _ _ => nofun
    · have hinsert : s.insert params = .ok ⟨s.rows ++ [params]⟩ := if_neg hany
      have hnew : ∀ old ∈ s.rows, old.id ≠ params.id := by simpa using hany
      have hgot : Store.getBlueprint rt ⟨s.rows ++ [params]⟩ params.id = .ok (some b) :=
        getBlueprint_of_fetch ((fetch_insert hnew hdeleted _).trans (if_pos rfl)) hread
      have hsound := sound_insert hs hnew hread (hbid.trans hparamsId.symm) hstored
      rw [hinsert]
      dsimp only
      rw [hgot]
      refine ⟨hsound, ?_⟩
      constructor
      case created =>
        rintro _ _ ⟨rfl, rfl⟩ -
        exact ⟨b, hdid ▸ hgot, htimeless.trans (toBlueprint_created d)⟩
      case updated => exact fun _ _ _ => nofun
      case others =>
        intro other hother
        have hne : other ≠ params.id := fun heq => hother (heq.trans hdid.symm)
        unfold Store.getBlueprint
        rw [fetch_insert hnew hdeleted, if_neg hne]
      case readable => exact fun row hrow => (hsound.stored row hrow).imp fun _ hb => hb.1
      case anew => exact fun _ _ => nofun

/-- A row that is overwritten. -/
lemma sound_overwrite (hs : StoreSound rt s) {params : Row}
    (hread : ∀ createdAt isDeleted, ∃ b, rowToBlueprint rt
      { params with createdAt := createdAt, isDeleted := isDeleted } = .ok b ∧
        b.id = params.id ∧ b.Stored) : StoreSound rt (s.overwriteRow params) := by
  constructor
  case distinct =>
    have hids : (s.overwriteRow params).rows.map (·.id) = s.rows.map (·.id) := by
      unfold Store.overwriteRow
      rw [List.map_map]
      refine List.map_congr_left fun row _ => ?_
      by_cases hid : row.id = params.id <;> simp [hid]
    rw [hids]
    exact hs.distinct
  case stored =>
    intro row hrow
    obtain ⟨old, hold, rfl⟩ := List.mem_map.mp hrow
    split
    · exact hread old.createdAt old.isDeleted
    · exact hs.stored old hold

/-- A call of `update_blueprint`. -/
lemma update_kept (hs : StoreSound rt s)
    (h : ∀ b, s.getBlueprint rt id = .ok (some b) → u.PlainUpdate b) (now : String) :
    StoreSound rt (s.updateBlueprint rt id u now).1 ∧ StoreKept rt s (.update id u now)
      (s.updateBlueprint rt id u now).1 (s.updateBlueprint rt id u now).2 := by
  unfold Store.updateBlueprint
  split
  · exact kept_of_failed hs rfl fun _ _ => nofun
  · exact kept_of_failed hs rfl fun _ _ => nofun
  · rename_i b hb
    have hplain := h b hb
    obtain ⟨row, hfetch, hrowRead⟩ := fetch_of_getBlueprint hb
    obtain ⟨hrow, hrowId⟩ := of_fetch hfetch
    obtain ⟨b', hb', hbid, hbstored⟩ := hs.stored row hrow
    obtain rfl : b' = b := Except.ok.inj (hb'.symm.trans hrowRead)
    split
    · exact kept_of_failed hs rfl fun _ _ => nofun
    · rename_i params hparams
      have hstorable := storable_updated hplain hbstored
      obtain ⟨hidne, hnamene, createdAt, hparamsRow⟩ := normalize_ok hparams hstorable.comesBack
      have hnid := normalizedId_updated hplain hbstored
      have hparamsId : params.id = id := by
        rw [hparamsRow]
        exact hnid.trans (hbid.trans hrowId)
      have hmid : (mergedDefinition u (some (detail b'))).toBlueprint.id =
          normalizedId u (some (detail b')) := by
        rw [hnid]
        show (u.id.or (some b'.id)).getD "" = b'.id
        cases huid : u.id with
        | none => rfl
        | some given => exact hplain.sameId given huid
      have hread : ∀ createdAt isDeleted, ∃ read, rowToBlueprint rt
          { params with createdAt := createdAt, isDeleted := isDeleted } = .ok read ∧
            read.id = params.id ∧ read.Stored ∧ read.timeless = (u.applyTo b').timeless := by
        intro createdAt isDeleted
        obtain ⟨read, hread, hreadId, hreadStored, htimeless⟩ :=
          read_storable rt hstorable ⟨strip_strip _, hidne⟩ ⟨strip_strip _, hnamene⟩ hmid
            (normalizedName_updated hplain hbstored).symm createdAt now isDeleted
        rw [hparamsRow]
        exact ⟨read, hread, hreadId, hreadStored,
          htimeless.trans (toBlueprint_updated hplain)⟩
      have hsound : StoreSound rt (s.overwriteRow params) := by
        refine sound_overwrite hs fun createdAt isDeleted => ?_
        obtain ⟨read, hread, hreadId, hreadStored, -⟩ := hread createdAt isDeleted
        exact ⟨read, hread, hreadId, hreadStored⟩
      obtain ⟨read, hreadRow, -, -, htimeless⟩ := hread row.createdAt row.isDeleted
      have hgot : (s.overwriteRow params).getBlueprint rt id = .ok (some read) := by
        refine getBlueprint_of_fetch ?_ hreadRow
        rw [fetch_overwriteRow, hfetch, Option.map_some, if_pos (hrowId.trans hparamsId.symm)]
      dsimp only
      rw [hgot]
      refine ⟨hsound, ?_⟩
      constructor
      case created => exact fun _ _ => nofun
      case updated =>
        rintro _ _ _ ⟨rfl, rfl, rfl⟩ -
        exact ⟨b', read, hb, hgot, htimeless⟩
      case others =>
        intro other hother
        exact getBlueprint_overwriteRow_of_ne (hparamsId ▸ hother)
      case readable => exact fun row hrow => (hsound.stored row hrow).imp fun _ hb => hb.1
      case anew => exact fun _ _ => nofun

/-- What is created in an empty store can be created where its id is not stored. -/
lemma created_anew (h : Succeeded (Store.createBlueprint rt {} d now).2 = true)
    (hnew : ∀ row ∈ s.rows, row.id ≠ strip (d.id.getD "")) :
    Succeeded (s.createBlueprint rt d now).2 = true := by
  unfold Store.createBlueprint at h ⊢
  split at h
  · cases h
  · rename_i params hparams
    obtain ⟨hid, hdeleted⟩ := normalize_id hparams
    have hcreated : normalizedId d none = strip (d.id.getD "") := by
      show strip (orElse (d.id.getD "") (orElse "" ((d.id.or none).getD ""))) = _
      rw [Option.or_none]
      by_cases hempty : d.id.getD "" = "" <;> simp [orElse, hempty]
    have hinsert : ∀ s' : Store, (∀ row ∈ s'.rows, row.id ≠ params.id) →
        s'.insert params = .ok ⟨s'.rows ++ [params]⟩ := by
      intro s' hnone
      exact if_neg (by simpa using hnone)
    have hgot : ∀ s' : Store, (∀ row ∈ s'.rows, row.id ≠ params.id) →
        Store.getBlueprint rt ⟨s'.rows ++ [params]⟩ params.id = some <$> rowToBlueprint rt params := by
      intro s' hnone
      unfold Store.getBlueprint
      rw [fetch_insert hnone hdeleted, if_pos rfl]
    have hfree : ∀ row ∈ s.rows, row.id ≠ params.id := by
      rw [hid, hcreated]
      exact hnew
    rw [hinsert {} (by simp)] at h
    rw [hinsert s hfree]
    dsimp only at h ⊢
    rw [hgot {} (by simp)] at h
    rw [hgot s hfree]
    cases hread : rowToBlueprint rt params with
    | error e =>
      rw [hread] at h
      cases h
    | ok b => rfl

/-- A call of `delete_blueprint`. -/
lemma delete_kept (hs : StoreSound rt s) (h : ∀ row ∈ s.rows, row.id ≠ strip id) (now : String) :
    StoreSound rt (s.deleteBlueprint id now).1 ∧ StoreKept rt s (.delete id now)
      (s.deleteBlueprint id now).1 (s.deleteBlueprint id now).2 := by
  have hsame : (s.deleteBlueprint id now).1 = s := by
    have hrows : s.rows.map (fun row => if row.id = id then
        { row with isDeleted := true, updatedAt := now } else row) = s.rows := by
      refine (List.map_congr_left fun row hrow => if_neg fun heq => ?_).trans (List.map_id _)
      obtain ⟨b, -, hbid, hb⟩ := hs.stored row hrow
      have hstrip : strip row.id = row.id := hbid ▸ hb.id.1
      exact h row hrow (heq ▸ hstrip.symm)
    unfold Store.deleteBlueprint
    rw [hrows]
  rw [hsame]
  refine ⟨hs, ?_⟩
  constructor
  case created => exact fun _ _ => nofun
  case updated => exact fun _ _ _ => nofun
  case others => exact fun _ _ => rfl
  case readable => exact fun row hrow => (hs.stored row hrow).imp fun _ hb => hb.1
  case anew =>
    rintro _ _ ⟨rfl, rfl⟩ d now' hid hsucceeded
    refine created_anew hsucceeded fun row hrow => ?_
    rw [hid]
    exact h row hrow

/-- In every run in which values are given that are stored as they are, updates set the network
and no stored blueprint is deleted, the store keeps its contract with every call. -/
theorem store_kept (rt : PyRuntime) (calls : List StoreCall) (call : StoreCall)
    (hplain : (blueprintStore rt).Always (CallPlain rt) {} (calls ++ [call])) :
    StoreKept rt ((blueprintStore rt).after {} calls) call
      (blueprintStore rt ((blueprintStore rt).after {} calls) call).1
      (blueprintStore rt ((blueprintStore rt).after {} calls) call).2 := by
  have hstep : ∀ s call, StoreSound rt s → CallPlain rt s call →
      StoreSound rt (blueprintStore rt s call).1 ∧
        StoreKept rt s call (blueprintStore rt s call).1 (blueprintStore rt s call).2 := by
    intro s call hs hcall
    cases call with
    | create d now => exact create_kept hs hcall now
    | update id u now => exact update_kept hs hcall now
    | delete id now => exact delete_kept hs hcall now
  obtain ⟨hbefore, hlast, -⟩ := always_append.mp hplain
  have hsound : StoreSound rt ((blueprintStore rt).after {} calls) :=
    invariant (fun s call hs hcall => (hstep s call hs hcall).1) hbefore ⟨List.nodup_nil, by simp⟩
  exact (hstep _ call hsound hlast).2

/-- A blueprint is created. -/
def createdOnce : List StoreCall := [.create { id := some "a", name := some "a" } "1"]

theorem network_update_kept :
    StoreKept .ascii ((blueprintStore .ascii).after {} createdOnce)
      (.update "a" { network := some (.text .full) } "2")
      (blueprintStore .ascii ((blueprintStore .ascii).after {} createdOnce)
        (.update "a" { network := some (.text .full) } "2")).1
      (blueprintStore .ascii ((blueprintStore .ascii).after {} createdOnce)
        (.update "a" { network := some (.text .full) } "2")).2 := by
  refine store_kept .ascii createdOnce _ ⟨?_, ?_, trivial⟩
  · exact ⟨⟨by simp, by simp, by simp⟩, fun _ hid => by
      rw [← Option.some.inj hid]
      decide, fun _ hname => by
      rw [← Option.some.inj hname]
      decide, by simp, by simp⟩
  · intro b hb
    exact ⟨⟨⟨fun _ hvalue => ⟨.full, (Option.some.inj hvalue).symm⟩, by simp, by simp⟩, by simp,
      by simp, by simp, by simp⟩, by simp, by simp, by simp, by simp, by simp, by simp, by simp⟩

/-- After an update of the description alone the row cannot be read. -/
theorem description_update_unkept :
    ¬ StoreKept .ascii ((blueprintStore .ascii).after {} createdOnce)
      (.update "a" { description := some "new" } "2")
      (blueprintStore .ascii ((blueprintStore .ascii).after {} createdOnce)
        (.update "a" { description := some "new" } "2")).1
      (blueprintStore .ascii ((blueprintStore .ascii).after {} createdOnce)
        (.update "a" { description := some "new" } "2")).2 := by
  intro h
  obtain ⟨b, hb⟩ := h.readable _ List.mem_cons_self
  exact nomatch hb

end Trion.Blueprints
