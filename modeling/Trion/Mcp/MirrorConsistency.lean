import Trion.Mcp.ToolIntents
import Trion.Python.Text

/-!
# The consistency check of the registry

`installer_registry_validation.py`: before a registry entry is written, its mirror is checked
against the projection of the source it embeds.
-/

namespace Trion.Mcp

open Trion.Python

variable (env : InstallerRuntime)

def projectedToolFields : List String :=
  ["tool_intent_meta", "capability_complete", "missing_capability_fields"]

/-- The items of a `for` loop over a value. -/
def iterate : PyVal → Except PyError (List PyVal)
  | .list items | .tuple items => .ok items
  | .dict kvs => .ok (kvs.map fun e => .str e.1)
  | .str s => .ok (s.toList.map fun c => .str (String.ofList [c]))
  | _ => .error .typeError

/-- The header of a mirror, read from the mirror. -/
def mirrorHeader (mirror : PyDict) : PyDict :=
  headerOf (PyDict.get mirror "schema_version") (PyDict.get mirror "source_sha256")
    (PyDict.get mirror "bundle_version")

/-- A tool without the fields of the projection. -/
def withoutProjection (tool : PyVal) : Except PyError PyDict :=
  match tool with
  | .dict tool => .ok (PyDict.without tool projectedToolFields)
  | _ => .error .attributeError

/-- `_assert_mirror_hash_matches_projection`. -/
def assertMirrorHashMatchesProjection (mirror : PyDict) : Except Raised Unit := do
  let actualTools := getOr mirror "tools" (.list [])
  let schemaVersion := PyDict.get mirror "schema_version"
  let items ← lift (iterate actualTools)
  let reconstructedTools ← items.mapM fun tool => lift (withoutProjection tool)
  let sha256 ← canonicalJsonSha256 env (.dict [("schema_version", schemaVersion),
    ("tools", .list (reconstructedTools.map .dict))])
  raiseIf (!(PyVal.str sha256).pyEq (PyDict.get mirror "source_sha256"))
    (.installation ("tool_intents mirror source_sha256 does not match its tool "
      ++ "projection (tool content was modified after the mirror was built)") none)
  let expectedTools ← reconstructedTools.mapM fun tool =>
    projectTool tool schemaVersion (mirrorHeader mirror)
  raiseIf (!(PyVal.list (expectedTools.map .dict)).pyEq actualTools)
    (.installation ("tool_intents mirror tool projection does not match the recomputed "
      ++ "projection (capability_complete/missing_capability_fields drift)") none)

/-- The check of the header of one tool. -/
def assertToolHeader (header : PyDict) (tool : PyVal) : Except Raised Unit := do
  let toolHeader ← lift (tool.getAttr "tool_intent_meta")
  let name ← lift (tool.getAttr "name")
  raiseIf (!toolHeader.pyEq (.dict header))
    (.installation (s!"tool_intent_meta for tool {env.repr name} does not "
      ++ "match the mirror header") none)

/-- `_assert_mirror_consistency`. -/
def assertMirrorConsistency (config : PyDict) : Except Raised Unit :=
  match PyDict.get config "tool_intents" with
  | .dict mirror =>
    if mirror.isEmpty then .ok () else do
      let manifestVersion := strip ((getOr config "version" (.str "")).strOr env.toPyRuntime "")
      let mirrorVersion :=
        strip ((getOr mirror "bundle_version" (.str "")).strOr env.toPyRuntime "")
      raiseIf (mirrorVersion != manifestVersion)
        (.installation (s!"tool_intents mirror bundle_version {env.repr (.str mirrorVersion)} "
          ++ s!"does not match manifest version {env.repr (.str manifestVersion)}") none)
      let items ← lift (iterate (getOr mirror "tools" (.list [])))
      items.forM (assertToolHeader env (mirrorHeader mirror))
      assertMirrorHashMatchesProjection env mirror
  | _ => .ok ()

/-! ### What the mirror embeds -/

/-- The tools of a mirror. -/
def mirrorTools (mirror : PyDict) : List PyDict :=
  (((getOr mirror "tools" (.list [])).asList?).getD []).filterMap PyVal.asDict?

/-- The source a mirror embeds: its tools without the fields of the projection. -/
def embeddedSource (mirror : PyDict) : PyVal :=
  .dict [("schema_version", PyDict.get mirror "schema_version"),
    ("tools", .list ((mirrorTools mirror).map fun tool =>
      .dict (PyDict.without tool projectedToolFields)))]

/-- The projection of the source a mirror embeds, under the header of the mirror. -/
def embeddedProjection (mirror : PyDict) : Except Raised PyVal := do
  let tools ← (mirrorTools mirror).mapM fun tool =>
    projectTool (PyDict.without tool projectedToolFields) (PyDict.get mirror "schema_version")
      (mirrorHeader mirror)
  return .dict (mirrorHeader mirror ++ [("tools", .list (tools.map .dict))])

/-! ### The fields of the projection -/

/-- None of the fields of the projection is there. -/
def Unprojected (tool : PyDict) : Prop := ∀ key ∈ projectedToolFields, PyDict.has tool key = false

/-- The capability fields a tool lacks. -/
def missingCapabilityFields (tool header : PyDict) : List String :=
  p11CapabilityFields.filter
    (capabilityFieldMissing (PyDict.set tool "tool_intent_meta" (.dict header)))

/-- The fields the projection adds; from schema 2 on with the missing capability fields. -/
def projectionFields (header : PyDict) : Option (List String) → PyDict
  | none => [("tool_intent_meta", .dict header)]
  | some missing =>
    [("tool_intent_meta", .dict header), ("capability_complete", .bool missing.isEmpty)] ++
      if missing.isEmpty then [] else
        [("missing_capability_fields", .list (missing.map .str))]

/-- The projection appends its fields to a tool that has none of them. -/
lemma projectTool_eq {tool header : PyDict} {schemaVersion : PyVal} (h : Unprojected tool) :
    projectTool tool schemaVersion header =
      (lift (atLeast schemaVersion 2)).map fun two =>
        tool ++ projectionFields header
          (if two then some (missingCapabilityFields tool header) else none) := by
  have hmeta : PyDict.has tool "tool_intent_meta" = false := h _ (by decide)
  have hcomplete : PyDict.has tool "capability_complete" = false := h _ (by decide)
  have hmissing : PyDict.has tool "missing_capability_fields" = false := h _ (by decide)
  have hset := @PyDict.set_of_absent tool "tool_intent_meta" (.dict header) hmeta
  unfold projectTool
  cases lift (atLeast schemaVersion 2) with
  | error e => rfl
  | ok two =>
    cases two with
    | false =>
      show Except.ok (PyDict.set tool "tool_intent_meta" (.dict header)) = _
      rw [hset]
      rfl
    | true =>
      have hcomplete' : PyDict.has (PyDict.set tool "tool_intent_meta" (.dict header))
          "capability_complete" = false := by
        rw [hset, PyDict.has_append, hcomplete]
        rfl
      have hset' := fun b => @PyDict.set_of_absent _ _ (PyVal.bool b) hcomplete'
      have hmissing' : ∀ b, PyDict.has (PyDict.set (PyDict.set tool "tool_intent_meta"
          (.dict header)) "capability_complete" (.bool b)) "missing_capability_fields" = false := by
        intro b
        rw [hset', hset, PyDict.has_append, PyDict.has_append, hmissing]
        rfl
      show Except.ok (if (missingCapabilityFields tool header).isEmpty then
          PyDict.set (PyDict.set tool "tool_intent_meta" (.dict header)) "capability_complete"
            (.bool (missingCapabilityFields tool header).isEmpty)
        else PyDict.set (PyDict.set (PyDict.set tool "tool_intent_meta" (.dict header))
          "capability_complete" (.bool (missingCapabilityFields tool header).isEmpty))
          "missing_capability_fields" (.list ((missingCapabilityFields tool header).map .str))) =
        Except.ok (tool ++ projectionFields header (some (missingCapabilityFields tool header)))
      generalize missingCapabilityFields tool header = missing
      rcases missing with _ | ⟨field, fields⟩
      · rw [if_pos List.isEmpty_nil, hset', hset, List.append_assoc]
        rfl
      · rw [if_neg (by simp), PyDict.set_of_absent (hmissing' _), hset', hset, List.append_assoc,
          List.append_assoc]
        rfl

/-- The projection is taken back by dropping its fields. -/
lemma without_projection {tool header : PyDict} (h : Unprojected tool)
    (missing : Option (List String)) :
    PyDict.without (tool ++ projectionFields header missing) projectedToolFields = tool := by
  have htool : PyDict.without tool projectedToolFields = tool := by
    refine List.filter_eq_self.mpr fun e he => ?_
    rw [Bool.not_eq_true', ← Bool.not_eq_true, List.contains_iff_mem]
    intro hmem
    have habsent := h e.1 hmem
    rw [PyDict.has, List.any_eq_false] at habsent
    exact habsent e he (beq_self_eq_true e.1)
  have hfields : PyDict.without (projectionFields header missing) projectedToolFields = [] := by
    rcases missing with _ | (_ | ⟨field, fields⟩) <;> rfl
  rw [PyDict.without, List.filter_append]
  exact (congrArg₂ _ htool hfields).trans (List.append_nil _)

/-- Without the fields of the projection a tool has none of them. -/
lemma unprojected_without (tool : PyDict) :
    Unprojected (PyDict.without tool projectedToolFields) := by
  intro key hkey
  rw [PyDict.has, List.any_eq_false]
  intro e he heq
  obtain rfl : e.1 = key := by simpa using heq
  have hnot := (List.mem_filter.mp he).2
  simp [hkey] at hnot

/-! ### Tools of a bundle -/

/-- A tool as it is read from a bundle. -/
structure SourceTool (tool : PyDict) : Prop where
  fromJson : (PyVal.dict tool).FromJson
  unprojected : Unprojected tool

variable {env : InstallerRuntime}

lemma SourceTool.set {tool : PyDict} (h : SourceTool tool) {field : String} {value : PyVal}
    (hfield : field ∉ projectedToolFields) (hvalue : value.FromJson) :
    SourceTool (PyDict.set tool field value) := by
  refine ⟨fromJson_dict.mpr ⟨OrderedDict.nodup_keys_insert h.fromJson.1, ?_⟩, ?_⟩
  · intro e he
    have hold := (fromJson_dict.mp h.fromJson).2
    unfold PyDict.set at he
    split at he
    · obtain ⟨e', he', rfl⟩ := List.mem_map.mp he
      split
      · exact hvalue
      · exact hold e' he'
    · rcases List.mem_append.mp he with he | he
      · exact hold e he
      · rw [List.mem_singleton.mp he]
        exact hvalue
  · intro key hkey
    have hne : key ≠ field := fun heq => hfield (heq ▸ hkey)
    have hget : OrderedDict.get? (OrderedDict.insert tool field value) key =
        OrderedDict.get? tool key := OrderedDict.get?_insert_of_ne hne
    have habsent := OrderedDict.has_eq_false_iff.mp (h.unprojected key hkey)
    exact OrderedDict.has_eq_false_iff.mpr (hget.trans habsent)

lemma SourceTool.setIfPresent {raw tool tool' : PyDict} {field : String}
    {value : Except Raised PyVal} (h : SourceTool tool) (hfield : field ∉ projectedToolFields)
    (hvalue : ∀ v, value = .ok v → v.FromJson) (hok : setIfPresent raw field value tool = .ok tool') :
    SourceTool tool' := by
  unfold Trion.Mcp.setIfPresent at hok
  split at hok
  · obtain ⟨v, hv, rfl⟩ := ok_of_map hok
    exact h.set hfield (hvalue v hv)
  · obtain rfl := Except.ok.inj hok
    exact h

/-- Writing one field after the other. -/
private lemma SourceTool.foldlM {raw : PyDict} {value : String → Except Raised PyVal}
    (hvalue : ∀ field v, value field = .ok v → v.FromJson) {fields : List String}
    (hfields : ∀ field ∈ fields, field ∉ projectedToolFields) {tool tool' : PyDict}
    (h : SourceTool tool) (hok : fields.foldlM
      (fun tool field => Trion.Mcp.setIfPresent raw field (value field) tool) tool = .ok tool') :
    SourceTool tool' := by
  induction fields generalizing tool with
  | nil =>
    obtain rfl : tool = tool' := Except.ok.inj hok
    exact h
  | cons field fields ih =>
    rw [List.foldlM_cons] at hok
    obtain ⟨next, hnext, hok⟩ := ok_of_bind hok
    have hfield := hfields field List.mem_cons_self
    have hrest := fun f hf => hfields f (List.mem_cons_of_mem _ hf)
    exact ih hrest (h.setIfPresent hfield (hvalue field) hnext) hok

lemma fromJson_stringList {value v : PyVal} {field : String}
    (h : stringList env value field = .ok v) : v.FromJson := by
  unfold stringList at h
  split at h
  · obtain rfl := Except.ok.inj h
    exact fromJson_list.mpr (by simp)
  · obtain rfl := Except.ok.inj h
    refine fromJson_list.mpr fun x hx => ?_
    obtain ⟨s, -, rfl⟩ := List.mem_map.mp hx
    trivial
  · exact absurd h (by simp)

lemma fromJson_outputSchemaReference {value v : PyVal} {schemaVersion : ℤ}
    (h : outputSchemaReference env value schemaVersion = .ok v) : v.FromJson := by
  unfold outputSchemaReference at h
  split at h
  · exact absurd h (by simp)
  · exact absurd h (by simp)
  · dsimp only at h
    split at h
    · exact absurd h (by simp)
    · obtain rfl := Except.ok.inj h
      trivial

/-- What is read from a bundle has none of the fields of the projection. -/
theorem sourceTool_normalizeTool {schemaVersion : ℤ} {raw : PyVal} {tool : PyDict}
    (h : normalizeTool env schemaVersion raw = .ok tool) : SourceTool tool := by
  unfold normalizeTool at h
  split at h
  · rename_i raw
    dsimp only at h
    split at h
    · exact absurd h (by simp)
    · obtain ⟨examples, hexamples, h⟩ := ok_of_bind h
      obtain ⟨keywords, hkeywords, h⟩ := ok_of_bind h
      obtain ⟨withTexts, htexts, h⟩ := ok_of_bind h
      obtain ⟨withSchema, hschema, h⟩ := ok_of_bind h
      obtain ⟨withLists, hlists, h⟩ := ok_of_bind h
      have hbase : SourceTool [("name", .str (stripped env raw "name" "")),
          ("description", .str (stripped env raw "description" "")), ("examples", examples),
          ("keywords", keywords)] := by
        refine ⟨⟨by simp [OrderedDict.keys], trivial, trivial, fromJson_stringList hexamples,
          fromJson_stringList hkeywords, trivial⟩, ?_⟩
        simp [Unprojected, projectedToolFields, PyDict.has]
      have htexts := hbase.foldlM (fun _ v hv => by
        obtain rfl := Except.ok.inj hv
        trivial) (by decide) htexts
      have hschema := htexts.setIfPresent (by decide)
        (fun v hv => fromJson_outputSchemaReference hv) hschema
      have hlists := hschema.foldlM (fun _ _ hv => fromJson_stringList hv) (by decide) hlists
      exact hlists.setIfPresent (by decide) (fun v hv => by
        obtain rfl := Except.ok.inj hv
        trivial) h
  · exact absurd h (by simp)

lemma sourceTool_of_loadToolIntents {file : IntentsFile} {loaded : LoadedIntents}
    (h : loadToolIntents env file = .ok loaded) : ∀ tool ∈ loaded.tools, SourceTool tool := by
  unfold loadToolIntents at h
  split at h
  · exact absurd h (by simp)
  · obtain ⟨schemaVersion, -, h⟩ := ok_of_bind h
    split at h
    · obtain ⟨tools, htools, h⟩ := ok_of_bind h
      obtain rfl := Except.ok.inj h
      intro tool htool
      obtain ⟨raw, -, hraw⟩ := exists_of_mem_forall₂ (mapM_eq_ok_iff.mp htools) htool
      exact sourceTool_normalizeTool hraw
    · exact absurd h (by simp)
  · exact absurd h (by simp)

/-! ### Built mirrors -/

/-- The projection of a tool of JSON is JSON. -/
lemma fromJson_projection {tool header : PyDict} (htool : (PyVal.dict tool).FromJson)
    (hun : Unprojected tool) (hheader : (PyVal.dict header).FromJson)
    (missing : Option (List String)) :
    (PyVal.dict (tool ++ projectionFields header missing)).FromJson := by
  have hfields : (PyVal.dict (projectionFields header missing)).FromJson := by
    rcases missing with _ | (_ | ⟨field, fields⟩)
    · exact ⟨by simp [projectionFields, OrderedDict.keys], hheader, trivial⟩
    · exact ⟨by simp [projectionFields, OrderedDict.keys], hheader, trivial, trivial⟩
    · refine ⟨by simp [projectionFields, OrderedDict.keys], hheader, trivial, ?_, trivial⟩
      refine fromJson_list.mpr fun x hx => ?_
      obtain ⟨s, -, rfl⟩ := List.mem_map.mp hx
      trivial
  have hnames : ∀ key ∈ OrderedDict.keys (projectionFields header missing),
      key ∈ projectedToolFields := by
    rcases missing with _ | (_ | ⟨field, fields⟩) <;>
      simp [projectionFields, OrderedDict.keys, projectedToolFields]
  refine fromJson_dict.mpr ⟨?_, fun e he => ?_⟩
  · rw [OrderedDict.keys, List.map_append]
    refine List.nodup_append.mpr ⟨htool.1, hfields.1, ?_⟩
    rintro key hkey _ hkey' rfl
    have habsent := OrderedDict.has_eq_false_iff.mp (hun key (hnames key hkey'))
    have hpresent := OrderedDict.mem_keys_iff.mp hkey
    rw [habsent] at hpresent
    exact absurd hpresent (by simp)
  · rcases List.mem_append.mp he with he | he
    · exact (fromJson_dict.mp htool).2 e he
    · exact (fromJson_dict.mp hfields).2 e he

/-- What `build_tool_intent_mirror` has gone through when it returns. -/
structure Built (env : InstallerRuntime) (file : IntentsFile) (bundleVersion : String)
    (loaded : LoadedIntents) (sha256 : String) (tools : List PyDict) : Prop where
  load : loadToolIntents env file = .ok loaded
  version : strip bundleVersion ≠ ""
  digest : canonicalJsonSha256 env loaded.payload = .ok sha256
  project : loaded.tools.mapM (fun tool => projectTool tool (.int loaded.schemaVersion)
    (headerOf (.int loaded.schemaVersion) (.str sha256) (.str (strip bundleVersion)))) = .ok tools

lemma built_of_buildToolIntentMirror {file : IntentsFile} {bundleVersion : String}
    {mirror : PyDict} (h : buildToolIntentMirror env file bundleVersion = .ok mirror) :
    ∃ loaded sha256 tools, Built env file bundleVersion loaded sha256 tools ∧
      mirror = headerOf (.int loaded.schemaVersion) (.str sha256) (.str (strip bundleVersion))
        ++ [("tools", .list (tools.map .dict))] := by
  obtain ⟨loaded, hload, h⟩ := ok_of_bind h
  obtain ⟨_, -, h⟩ := ok_of_bind h
  obtain ⟨_, hversion, h⟩ := ok_of_bind h
  obtain ⟨_, -, h⟩ := ok_of_bind h
  obtain ⟨sha256, hdigest, h⟩ := ok_of_bind h
  obtain ⟨tools, htools, h⟩ := ok_of_bind h
  exact ⟨loaded, sha256, tools, ⟨hload, by simpa using hversion, hdigest, htools⟩,
    (Except.ok.inj h).symm⟩

/-- Reading and projecting tools of a bundle, and dropping the projection again. -/
lemma Built.tools_eq {file : IntentsFile} {bundleVersion : String} {loaded : LoadedIntents}
    {sha256 : String} {tools : List PyDict} (h : Built env file bundleVersion loaded sha256 tools) :
    List.Forall₂ (fun tool projected => SourceTool tool ∧ ∃ missing, projected = tool ++
      projectionFields (headerOf (.int loaded.schemaVersion) (.str sha256)
        (.str (strip bundleVersion))) missing) loaded.tools tools := by
  have hsource := sourceTool_of_loadToolIntents h.load
  have hproject := mapM_eq_ok_iff.mp h.project
  clear h
  generalize headerOf (.int loaded.schemaVersion) (.str sha256) (.str (strip bundleVersion))
    = header at hproject ⊢
  generalize loaded.tools = tools' at hsource hproject ⊢
  induction hproject with
  | nil => exact .nil
  | @cons tool projected rest others hone _ ih =>
    have htool := hsource tool List.mem_cons_self
    rw [projectTool_eq htool.unprojected] at hone
    obtain ⟨two, -, hprojected⟩ := ok_of_map hone
    refine .cons ⟨htool, _, hprojected.symm⟩ (ih fun t ht => hsource t ?_)
    exact List.mem_cons_of_mem _ ht

lemma fromJson_headerOf {schemaVersion sourceSha256 bundleVersion : PyVal}
    (hschema : schemaVersion.FromJson) (hsha : sourceSha256.FromJson)
    (hversion : bundleVersion.FromJson) :
    (PyVal.dict (headerOf schemaVersion sourceSha256 bundleVersion)).FromJson :=
  ⟨by simp [OrderedDict.keys, headerOf], hschema, hsha, hversion, trivial⟩

/-- The headers that are built are JSON. -/
lemma fromJson_builtHeader (schemaVersion : ℤ) (sha256 bundleVersion : String) :
    (PyVal.dict (headerOf (.int schemaVersion) (.str sha256) (.str bundleVersion))).FromJson :=
  fromJson_headerOf (show (PyVal.int _).FromJson from trivial)
    (show (PyVal.str _).FromJson from trivial) (show (PyVal.str _).FromJson from trivial)

/-- The check of one tool compares its header with the header of the mirror. -/
lemma assertToolHeader_eq_ok {header tool : PyDict} :
    assertToolHeader env header (.dict tool) = .ok () ↔
      (PyDict.get tool "tool_intent_meta").pyEq (.dict header) = true := by
  show raiseIf (!(PyDict.get tool "tool_intent_meta").pyEq (.dict header)) _ = .ok () ↔ _
  rw [raiseIf_eq_ok, Bool.not_eq_false']

/-- A loop of checks passes when every item passes. -/
lemma forM_eq_ok_iff {α : Type} {f : α → Except Raised Unit} {xs : List α} :
    xs.forM f = .ok () ↔ ∀ x ∈ xs, f x = .ok () := by
  induction xs with
  | nil => exact iff_of_true rfl (by simp)
  | cons x xs ih =>
    rw [List.forall_mem_cons, ← ih]
    show (f x >>= fun _ => xs.forM f) = .ok () ↔ _
    cases f x with
    | error e => simp [bind, Except.bind]
    | ok u => simp [bind, Except.bind]

lemma Built.fromJson {file : IntentsFile} {bundleVersion : String} {loaded : LoadedIntents}
    {sha256 : String} {tools : List PyDict} (h : Built env file bundleVersion loaded sha256 tools) :
    ∀ projected ∈ tools, (PyVal.dict projected).FromJson := by
  intro projected hmem
  obtain ⟨tool, -, hsource, missing, rfl⟩ := exists_of_mem_forall₂ h.tools_eq hmem
  exact fromJson_projection hsource.fromJson hsource.unprojected
    (fromJson_builtHeader _ _ _) missing

/-- Dropping the projection of the tools of a built mirror gives the tools of the bundle. -/
lemma Built.withoutProjection_eq {file : IntentsFile} {bundleVersion : String}
    {loaded : LoadedIntents} {sha256 : String} {tools : List PyDict}
    (h : Built env file bundleVersion loaded sha256 tools) :
    (tools.map PyVal.dict).mapM (fun tool => lift (withoutProjection tool)) = .ok loaded.tools := by
  refine mapM_eq_ok_iff.mpr (List.forall₂_map_left_iff.mpr ?_)
  refine (h.tools_eq.imp fun tool projected hone => ?_).flip
  obtain ⟨hsource, missing, rfl⟩ := hone
  exact lift_eq_ok.mpr (congrArg Except.ok (without_projection hsource.unprojected missing))

lemma Built.headers {file : IntentsFile} {bundleVersion : String} {loaded : LoadedIntents}
    {sha256 : String} {tools : List PyDict} (h : Built env file bundleVersion loaded sha256 tools) :
    ∀ tool ∈ tools.map PyVal.dict, assertToolHeader env (headerOf (.int loaded.schemaVersion)
      (.str sha256) (.str (strip bundleVersion))) tool = .ok () := by
  intro tool htool
  obtain ⟨projected, hmem, rfl⟩ := List.mem_map.mp htool
  obtain ⟨source, -, hsource, missing, rfl⟩ := exists_of_mem_forall₂ h.tools_eq hmem
  have habsent : OrderedDict.get? source "tool_intent_meta" = none :=
    OrderedDict.has_eq_false_iff.mp (hsource.unprojected _ (by decide))
  generalize hheader : headerOf (.int loaded.schemaVersion) (.str sha256)
    (.str (strip bundleVersion)) = header
  have hget : PyDict.get (source ++ projectionFields header missing) "tool_intent_meta" =
      .dict header := by
    show (OrderedDict.get? _ _).getD _ = _
    rw [OrderedDict.get?_append, habsent]
    rcases missing with _ | (_ | ⟨field, fields⟩) <;> rfl
  rw [assertToolHeader_eq_ok, hget]
  exact pyEq_self (hheader ▸ fromJson_builtHeader _ _ _)

/-- A mirror that was built under the version of the manifest is accepted. -/
theorem built_accepted {file : IntentsFile} {bundleVersion : String} {mirror config : PyDict}
    (h : buildToolIntentMirror env file bundleVersion = .ok mirror)
    (hmirror : PyDict.get config "tool_intents" = .dict mirror)
    (hversion : strip ((getOr config "version" (.str "")).strOr env.toPyRuntime "") =
      strip bundleVersion) : assertMirrorConsistency env config = .ok () := by
  obtain ⟨loaded, sha256, tools, hbuilt, rfl⟩ := built_of_buildToolIntentMirror h
  have htruthy : (PyVal.str (strip bundleVersion)).truthy = true := by
    simpa [PyVal.truthy] using hbuilt.version
  have hor : (PyVal.str (strip bundleVersion)).strOr env.toPyRuntime "" = strip bundleVersion := by
    simp [PyVal.strOr, PyVal.or, htruthy, PyVal.toStr]
  have hheaders := forM_eq_ok_iff.mpr hbuilt.headers
  have hsha : (PyVal.str sha256).pyEq (.str sha256) = true := pyEq_self trivial
  have hsame : (PyVal.list (tools.map .dict)).pyEq (.list (tools.map .dict)) = true := by
    refine pyEq_self (fromJson_list.mpr fun x hx => ?_)
    obtain ⟨tool, htool, rfl⟩ := List.mem_map.mp hx
    exact hbuilt.fromJson tool htool
  have hdigest := hbuilt.digest
  rw [LoadedIntents.payload] at hdigest
  unfold assertMirrorConsistency
  rw [hmirror]
  show (raiseIf (strip ((PyVal.str (strip bundleVersion)).strOr env.toPyRuntime "")
    != strip ((getOr config "version" (.str "")).strOr env.toPyRuntime "")) _ >>= fun _ => _) = _
  rw [hor, strip_strip, hversion, bne_self_eq_false]
  show ((tools.map PyVal.dict).forM (assertToolHeader env (headerOf (.int loaded.schemaVersion)
    (.str sha256) (.str (strip bundleVersion)))) >>= fun _ => _) = _
  rw [hheaders]
  show ((tools.map PyVal.dict).mapM (fun tool => lift (withoutProjection tool)) >>= fun _ => _) = _
  rw [hbuilt.withoutProjection_eq, bind_ok]
  show (canonicalJsonSha256 env (.dict [("schema_version", .int loaded.schemaVersion),
    ("tools", .list (loaded.tools.map .dict))]) >>= fun _ => _) = _
  rw [hdigest, bind_ok]
  show (raiseIf (!(PyVal.str sha256).pyEq (.str sha256)) _ >>= fun _ => _) = _
  rw [hsha]
  show (loaded.tools.mapM (fun tool => projectTool tool (.int loaded.schemaVersion)
    (headerOf (.int loaded.schemaVersion) (.str sha256) (.str (strip bundleVersion))))
      >>= fun _ => _) = _
  rw [hbuilt.project, bind_ok]
  show raiseIf (!(PyVal.list (tools.map .dict)).pyEq (.list (tools.map .dict))) _ = _
  rw [hsame]
  rfl

end Trion.Mcp
