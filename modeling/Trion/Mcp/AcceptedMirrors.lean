import Trion.Mcp.MirrorConsistency

/-!
# Accepted mirrors

What the consistency check of the registry says about a mirror it accepts.  The digest in the
header is that of the source the mirror embeds, and the mirror is equal to the projection of
that source.  Equality is Python's: `1` passes for `True` and `2.0` for `2`, and keys of the mirror
that are not those of a projection are not looked at.  The mirror is the projection exactly when
it has its keys and the fields of the projection have their types.
-/

namespace Trion.Mcp

open Trion.Python

variable {env : InstallerRuntime}

/-- What the check has found when it accepts a mirror. -/
structure Accepted (env : InstallerRuntime) (mirror : PyDict) (tools expected : List PyDict)
    (sha256 : String) : Prop where
  tools_eq : getOr mirror "tools" (.list []) = .list (tools.map .dict)
  headers : ∀ tool ∈ tools,
    (PyDict.get tool "tool_intent_meta").pyEq (.dict (mirrorHeader mirror)) = true
  digest : canonicalJsonSha256 env (embeddedSource mirror) = .ok sha256
  stored : PyDict.get mirror "source_sha256" = .str sha256
  project : List.Forall₂ (fun tool projected => projectTool
    (PyDict.without tool projectedToolFields) (PyDict.get mirror "schema_version")
    (mirrorHeader mirror) = .ok projected) tools expected
  equal : (PyVal.list (expected.map .dict)).pyEq (.list (tools.map .dict)) = true

lemma mirrorTools_eq {mirror : PyDict} {tools : List PyDict}
    (h : getOr mirror "tools" (.list []) = .list (tools.map .dict)) : mirrorTools mirror = tools := by
  rw [mirrorTools, h]
  show (tools.map PyVal.dict).filterMap PyVal.asDict? = tools
  rw [List.filterMap_map]
  exact List.filterMap_some

private lemma tools_of_withoutProjection {items : List PyVal} {sources : List PyDict}
    (h : items.mapM (fun tool => lift (withoutProjection tool)) = .ok sources) :
    ∃ tools : List PyDict, items = tools.map .dict ∧
      sources = tools.map fun tool => PyDict.without tool projectedToolFields := by
  have hall := mapM_eq_ok_iff.mp h
  clear h
  induction hall with
  | nil => exact ⟨[], rfl, rfl⟩
  | @cons item source items sources hone _ ih =>
    obtain ⟨tools, rfl, rfl⟩ := ih
    have hone := lift_eq_ok.mp hone
    cases item with
    | dict tool =>
      obtain rfl := Except.ok.inj hone
      exact ⟨tool :: tools, rfl, rfl⟩
    | _ => simp [withoutProjection] at hone

/-- The check of a mirror, read backwards. -/
lemma accepted_of_assert {config mirror : PyDict}
    (hmirror : PyDict.get config "tool_intents" = .dict mirror) (hne : mirror ≠ [])
    (h : assertMirrorConsistency env config = .ok ()) :
    ∃ tools expected sha256, Accepted env mirror tools expected sha256 := by
  have hempty : mirror.isEmpty = false := by simpa using hne
  unfold assertMirrorConsistency at h
  rw [hmirror] at h
  dsimp only at h
  rw [hempty] at h
  obtain ⟨_, -, h⟩ := ok_of_bind h
  obtain ⟨items, hitems, h⟩ := ok_of_bind h
  obtain ⟨_, hheaders, h⟩ := ok_of_bind h
  obtain ⟨items', hitems', h⟩ := ok_of_bind h
  obtain rfl : items = items' := Except.ok.inj (hitems.symm.trans hitems')
  obtain ⟨sources, hsources, h⟩ := ok_of_bind h
  obtain ⟨sha256, hsha, h⟩ := ok_of_bind h
  obtain ⟨_, hstored, h⟩ := ok_of_bind h
  obtain ⟨expected, hexpected, hequal⟩ := ok_of_bind h
  rw [raiseIf_eq_ok, Bool.not_eq_false'] at hstored hequal
  obtain ⟨tools, rfl, rfl⟩ := tools_of_withoutProjection hsources
  -- the expected tools are a list, and only a list is equal to a list
  have htools : getOr mirror "tools" (.list []) = .list (tools.map .dict) := by
    have hlist : ∃ ys, getOr mirror "tools" (.list []) = .list ys := by
      cases hactual : getOr mirror "tools" (.list []) with
      | list ys => exact ⟨ys, rfl⟩
      | _ =>
        rw [hactual] at hequal
        simp [PyVal.pyEq, PyVal.number?] at hequal
    obtain ⟨ys, hys⟩ := hlist
    rw [hys] at hitems ⊢
    rw [Except.ok.inj (lift_eq_ok.mp hitems)]
  refine ⟨tools, expected, sha256, htools, fun tool htool => ?_, ?_, ?_, ?_, ?_⟩
  · exact assertToolHeader_eq_ok.mp
      (forM_eq_ok_iff.mp hheaders _ (List.mem_map.mpr ⟨tool, htool, rfl⟩))
  · rw [embeddedSource, mirrorTools_eq htools, ← hsha, List.map_map]
    rfl
  · cases hvalue : PyDict.get mirror "source_sha256" with
    | str s =>
      rw [hvalue] at hstored
      rw [show sha256 = s by simpa [PyVal.pyEq] using hstored]
    | _ =>
      rw [hvalue] at hstored
      simp [PyVal.pyEq, PyVal.number?] at hstored
  · exact List.forall₂_map_left_iff.mp (mapM_eq_ok_iff.mp hexpected)
  · rw [← htools]
    exact hequal

/-! ### One tool -/

/-- The fields of the projection of a tool have the types the projection gives them. -/
structure ToolTyped (header tool : PyDict) : Prop where
  complete : ∀ value, OrderedDict.get? tool "capability_complete" = some value →
    ∃ b, value = .bool b
  header : (PyVal.dict header).sameTypes (PyDict.get tool "tool_intent_meta") = true

lemma fromJson_without {tool : PyDict} (h : (PyVal.dict tool).FromJson) (keys : List String) :
    (PyVal.dict (PyDict.without tool keys)).FromJson := by
  obtain ⟨hnodup, hvalues⟩ := fromJson_dict.mp h
  exact fromJson_dict.mpr ⟨hnodup.sublist (List.filter_sublist.map Prod.fst),
    fun e he => hvalues e (List.mem_of_mem_filter he)⟩

/-- A tool that is equal to its projection is the projection exactly when the fields of the
projection have their types. -/
lemma sameJson_projection_iff {header tool : PyDict} {missing : Option (List String)}
    (htool : (PyVal.dict tool).FromJson) (hheader : (PyVal.dict header).FromJson)
    (hequal : (PyVal.dict (PyDict.without tool projectedToolFields ++
      projectionFields header missing)).pyEq (.dict tool) = true) :
    SameJson (.dict (PyDict.without tool projectedToolFields ++ projectionFields header missing))
      (.dict tool) ↔ ToolTyped header tool := by
  have hsource := fromJson_without htool projectedToolFields
  have hprojected := fromJson_projection hsource (unprojected_without tool) hheader missing
  have hkeys := keys_perm_of_pyEq hprojected.1 hequal
  have hentries := pyEqEntries_iff.mp
    (by rw [PyVal.pyEq, Bool.and_eq_true] at hequal; exact hequal.2)
  have hfound : ∀ {key value}, OrderedDict.get? tool key = some value →
      PyDict.get tool key = value := fun hget => by
    show (OrderedDict.get? tool _).getD _ = _
    rw [hget]
    rfl
  obtain ⟨w, hw, -⟩ := hentries ("tool_intent_meta", .dict header)
    (List.mem_append_right _ (by rcases missing with _ | missing <;> simp [projectionFields]))
  rw [sameJson_iff hprojected htool, and_iff_right hequal]
  show PyVal.sameTypesEntries _ _ = true ↔ _
  rw [sameTypesEntries_iff]
  constructor
  · intro hrows
    refine ⟨fun value hvalue => ?_, ?_⟩
    · rcases missing with _ | missing
      · -- under schema 1 the projection does not have the key, so the tool has it neither
        have hmem := OrderedDict.mem_keys_iff.mpr (Option.isSome_iff_exists.mpr ⟨value, hvalue⟩)
        obtain ⟨row, hrow, hname⟩ := List.mem_map.mp (hkeys.mem_iff.mpr hmem)
        rcases List.mem_append.mp hrow with hrow | hrow
        · have hnot := (List.mem_filter.mp hrow).2
          rw [hname] at hnot
          exact absurd hnot (by decide)
        · rw [List.mem_singleton.mp hrow] at hname
          exact absurd (show "tool_intent_meta" = "capability_complete" from hname) (by decide)
      · have htypes := hrows ("capability_complete", .bool missing.isEmpty)
          (List.mem_append_right _ (by simp [projectionFields])) value hvalue
        cases value <;> simp [PyVal.sameTypes] at htypes ⊢
    · rw [hfound hw]
      exact hrows ("tool_intent_meta", .dict header)
        (List.mem_append_right _ (by rcases missing with _ | missing <;> simp [projectionFields]))
        w hw
  · rintro ⟨hcomplete, hmeta⟩ row hrow value hvalue
    have hmeta' : ∀ {v}, OrderedDict.get? tool "tool_intent_meta" = some v →
        (PyVal.dict header).sameTypes v = true := fun hv => by
      rw [← hfound hv]
      exact hmeta
    rcases List.mem_append.mp hrow with hrow | hrow
    · have hself := OrderedDict.get?_of_mem htool.1 (List.mem_of_mem_filter hrow)
      rw [hvalue] at hself
      rw [Option.some.inj hself]
      exact sameTypes_self ((fromJson_dict.mp htool).2 row (List.mem_of_mem_filter hrow))
    · have hcomplete' : ∀ {b : Bool} {v}, OrderedDict.get? tool "capability_complete" = some v →
          (PyVal.bool b).sameTypes v = true := fun hv => by
        obtain ⟨b', rfl⟩ := hcomplete _ hv
        rfl
      rcases missing with _ | (_ | ⟨field, fields⟩)
      · obtain rfl := List.mem_singleton.mp hrow
        exact hmeta' hvalue
      · simp only [projectionFields, List.isEmpty_nil, if_true, List.append_nil, List.mem_cons,
          List.not_mem_nil, or_false] at hrow
        rcases hrow with rfl | rfl
        · exact hmeta' hvalue
        · exact hcomplete' hvalue
      · simp only [projectionFields, List.isEmpty_cons, Bool.false_eq_true, if_false,
          List.cons_append, List.nil_append, List.mem_cons, List.not_mem_nil, or_false] at hrow
        rcases hrow with rfl | rfl | rfl
        · exact hmeta' hvalue
        · exact hcomplete' hvalue
        · obtain ⟨v, hv, hpy⟩ := hentries
            ("missing_capability_fields", .list ((field :: fields).map .str))
            (List.mem_append_right _ (by simp [projectionFields]))
          rw [hvalue] at hv
          obtain rfl := Option.some.inj hv
          rw [eq_of_pyEq_strings hpy]
          refine sameTypes_self (fromJson_list.mpr fun x hx => ?_)
          obtain ⟨s, -, rfl⟩ := List.mem_map.mp hx
          trivial

/-! ### The whole mirror -/

def mirrorKeys : List String := ["schema_version", "source_sha256", "bundle_version", "tools"]

/-- The mirror has the keys of a projection, and the fields of the projection of its tools have
their types. -/
structure MirrorTyped (mirror : PyDict) : Prop where
  keys : ∀ key, PyDict.has mirror key = true ↔ key ∈ mirrorKeys
  tools : ∀ tool ∈ mirrorTools mirror, ToolTyped (mirrorHeader mirror) tool

lemma fromJson_get {d : PyDict} (h : (PyVal.dict d).FromJson) (key : String) :
    (PyDict.get d key).FromJson := by
  show ((OrderedDict.get? d key).getD .none).FromJson
  cases hget : OrderedDict.get? d key with
  | none => exact (trivial : PyVal.none.FromJson)
  | some v => exact (fromJson_dict.mp h).2 _ (OrderedDict.mem_of_get? hget)

lemma fromJson_mirrorHeader {mirror : PyDict} (h : (PyVal.dict mirror).FromJson) :
    (PyVal.dict (mirrorHeader mirror)).FromJson :=
  fromJson_headerOf (fromJson_get h _) (fromJson_get h _) (fromJson_get h _)

lemma Accepted.fromJson {mirror : PyDict} {tools expected : List PyDict} {sha256 : String}
    (hmirror : (PyVal.dict mirror).FromJson) (h : Accepted env mirror tools expected sha256) :
    ∀ tool ∈ tools, (PyVal.dict tool).FromJson := by
  have htools := h.tools_eq
  intro tool htool
  have hmem : PyVal.dict tool ∈ tools.map PyVal.dict := List.mem_map.mpr ⟨tool, htool, rfl⟩
  rw [getOr] at htools
  cases hget : mirror.lookup "tools" with
  | none =>
    rw [hget] at htools
    rw [← PyVal.list.inj htools] at hmem
    exact absurd hmem List.not_mem_nil
  | some value =>
    rw [hget] at htools
    obtain rfl : value = .list (tools.map .dict) := htools
    exact fromJson_list.mp ((fromJson_dict.mp hmirror).2 _ (OrderedDict.mem_of_get? hget)) _ hmem

/-- The tools of an accepted mirror are the projection of the tools it embeds exactly when the
fields of the projection have their types. -/
lemma sameJson_tools_iff {header : PyDict} {schemaVersion : PyVal} {tools expected : List PyDict}
    (hheader : (PyVal.dict header).FromJson) (htools : ∀ tool ∈ tools, (PyVal.dict tool).FromJson)
    (hproject : List.Forall₂ (fun tool projected => projectTool
      (PyDict.without tool projectedToolFields) schemaVersion header = .ok projected) tools expected)
    (hequal : (PyVal.list (expected.map .dict)).pyEq (.list (tools.map .dict)) = true) :
    SameJson (.list (expected.map .dict)) (.list (tools.map .dict)) ↔
      ∀ tool ∈ tools, ToolTyped header tool := by
  have hitems : ∀ xs ys, SameJson (.list xs) (.list ys) ↔
      PyVal.documentItems xs = PyVal.documentItems ys := by
    intro xs ys
    simp [SameJson, PyVal.document]
  rw [hitems]
  rw [PyVal.pyEq] at hequal
  induction hproject with
  | nil => simp
  | @cons tool projected tools expected hone _ ih =>
    rw [List.map_cons, List.map_cons, PyVal.pyEqList, Bool.and_eq_true] at hequal
    rw [projectTool_eq (unprojected_without tool)] at hone
    obtain ⟨two, -, rfl⟩ := ok_of_map hone
    have htool := htools tool List.mem_cons_self
    have hrest := ih (fun t ht => htools t (List.mem_cons_of_mem _ ht)) hequal.2
    rw [List.forall_mem_cons]
    refine Iff.trans ?_ (and_congr (sameJson_projection_iff htool hheader hequal.1) hrest)
    simp [PyVal.documentItems, SameJson]

/-- An accepted mirror is the projection of the source it embeds exactly when it has the keys of a
projection and the fields of the projection have their types. -/
theorem Accepted.sameJson_iff {mirror : PyDict} {tools expected : List PyDict} {sha256 : String}
    (hmirror : (PyVal.dict mirror).FromJson) (h : Accepted env mirror tools expected sha256) :
    ∃ projection, embeddedProjection mirror = .ok projection ∧
      (SameJson projection (.dict mirror) ↔ MirrorTyped mirror) := by
  have hprojection : embeddedProjection mirror =
      .ok (.dict (mirrorHeader mirror ++ [("tools", .list (expected.map .dict))])) := by
    rw [embeddedProjection, mirrorTools_eq h.tools_eq, mapM_eq_ok_iff.mpr h.project]
    rfl
  refine ⟨_, hprojection, ?_⟩
  have hkeys : OrderedDict.keys (mirrorHeader mirror ++ [("tools", .list (expected.map .dict))]) =
      mirrorKeys := rfl
  have hnodup : mirrorKeys.Nodup := by decide
  have hget : ∀ key value, OrderedDict.get? mirror key = some value →
      PyDict.get mirror key = value := by
    intro key value hvalue
    show (OrderedDict.get? mirror key).getD _ = _
    rw [hvalue]
    rfl
  have htools := sameJson_tools_iff (fromJson_mirrorHeader hmirror) (h.fromJson hmirror) h.project
    h.equal
  have hfound : ∀ value, OrderedDict.get? mirror "tools" = some value →
      value = .list (tools.map .dict) := by
    intro value hvalue
    have htools := h.tools_eq
    rw [getOr, show mirror.lookup "tools" = some value from hvalue] at htools
    exact htools
  rw [sameJson_dict_iff_forall_mem (hkeys ▸ hnodup) hmirror.1]
  constructor
  · rintro ⟨hlength, hrows⟩
    have hperm := keys_perm_of_forall_mem (hkeys ▸ hnodup) hlength fun row hrow => by
      obtain ⟨w, hw, -⟩ := hrows row hrow
      rw [hw]
      rfl
    refine ⟨fun key => ?_, ?_⟩
    · rw [show PyDict.has mirror key = OrderedDict.has mirror key from rfl, OrderedDict.has_iff,
        ← OrderedDict.mem_keys_iff, ← hperm.mem_iff, hkeys]
    · obtain ⟨w, hw, hsame⟩ := hrows ("tools", .list (expected.map .dict))
        (List.mem_append_right _ List.mem_cons_self)
      obtain rfl := hfound w hw
      rw [mirrorTools_eq h.tools_eq]
      exact htools.mp hsame
  · rintro ⟨hhas, htyped⟩
    rw [mirrorTools_eq h.tools_eq] at htyped
    have hpresent : ∀ key ∈ mirrorKeys, ∃ value, OrderedDict.get? mirror key = some value :=
      fun key hkey => Option.isSome_iff_exists.mp (OrderedDict.has_iff.mp ((hhas key).mpr hkey))
    have hperm : mirrorKeys.Perm (OrderedDict.keys mirror) :=
      (List.perm_ext_iff_of_nodup hnodup hmirror.1).mpr fun key => by
        rw [← hhas key, OrderedDict.mem_keys_iff, ← OrderedDict.has_iff]
        rfl
    refine ⟨?_, fun row hrow => ?_⟩
    · have hlength := hperm.length_eq
      rw [← hkeys] at hlength
      simpa [OrderedDict.keys] using hlength
    · have hsame : ∀ key ∈ mirrorKeys, ∃ w, OrderedDict.get? mirror key = some w ∧
          SameJson (PyDict.get mirror key) w := fun key hkey => by
        obtain ⟨w, hw⟩ := hpresent key hkey
        rw [hget key w hw]
        exact ⟨w, hw, rfl⟩
      rcases List.mem_append.mp hrow with hrow | hrow
      · simp only [mirrorHeader, headerOf, List.mem_cons, List.not_mem_nil, or_false] at hrow
        rcases hrow with rfl | rfl | rfl <;> exact hsame _ (by simp [mirrorKeys])
      · obtain rfl := List.mem_singleton.mp hrow
        obtain ⟨w, hw⟩ := hpresent "tools" (by decide)
        rw [hfound w hw] at hw
        exact ⟨_, hw, htools.mpr htyped⟩

/-- Two sources of one digest are the same JSON. -/
lemma sameJson_of_canonicalJsonSha256 (hsha : Function.Injective env.sha256)
    (hfloat : FloatTexts env.toPyRuntime) {v w : PyVal} {sha256 : String} (hv : v.FromJson)
    (hw : w.FromJson) (h : canonicalJsonSha256 env v = .ok sha256)
    (h' : canonicalJsonSha256 env w = .ok sha256) : SameJson v w := by
  unfold canonicalJsonSha256 at h h'
  cases hcv : canonicalJson? env.toPyRuntime v with
  | none => simp [hcv] at h
  | some text =>
    cases hcw : canonicalJson? env.toPyRuntime w with
    | none => simp [hcw] at h'
    | some text' =>
      rw [hcv] at h
      rw [hcw] at h'
      have htexts := hsha ((Except.ok.inj h).trans (Except.ok.inj h').symm)
      refine sameJson_of_canonicalJson hfloat hv hw ?_
      rw [hcv, hcw, String.ofList_inj.mp htexts]

lemma fromJson_embeddedSource {mirror : PyDict} {tools expected : List PyDict} {sha256 : String}
    (hmirror : (PyVal.dict mirror).FromJson) (h : Accepted env mirror tools expected sha256) :
    (embeddedSource mirror).FromJson := by
  have htools := h.fromJson hmirror
  rw [embeddedSource, mirrorTools_eq h.tools_eq]
  refine ⟨by simp [OrderedDict.keys], fromJson_get hmirror _, fromJson_list.mpr ?_, trivial⟩
  intro x hx
  obtain ⟨tool, htool, rfl⟩ := List.mem_map.mp hx
  exact fromJson_without (htools tool htool) _

lemma fromJson_of_built {file : IntentsFile} {bundleVersion : String} {mirror : PyDict}
    (h : buildToolIntentMirror env file bundleVersion = .ok mirror) :
    mirror ≠ [] ∧ (PyVal.dict mirror).FromJson := by
  obtain ⟨loaded, sha256, tools, hbuilt, rfl⟩ := built_of_buildToolIntentMirror h
  refine ⟨List.cons_ne_nil _ _, by simp [OrderedDict.keys, headerOf], trivial, trivial, trivial,
    fromJson_list.mpr fun x hx => ?_, trivial⟩
  obtain ⟨tool, htool, rfl⟩ := List.mem_map.mp hx
  exact hbuilt.fromJson tool htool

/-- Built mirrors are accepted, also after a trip through JSON.  The digest of an accepted mirror
is that of the source it embeds, so every source with this digest is the same JSON as the embedded
one; and the mirror is the projection of that source exactly when it has the keys of a projection
and the fields of the projection have their types. -/
theorem mirror_exact_iff (hsha : Function.Injective env.sha256)
    (hfloat : FloatTexts env.toPyRuntime) :
    (∀ file bundleVersion mirror, buildToolIntentMirror env file bundleVersion = .ok mirror →
      (PyVal.dict mirror).jsonCopy.isSome ∧
      ∀ config stored, stored = .dict mirror ∨ (PyVal.dict mirror).jsonCopy = some stored →
        PyDict.get config "tool_intents" = stored →
        strip ((getOr config "version" (.str "")).strOr env.toPyRuntime "") =
          strip bundleVersion →
        assertMirrorConsistency env config = .ok ()) ∧
    ∀ config mirror, PyDict.get config "tool_intents" = .dict mirror → mirror ≠ [] →
      (PyVal.dict mirror).FromJson → assertMirrorConsistency env config = .ok () →
      (∃ sha256, PyDict.get mirror "source_sha256" = .str sha256 ∧
        canonicalJsonSha256 env (embeddedSource mirror) = .ok sha256 ∧
        ∀ source : PyVal, source.FromJson → canonicalJsonSha256 env source = .ok sha256 →
          SameJson source (embeddedSource mirror)) ∧
      ∃ projection, embeddedProjection mirror = .ok projection ∧
        (SameJson projection (.dict mirror) ↔ MirrorTyped mirror) := by
  constructor
  · intro file bundleVersion mirror hbuild
    have hcopy := jsonCopy_of_fromJson (fromJson_of_built hbuild).2
    refine ⟨by rw [hcopy]; rfl, fun config stored hstored hconfig hversion => ?_⟩
    have hsame : stored = .dict mirror := by
      rcases hstored with rfl | hjson
      · rfl
      · exact Option.some.inj (hjson.symm.trans hcopy)
    exact built_accepted hbuild (hconfig.trans hsame) hversion
  · intro config mirror hconfig hne hmirror haccept
    obtain ⟨tools, expected, sha256, haccepted⟩ := accepted_of_assert hconfig hne haccept
    refine ⟨⟨sha256, haccepted.stored, haccepted.digest, fun source hsource hdigest => ?_⟩,
      haccepted.sameJson_iff hmirror⟩
    exact sameJson_of_canonicalJsonSha256 hsha hfloat hsource
      (fromJson_embeddedSource hmirror haccepted) hdigest haccepted.digest

/-! ### A mirror of one tool -/

/-- The canonical text of a bundle with one complete tool of schema 2. -/
def timeText : String :=
  "\x7b\"schema_version\":2,\"tools\":[\x7b\"description\":\"Return time.\",\"domain\":\"time\"," ++
  "\"evidence_types\":[\"clock\"],\"examples\":[],\"freshness_support\":\"live\"," ++
  "\"keywords\":[],\"name\":\"time_now\",\"operation\":\"now\"," ++
  "\"output_schema\":\"mcp_output_schema\",\"requires\":[],\"risk\":\"read\"," ++
  "\"target_scopes\":[\"host\"],\"tool_role\":\"primary\"\x7d]\x7d"

/-- Its SHA-256. -/
def timeSha256 : String := "a069d9c5d0cb6669067a0d665fb648e633309f7fe189aaba4d1163de3c56736f"

/-- The built-ins on ASCII text, with a hash that is the SHA-256 on that text. -/
def timeRuntime : InstallerRuntime where
  lower := PyRuntime.ascii.lower
  parseInt := PyRuntime.ascii.parseInt
  reprOf
    | .float (.finite q) => toString q.num ++ "." ++ toString (q.den : ℤ)
    | _ => ""
  printable c := 0x20 ≤ c.toNat && c.toNat ≤ 0x7e
  sha256 text := if text = timeText then timeSha256 else "text:" ++ text

/-- The file of the bundle. -/
def timeFile : IntentsFile where
  name := "tool_intents.json"
  payload := some (.dict [("schema_version", .int 2), ("tools", .list [.dict
    [("name", .str "time_now"), ("description", .str "Return time."), ("domain", .str "time"),
      ("operation", .str "now"), ("requires", .list []), ("evidence_types", .list [.str "clock"]),
      ("risk", .str "read"), ("target_scopes", .list [.str "host"]),
      ("freshness_support", .str "live"), ("tool_role", .str "primary"),
      ("output_schema", .str "mcp_output_schema")]])])

def timeHeader : PyDict := headerOf (.int 2) (.str timeSha256) (.str "1.0.0")

/-- The tool of the mirror, with the value under `capability_complete`. -/
def timeTool (complete : PyVal) : PyDict :=
  [("name", .str "time_now"), ("description", .str "Return time."), ("examples", .list []),
    ("keywords", .list []), ("domain", .str "time"), ("operation", .str "now"),
    ("risk", .str "read"), ("freshness_support", .str "live"), ("tool_role", .str "primary"),
    ("output_schema", .str "mcp_output_schema"), ("evidence_types", .list [.str "clock"]),
    ("requires", .list []), ("target_scopes", .list [.str "host"]),
    ("tool_intent_meta", .dict timeHeader), ("capability_complete", complete)]

def timeMirror (complete : PyVal) : PyDict :=
  timeHeader ++ [("tools", .list [.dict (timeTool complete)])]

def timeConfig (complete : PyVal) : PyDict :=
  [("version", .str "1.0.0"), ("tool_intents", .dict (timeMirror complete))]

lemma timeRuntime_floats : FloatTexts timeRuntime.toPyRuntime :=
  floatTexts_of_fractions fun _ => rfl

lemma timeRuntime_injective : Function.Injective timeRuntime.sha256 := by
  have hne : ∀ text, timeSha256 ≠ "text:" ++ text := by
    intro text h
    have hlist := congrArg String.toList h
    rw [String.toList_append] at hlist
    exact absurd (List.cons.inj hlist).1 (by decide)
  intro s t h
  simp only [timeRuntime] at h
  split_ifs at h with hs ht ht
  · rw [hs, ht]
  · exact absurd h (hne t)
  · exact absurd h.symm (hne s)
  · exact (String.append_right_inj "text:").mp h

lemma fromJson_timeMirror {complete : PyVal} (h : complete.FromJson) :
    (PyVal.dict (timeMirror complete)).FromJson := by
  have hheader : (PyVal.dict timeHeader).FromJson := fromJson_builtHeader _ _ _
  have htexts : ∀ names : List String, (PyVal.list (names.map .str)).FromJson := by
    intro names
    refine fromJson_list.mpr fun x hx => ?_
    obtain ⟨s, -, rfl⟩ := List.mem_map.mp hx
    trivial
  have htool : (PyVal.dict (timeTool complete)).FromJson := by
    refine ⟨by simp [OrderedDict.keys, timeTool], trivial, trivial, htexts [], htexts [], trivial,
      trivial, trivial, trivial, trivial, trivial, htexts ["clock"], htexts [], htexts ["host"],
      hheader, h, trivial⟩
  exact ⟨by simp [OrderedDict.keys, timeMirror, timeHeader, headerOf], trivial, trivial, trivial,
    ⟨htool, trivial⟩, trivial⟩

/-- The mirror of the bundle is built and accepted, and it is the projection of what it embeds. -/
theorem timeMirror_exact :
    ∃ mirror, buildToolIntentMirror timeRuntime timeFile "1.0.0" = .ok mirror ∧
      assertMirrorConsistency timeRuntime
        [("version", .str "1.0.0"), ("tool_intents", .dict mirror)] = .ok () ∧
      ∃ projection, embeddedProjection mirror = .ok projection ∧
        (SameJson projection (.dict mirror) ↔ MirrorTyped mirror) := by
  obtain ⟨hbuilt, haccepted⟩ := mirror_exact_iff timeRuntime_injective timeRuntime_floats
  have hbuild : (buildToolIntentMirror timeRuntime timeFile "1.0.0").toOption.isSome = true := by
    decide +kernel
  have hversion : strip ((PyVal.str "1.0.0").strOr timeRuntime.toPyRuntime "") = strip "1.0.0" := by
    decide +kernel
  cases hmirror : buildToolIntentMirror timeRuntime timeFile "1.0.0" with
  | error e => simp [hmirror, Except.toOption] at hbuild
  | ok mirror =>
    obtain ⟨hne, hjson⟩ := fromJson_of_built hmirror
    have haccept := (hbuilt _ _ _ hmirror).2
      [("version", .str "1.0.0"), ("tool_intents", .dict mirror)] _ (.inl rfl) rfl hversion
    exact ⟨mirror, rfl, haccept, (haccepted _ _ rfl hne hjson haccept).2⟩

/-- With `1` instead of `True` under `capability_complete` the mirror is accepted, but it is not the
projection of what it embeds. -/
theorem timeMirror_tampered :
    assertMirrorConsistency timeRuntime (timeConfig (.int 1)) = .ok () ∧
    (PyVal.dict (timeMirror (.int 1))).FromJson ∧
    ∃ projection, embeddedProjection (timeMirror (.int 1)) = .ok projection ∧
      ¬ SameJson projection (.dict (timeMirror (.int 1))) := by
  have haccept : assertMirrorConsistency timeRuntime (timeConfig (.int 1)) = .ok () := by
    decide +kernel
  have hjson : (PyVal.dict (timeMirror (.int 1))).FromJson := fromJson_timeMirror trivial
  obtain ⟨tools, expected, sha256, haccepted⟩ :=
    @accepted_of_assert timeRuntime (timeConfig (.int 1)) (timeMirror (.int 1)) rfl
      (List.cons_ne_nil _ _) haccept
  obtain ⟨projection, hprojection, hiff⟩ := haccepted.sameJson_iff hjson
  refine ⟨haccept, hjson, projection, hprojection, fun hsame => ?_⟩
  obtain ⟨b, hb⟩ := ((hiff.mp hsame).tools _ List.mem_cons_self).complete (.int 1) rfl
  exact absurd hb (by simp)

end Trion.Mcp
