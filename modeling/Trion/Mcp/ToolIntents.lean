import Trion.Python.Repr
import Trion.Python.SameJson

/-!
# The mirror of a bundle's tools

`installer_tool_intents.py`: reading the `tool_intents.json` of a bundle and building its mirror,
the projection that is stored in the registry.  Each tool of the mirror carries the header of the
mirror as `tool_intent_meta` and, from schema 2 on, whether its capability fields are complete.
-/

namespace Trion.Mcp

open Trion.Python

/-- What the installer takes from outside: which characters are printable, and the hexadecimal
SHA-256 of a text in UTF-8. -/
structure InstallerRuntime extends PyRuntime where
  printable : Char → Bool
  sha256 : String → String

/-- What a step of the installer raises. -/
inductive Raised where
  | installation (message : String) (targetDir : Option String)
  | http (statusCode : ℕ) (detail : String)
  | python (error : PyError)
  | os (text : String)
deriving DecidableEq

variable (env : InstallerRuntime)

/-- `repr(value)`. -/
def InstallerRuntime.repr : PyVal → String
  | .str s => String.ofList (reprString env.printable s)
  | v => v.toStr env.toPyRuntime

/-- `d.get(key, default)`. -/
def getOr (d : PyDict) (key : String) (default : PyVal) : PyVal := (d.lookup key).getD default

/-- `str(d.get(key, default)).strip()`. -/
def stripped (d : PyDict) (key : String) (default : String) : String :=
  strip ((getOr d key (.str default)).toStr env.toPyRuntime)

/-- What the installer can go on with after a call of Python. -/
def lift {α : Type} (call : Except PyError α) : Except Raised α := call.mapError .python

/-- `if condition: raise error`. -/
def raiseIf (condition : Bool) (error : Raised) : Except Raised Unit :=
  if condition then .error error else .ok ()

@[simp] lemma raiseIf_eq_ok {condition : Bool} {error : Raised} {u : Unit} :
    raiseIf condition error = .ok u ↔ condition = false := by
  cases condition <;> simp [raiseIf]

lemma lift_eq_ok {α : Type} {call : Except PyError α} {a : α} :
    lift call = .ok a ↔ call = .ok a := by
  cases call <;> simp [lift, Except.mapError]

/-! ### The source of a bundle -/

def capabilityStringFields : List String :=
  ["domain", "operation", "risk", "freshness_support", "tool_role"]

def capabilityListFields : List String :=
  ["supports_entities", "evidence_types", "requires", "target_scopes"]

def supportedSchemaVersions : List ℤ := [1, 2]

def presenceOnlyCapabilityFields : List String := ["requires"]

def outputSchemaSentinel : String := "mcp_output_schema"

def p11CapabilityFields : List String :=
  ["domain", "operation", "requires", "evidence_types", "risk", "target_scopes",
    "freshness_support", "tool_role", "output_schema"]

/-- The file `tool_intents.json` of a bundle, with what `json.loads` gives for its text. -/
structure IntentsFile where
  name : String
  payload : Option PyVal

/-- What `load_tool_intents` returns. -/
structure LoadedIntents where
  schemaVersion : ℤ
  tools : List PyDict

/-- The dictionary `load_tool_intents` returns. -/
def LoadedIntents.payload (loaded : LoadedIntents) : PyVal :=
  .dict [("schema_version", .int loaded.schemaVersion), ("tools", .list (loaded.tools.map .dict))]

/-- `_string_list`. -/
def stringList (value : PyVal) (fieldName : String) : Except Raised PyVal :=
  match value with
  | .none => .ok (.list [])
  | .list items =>
    .ok (.list (((items.map fun item => strip (item.toStr env.toPyRuntime)).filter (· ≠ "")).map
      .str))
  | _ => .error (.installation s!"Field '{fieldName}' in tool_intents.json must be a list" none)

/-- `_output_schema_reference`. -/
def outputSchemaReference (value : PyVal) (schemaVersion : ℤ) : Except Raised PyVal :=
  match value with
  | .dict _ | .list _ => .error (.installation
      "Field 'output_schema' must be a string reference, not an embedded schema object" none)
  | value =>
    let result := strip (value.strOr env.toPyRuntime "")
    if 2 ≤ schemaVersion ∧ result ≠ "" ∧ result ≠ outputSchemaSentinel then
      .error (.installation (s!"Field 'output_schema' must be the literal '{outputSchemaSentinel}' "
        ++ s!"sentinel (live MCP outputSchema), got: {env.repr (.str result)}") none)
    else .ok (.str result)

/-- Writes a field that the raw tool has. -/
def setIfPresent (raw : PyDict) (field : String) (value : Except Raised PyVal) (tool : PyDict) :
    Except Raised PyDict :=
  if PyDict.has raw field then value.map (PyDict.set tool field) else .ok tool

/-- One tool of the file. -/
def normalizeTool (schemaVersion : ℤ) (raw : PyVal) : Except Raised PyDict :=
  match raw with
  | .dict raw =>
    let name := stripped env raw "name" ""
    let description := stripped env raw "description" ""
    if name = "" ∨ description = "" then
      .error (.installation "Each tool intent requires 'name' and 'description'" none)
    else do
      let examples ← stringList env (PyDict.get raw "examples") "examples"
      let keywords ← stringList env (PyDict.get raw "keywords") "keywords"
      let base : PyDict := [("name", .str name), ("description", .str description),
        ("examples", examples), ("keywords", keywords)]
      let withTexts ← capabilityStringFields.foldlM (fun tool field => setIfPresent raw field
        (.ok (.str (strip ((PyDict.get raw field).strOr env.toPyRuntime "")))) tool) base
      let withSchema ← setIfPresent raw "output_schema"
        (outputSchemaReference env (PyDict.get raw "output_schema") schemaVersion) withTexts
      let withLists ← capabilityListFields.foldlM (fun tool field => setIfPresent raw field
        (stringList env (PyDict.get raw field) field) tool) withSchema
      setIfPresent raw "can_answer_directly"
        (.ok (.bool (PyDict.get raw "can_answer_directly").truthy)) withLists
  | _ => .error (.installation "Each tool intent must be a JSON object" none)

/-- `load_tool_intents`. -/
def loadToolIntents (file : IntentsFile) : Except Raised LoadedIntents :=
  match file.payload with
  | none => .error (.installation s!"Invalid JSON in {file.name}" none)
  | some (.dict payload) => do
    let schemaVersion ← lift
      (((getOr payload "schema_version" (.int 1)).or (.int 1)).toInt env.toPyRuntime)
    match PyDict.get payload "tools" with
    | .list (raw :: rest) => do
      let tools ← (raw :: rest).mapM (normalizeTool env schemaVersion)
      return ⟨schemaVersion, tools⟩
    | _ => .error (.installation "tool_intents.json must contain a non-empty 'tools' list" none)
  | some _ => .error (.installation s!"{file.name} must contain a JSON object" none)

/-! ### The projection -/

/-- `canonical_json_sha256`. -/
def canonicalJsonSha256 (payload : PyVal) : Except Raised String :=
  match canonicalJson? env.toPyRuntime payload with
  | some text => .ok (env.sha256 (String.ofList text))
  | none => .error (.python .typeError)

/-- `_assert_unique_tool_names`, after the names in `seen`. -/
def assertUniqueToolNames (seen : List PyVal) : List PyDict → Except Raised Unit
  | [] => .ok ()
  | tool :: tools =>
    let name := PyDict.get tool "name"
    if seen.any name.pyEq then
      .error (.installation
        s!"Duplicate tool name in tool_intents.json: '{name.toStr env.toPyRuntime}'" none)
    else assertUniqueToolNames (seen ++ [name]) tools

/-- `value >= bound` for a number. -/
def atLeast (value : PyVal) (bound : ℤ) : Except PyError Bool :=
  match value with
  | .float .inf => .ok true
  | .float .negInf | .float .nan => .ok false
  | value => match value.number? with
    | some q => .ok (decide ((bound : ℚ) ≤ q))
    | none => .error .typeError

/-- `_capability_field_missing`. -/
def capabilityFieldMissing (projected : PyDict) (field : String) : Bool :=
  if presenceOnlyCapabilityFields.contains field then !PyDict.has projected field
  else !(PyDict.get projected field).truthy

/-- `project_tool`. -/
def projectTool (tool : PyDict) (schemaVersion : PyVal) (header : PyDict) :
    Except Raised PyDict := do
  let projected := PyDict.set tool "tool_intent_meta" (.dict header)
  if ← lift (atLeast schemaVersion 2) then
    let missing := p11CapabilityFields.filter (capabilityFieldMissing projected)
    let projected := PyDict.set projected "capability_complete" (.bool missing.isEmpty)
    return if missing.isEmpty then projected
      else PyDict.set projected "missing_capability_fields" (.list (missing.map .str))
  else return projected

/-- The header of a mirror. -/
def headerOf (schemaVersion sourceSha256 bundleVersion : PyVal) : PyDict :=
  [("schema_version", schemaVersion), ("source_sha256", sourceSha256),
    ("bundle_version", bundleVersion)]

/-- `build_tool_intent_mirror`. -/
def buildToolIntentMirror (file : IntentsFile) (bundleVersion : String) :
    Except Raised PyDict := do
  let loaded ← loadToolIntents env file
  raiseIf (!supportedSchemaVersions.contains loaded.schemaVersion)
    (.installation (s!"Unsupported tool_intents.json schema_version: "
      ++ s!"{loaded.schemaVersion} (supported: (1, 2))") none)
  let bundleVersion := strip bundleVersion
  raiseIf (bundleVersion == "")
    (.installation "build_tool_intent_mirror requires a non-empty bundle_version" none)
  assertUniqueToolNames env [] loaded.tools
  let sourceSha256 ← canonicalJsonSha256 env loaded.payload
  let header := headerOf (.int loaded.schemaVersion) (.str sourceSha256) (.str bundleVersion)
  let tools ← loaded.tools.mapM fun tool => projectTool tool (.int loaded.schemaVersion) header
  return header ++ [("tools", .list (tools.map .dict))]

end Trion.Mcp
