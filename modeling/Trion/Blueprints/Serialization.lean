import Trion.Blueprints.Models
import Trion.Library.Codec
import Trion.Python.Json

/-!
# Parts of blueprints as JSON

The parts of a blueprint are written with `model_dump` and `json.dumps`, and read with
`json.loads` by the constructors of their classes.  A constructor leaves defaults for keys that
are missing and refuses a value of another type; the conversions between types that pydantic
makes are left out, since a dump holds none to be made.
-/

namespace Trion.Blueprints

open Trion.Python Codec

/-! ### Fields -/

/-- A pydantic `ValidationError`. -/
def validationError : PyError := .valueError "validation error"

/-- A value that must be a text. -/
def readText : PyVal → Except PyError String
  | .str text => .ok text
  | _ => .error validationError

/-- A value that must be a text or `None`. -/
def readOptionalText : PyVal → Except PyError (Option String)
  | .str text => .ok (some text)
  | .none => .ok none
  | _ => .error validationError

/-- A value that must be an integer. -/
def readInt : PyVal → Except PyError ℤ
  | .int n => .ok n
  | _ => .error validationError

/-- A value that must be a truth value. -/
def readBool : PyVal → Except PyError Bool
  | .bool b => .ok b
  | _ => .error validationError

/-- A value that must be a dictionary. -/
def readDict : PyVal → Except PyError PyDict
  | .dict entries => .ok entries
  | _ => .error validationError

/-- A field without a default. -/
def required {α : Type} (read : PyVal → Except PyError α) (d : PyDict) (key : String) :
    Except PyError α :=
  if PyDict.has d key then read (PyDict.get d key) else .error validationError

/-- A field with a default. -/
def fieldOr {α : Type} (read : PyVal → Except PyError α) (default : α) (d : PyDict)
    (key : String) : Except PyError α :=
  if PyDict.has d key then read (PyDict.get d key) else .ok default

/-- The keyword arguments `**value`. -/
def kwargs : PyVal → Except PyError PyDict
  | .dict entries => .ok entries
  | _ => .error .typeError

/-- `value.items()`. -/
def entries : PyVal → Except PyError PyDict
  | .dict entries => .ok entries
  | _ => .error .attributeError

/-- `value is not None`. -/
def isNotNone : PyVal → Bool
  | .none => false
  | _ => true

/-- The items of `for item in value`. -/
def iterate : PyVal → Except PyError (List PyVal)
  | .list items => .ok items
  | _ => .error .typeError

/-! ### The classes -/

/-- `str` for every item. -/
def textList (items : List String) : PyVal := .list (items.map .str)

/-- A dictionary of texts. -/
def textDict (entries : List (String × String)) : PyVal :=
  .dict (entries.map fun e => (e.1, .str e.2))

/-- `[str(item) for item in value if item is not None]`. -/
def texts (rt : PyRuntime) (value : PyVal) : Except PyError (List String) := do
  let items ← iterate value
  return (items.filter isNotNone).map (·.toStr rt)

/-- A value that must be a list of texts. -/
def readTexts : PyVal → Except PyError (List String)
  | .list items => items.mapM readText
  | _ => .error validationError

/-- A text or `None`. -/
def optionalText : Option String → PyVal
  | some text => .str text
  | none => .none

/-- `ResourceLimits.model_dump`. -/
def ResourceLimits.dump (r : ResourceLimits) : PyVal :=
  .dict [("cpu_limit", .str r.cpuLimit), ("memory_limit", .str r.memoryLimit),
    ("memory_swap", .str r.memorySwap), ("timeout_seconds", .int r.timeoutSeconds),
    ("pids_limit", .int r.pidsLimit)]

/-- `ResourceLimits(**value)`. -/
def ResourceLimits.load (value : PyVal) : Except PyError ResourceLimits := do
  let d ← kwargs value
  return {
    cpuLimit := ← fieldOr readText "1.0" d "cpu_limit"
    memoryLimit := ← fieldOr readText "512m" d "memory_limit"
    memorySwap := ← fieldOr readText "1g" d "memory_swap"
    timeoutSeconds := ← fieldOr readInt 300 d "timeout_seconds"
    pidsLimit := ← fieldOr readInt 100 d "pids_limit" }

/-- `SecretRequirement.model_dump`. -/
def SecretRequirement.dump (s : SecretRequirement) : PyVal :=
  .dict [("name", .str s.name), ("description", .str s.description), ("optional", .bool s.optional)]

/-- `SecretRequirement(**value)`. -/
def SecretRequirement.load (value : PyVal) : Except PyError SecretRequirement := do
  let d ← kwargs value
  return {
    name := ← required readText d "name"
    description := ← fieldOr readText "" d "description"
    optional := ← fieldOr readBool false d "optional" }

/-- `MountDef.model_dump`. -/
def MountDef.dump (m : MountDef) : PyVal :=
  .dict [("host", .str m.host), ("container", .str m.container), ("type", .str m.type),
    ("mode", .str m.mode), ("asset_id", optionalText m.assetId)]

/-- `MountDef(**value)`. -/
def MountDef.load (value : PyVal) : Except PyError MountDef := do
  let d ← kwargs value
  return {
    host := ← required readText d "host"
    container := ← required readText d "container"
    type := ← fieldOr readText "bind" d "type"
    mode := ← fieldOr readText "rw" d "mode"
    assetId := ← fieldOr readOptionalText none d "asset_id" }

/-- `HardwareIntent.model_dump`. -/
def HardwareIntent.dump (i : HardwareIntent) : PyVal :=
  .dict [("resource_id", .str i.resourceId), ("target_type", .str i.targetType),
    ("target_id", .str i.targetId), ("attachment_mode", .str i.attachmentMode),
    ("policy", .dict i.policy), ("requested_by", .str i.requestedBy)]

/-- `HardwareIntent(**value)`. -/
def HardwareIntent.load (value : PyVal) : Except PyError HardwareIntent := do
  let d ← kwargs value
  return {
    resourceId := ← required readText d "resource_id"
    targetType := ← fieldOr readText "container" d "target_type"
    targetId := ← fieldOr readText "" d "target_id"
    attachmentMode := ← fieldOr readText "attach" d "attachment_mode"
    policy := ← fieldOr readDict [] d "policy"
    requestedBy := ← fieldOr readText "" d "requested_by" }

/-- `PreStartExec.model_dump`. -/
def PreStartExec.dump (p : PreStartExec) : PyVal :=
  .dict [("user", .str p.user), ("command", .str p.command)]

/-- `PreStartExec(**value)`. -/
def PreStartExec.load (value : PyVal) : Except PyError PreStartExec := do
  let d ← kwargs value
  return {
    user := ← fieldOr readText "" d "user"
    command := ← fieldOr readText "" d "command" }

/-! ### Columns -/

/-- `[cls(**item) for item in value]`, where `load` is the constructor. -/
def loadAll {α : Type} (load : PyVal → Except PyError α) (value : PyVal) :
    Except PyError (List α) := do
  let items ← iterate value
  items.mapM load

/-- `[HardwareIntent(**item) for item in value if isinstance(item, dict)]`. -/
def loadIntents (value : PyVal) : Except PyError (List HardwareIntent) := do
  let items ← iterate value
  (items.filter (·.asDict?.isSome)).mapM HardwareIntent.load

/-- `{str(k): str(v) for k, v in value.items()}`. -/
def environmentOf (rt : PyRuntime) (value : PyVal) : Except PyError (List (String × String)) := do
  let items ← entries value
  return items.map fun e => (e.1, e.2.toStr rt)

/-- `PreStartExec(**value) if value else None`. -/
def loadPreStartExec (value : PyVal) : Except PyError (Option PreStartExec) :=
  if value.truthy then (PreStartExec.load value).map some else .ok none

/-- `NetworkMode(text) if text else NetworkMode.INTERNAL`. -/
def networkMode (text : String) : Except PyError NetworkMode :=
  if text = "" then .ok .internal
  else
    match [NetworkMode.none, .internal, .bridge, .full].find? fun mode => mode.value == text with
    | some mode => .ok mode
    | none => .error (.valueError ("'" ++ text ++ "' is not a valid NetworkMode"))

/-! ### What is written is read back -/

theorem ResourceLimits.load_dump (r : ResourceLimits) : load r.dump = .ok r := rfl

theorem SecretRequirement.load_dump : ReadsBack dump load fun _ => True := fun _ _ => rfl

theorem MountDef.load_dump : ReadsBack dump load fun _ => True := by
  rintro ⟨host, container, type, mode, assetId⟩ _
  cases assetId <;> rfl

theorem HardwareIntent.load_dump : ReadsBack dump load fun _ => True := fun _ _ => rfl

theorem PreStartExec.load_dump (p : PreStartExec) : load p.dump = .ok p := rfl

end Trion.Blueprints
