import Trion.Blueprints.Serialization
import Trion.Library.OperationRun

/-!
# The blueprint store

Blueprints are the rows of a table.  `create_blueprint` and `update_blueprint` make a row from a
definition, which is the dump of a blueprint or a part of one; `get_blueprint` makes a blueprint
from a row.  A blueprint is deleted by a flag in its row.

A column of JSON text is kept as the value that `json.loads` reads from it.
-/

namespace Trion.Blueprints

open Trion.Python OperationRun

/-! ### Definitions -/

/-- A value for the network: `model_dump` leaves the member of the enumeration, its JSON mode
leaves the text. -/
inductive NetworkValue where
  | member (mode : NetworkMode)
  | text (mode : NetworkMode)
deriving DecidableEq, Repr

/-- The network that is meant. -/
def NetworkValue.mode : NetworkValue → NetworkMode
  | .member mode => mode
  | .text mode => mode

/-- `str(value)`: for a member of the enumeration it names the class. -/
def NetworkValue.toStr : NetworkValue → String
  | .member .none => "NetworkMode.NONE"
  | .member .internal => "NetworkMode.INTERNAL"
  | .member .bridge => "NetworkMode.BRIDGE"
  | .member .full => "NetworkMode.FULL"
  | .text mode => mode.value

/-- The dump of a blueprint or a part of it: the fields it has, each with its value. -/
structure Definition where
  id : Option String := none
  name : Option String := none
  description : Option String := none
  extendsId : Option (Option String) := none
  dockerfile : Option String := none
  image : Option (Option String) := none
  imageDigest : Option (Option String) := none
  systemPrompt : Option String := none
  resources : Option ResourceLimits := none
  secretsRequired : Option (List SecretRequirement) := none
  mounts : Option (List MountDef) := none
  storageScope : Option String := none
  ports : Option (List String) := none
  runtime : Option String := none
  devices : Option (List String) := none
  hardwareIntents : Option (List HardwareIntent) := none
  environment : Option (List (String × String)) := none
  healthcheck : Option PyDict := none
  preStartExec : Option (Option PreStartExec) := none
  capAdd : Option (List String) := none
  securityOpt : Option (List String) := none
  capDrop : Option (List String) := none
  privileged : Option Bool := none
  readOnlyRootfs : Option Bool := none
  shmSize : Option String := none
  ipcMode : Option String := none
  network : Option NetworkValue := none
  allowedExec : Option (List String) := none
  tags : Option (List String) := none
  icon : Option String := none
  createdAt : Option (Option String) := none
  updatedAt : Option (Option String) := none

/-- `Blueprint.model_dump()`. -/
def Blueprint.modelDump (b : Blueprint) : Definition where
  id := some b.id
  name := some b.name
  description := some b.description
  extendsId := some b.extendsId
  dockerfile := some b.dockerfile
  image := some b.image
  imageDigest := some b.imageDigest
  systemPrompt := some b.systemPrompt
  resources := some b.resources
  secretsRequired := some b.secretsRequired
  mounts := some b.mounts
  storageScope := some b.storageScope
  ports := some b.ports
  runtime := some b.runtime
  devices := some b.devices
  hardwareIntents := some b.hardwareIntents
  environment := some b.environment
  healthcheck := some b.healthcheck
  preStartExec := some b.preStartExec
  capAdd := some b.capAdd
  securityOpt := some b.securityOpt
  capDrop := some b.capDrop
  privileged := some b.privileged
  readOnlyRootfs := some b.readOnlyRootfs
  shmSize := some b.shmSize
  ipcMode := some b.ipcMode
  network := some (.member b.network)
  allowedExec := some b.allowedExec
  tags := some b.tags
  icon := some b.icon
  createdAt := some b.createdAt
  updatedAt := some b.updatedAt

/-- The value of a field that may be `None`, after it was updated: `None` does not count. -/
def overwrite {α : Type} (old new : Option (Option α)) : Option (Option α) :=
  if new.join.isSome then new else old

/-- `definition.update({k: v for k, v in data.items() if v is not None})`. -/
def Definition.update (d data : Definition) : Definition where
  id := data.id.or d.id
  name := data.name.or d.name
  description := data.description.or d.description
  extendsId := overwrite d.extendsId data.extendsId
  dockerfile := data.dockerfile.or d.dockerfile
  image := overwrite d.image data.image
  imageDigest := overwrite d.imageDigest data.imageDigest
  systemPrompt := data.systemPrompt.or d.systemPrompt
  resources := data.resources.or d.resources
  secretsRequired := data.secretsRequired.or d.secretsRequired
  mounts := data.mounts.or d.mounts
  storageScope := data.storageScope.or d.storageScope
  ports := data.ports.or d.ports
  runtime := data.runtime.or d.runtime
  devices := data.devices.or d.devices
  hardwareIntents := data.hardwareIntents.or d.hardwareIntents
  environment := data.environment.or d.environment
  healthcheck := data.healthcheck.or d.healthcheck
  preStartExec := overwrite d.preStartExec data.preStartExec
  capAdd := data.capAdd.or d.capAdd
  securityOpt := data.securityOpt.or d.securityOpt
  capDrop := data.capDrop.or d.capDrop
  privileged := data.privileged.or d.privileged
  readOnlyRootfs := data.readOnlyRootfs.or d.readOnlyRootfs
  shmSize := data.shmSize.or d.shmSize
  ipcMode := data.ipcMode.or d.ipcMode
  network := data.network.or d.network
  allowedExec := data.allowedExec.or d.allowedExec
  tags := data.tags.or d.tags
  icon := data.icon.or d.icon
  createdAt := overwrite d.createdAt data.createdAt
  updatedAt := overwrite d.updatedAt data.updatedAt

/-! ### Rows -/

/-- A row of the table. -/
structure Row where
  id : String
  name : String
  description : String
  extendsId : Option String
  dockerfile : String
  image : Option String
  imageDigest : Option String
  systemPrompt : String
  resourcesJson : PyVal
  secretsJson : PyVal
  mountsJson : PyVal
  storageScope : String
  portsJson : PyVal
  runtime : String
  devicesJson : PyVal
  hardwareIntentsJson : PyVal
  environmentJson : PyVal
  healthcheckJson : PyVal
  preStartExecJson : PyVal
  capAddJson : PyVal
  securityOptJson : PyVal
  capDropJson : PyVal
  privileged : ℤ
  readOnlyRootfs : ℤ
  shmSize : String
  ipcMode : String
  network : String
  tagsJson : PyVal
  execPolicyJson : PyVal
  icon : String
  createdAt : String
  updatedAt : String
  isDeleted : Bool := false

/-- `_detail`. -/
structure BlueprintDetail where
  blueprintId : String
  name : String
  description : String
  version : String
  definition : Blueprint

/-- `_detail(blueprint)`. -/
def detail (b : Blueprint) : BlueprintDetail where
  blueprintId := b.id
  name := b.name
  description := b.description
  version := orElse (b.updatedAt.getD "") (b.createdAt.getD "")
  definition := b

/-- `_json_text`, as the value that is read from the text. -/
def jsonText (value : Option PyVal) (default : PyVal) : Except PyError PyVal :=
  match (value.getD default).jsonCopy with
  | some copy => .ok copy
  | none => .error .typeError

/-- `_normalize`; `now` is the time. -/
def normalize (data : Definition) (existing : Option BlueprintDetail) (now : String) :
    Except PyError Row := do
  let stored := (existing.map fun e => e.definition.modelDump).getD {}
  let definition := stored.update data
  let blueprintId := strip (orElse (data.id.getD "")
    (orElse ((existing.map (·.blueprintId)).getD "") (definition.id.getD "")))
  let name := strip (orElse (data.name.getD "")
    (orElse ((existing.map (·.name)).getD "") (definition.name.getD "")))
  if blueprintId = "" ∨ name = "" then throw (.valueError "id and name are required")
  let createdAt := orElse (strip (orElse ((existing.map (·.version)).getD "") now)) now
  return {
    id := blueprintId
    name := name
    description := definition.description.getD ""
    extendsId := definition.extendsId.join
    dockerfile := definition.dockerfile.getD ""
    image := definition.image.join
    imageDigest := definition.imageDigest.join
    systemPrompt := definition.systemPrompt.getD ""
    resourcesJson := ← jsonText (definition.resources.map (·.dump)) (.dict [])
    secretsJson := ← jsonText
      (definition.secretsRequired.map fun secrets => .list (secrets.map (·.dump))) (.list [])
    mountsJson := ← jsonText
      (definition.mounts.map fun mounts => .list (mounts.map (·.dump))) (.list [])
    storageScope := definition.storageScope.getD ""
    portsJson := ← jsonText (definition.ports.map textList) (.list [])
    runtime := definition.runtime.getD ""
    devicesJson := ← jsonText (definition.devices.map textList) (.list [])
    hardwareIntentsJson := ← jsonText
      (definition.hardwareIntents.map fun intents => .list (intents.map (·.dump))) (.list [])
    environmentJson := ← jsonText (definition.environment.map textDict) (.dict [])
    healthcheckJson := ← jsonText (definition.healthcheck.map .dict) (.dict [])
    preStartExecJson := ← jsonText (definition.preStartExec.join.map (·.dump)) (.dict [])
    capAddJson := ← jsonText (definition.capAdd.map textList) (.list [])
    securityOptJson := ← jsonText (definition.securityOpt.map textList) (.list [])
    capDropJson := ← jsonText (definition.capDrop.map textList) (.list [])
    privileged := if definition.privileged.getD false then 1 else 0
    readOnlyRootfs := if definition.readOnlyRootfs.getD false then 1 else 0
    shmSize := definition.shmSize.getD ""
    ipcMode := definition.ipcMode.getD ""
    network := (definition.network.map (·.toStr)).getD "internal"
    tagsJson := ← jsonText (definition.tags.map textList) (.list [])
    execPolicyJson := ← jsonText (definition.allowedExec.map textList) (.list [])
    icon := orElse (definition.icon.getD "") "📦"
    createdAt := createdAt
    updatedAt := now }

/-- `_row_to_blueprint`. -/
def rowToBlueprint (rt : PyRuntime) (row : Row) : Except PyError Blueprint := do
  return {
    id := row.id
    name := row.name
    description := row.description
    extendsId := row.extendsId
    dockerfile := row.dockerfile
    image := row.image
    imageDigest := row.imageDigest.filter (· != "")
    systemPrompt := row.systemPrompt
    resources := ← ResourceLimits.load row.resourcesJson
    secretsRequired := ← loadAll SecretRequirement.load row.secretsJson
    mounts := ← loadAll MountDef.load row.mountsJson
    storageScope := row.storageScope
    ports := ← texts rt row.portsJson
    runtime := row.runtime
    devices := ← texts rt row.devicesJson
    hardwareIntents := ← loadIntents row.hardwareIntentsJson
    environment := ← environmentOf rt row.environmentJson
    healthcheck := ← readDict row.healthcheckJson
    preStartExec := ← loadPreStartExec row.preStartExecJson
    capAdd := ← texts rt row.capAddJson
    securityOpt := ← texts rt row.securityOptJson
    capDrop := ← texts rt row.capDropJson
    privileged := row.privileged != 0
    readOnlyRootfs := row.readOnlyRootfs != 0
    shmSize := row.shmSize
    ipcMode := row.ipcMode
    network := ← networkMode row.network
    allowedExec := ← readTexts row.execPolicyJson
    tags := ← readTexts row.tagsJson
    icon := orElse row.icon "📦"
    createdAt := some row.createdAt
    updatedAt := some row.updatedAt }

/-! ### The operations -/

/-- The table. -/
structure Store where
  rows : List Row := []

/-- Why a call fails. -/
inductive StoreError where
  | raised (error : PyError)
  /-- An `sqlite3.IntegrityError`. -/
  | integrityError (text : String)
deriving DecidableEq, Repr

/-- What `_trust` returns. -/
structure Trust where
  level : String
  source : String
  imageRef : String
deriving DecidableEq, Repr

/-- `_trust`. -/
def trust (detail : Option BlueprintDetail) : Trust :=
  let imageRef := strip ((detail.bind (·.definition.image)).getD "")
  if ["python:", "node:", "postgres:", "nginx:", "redis:", "josh5/steam-headless"].any
      (startsWith imageRef ·) then
    ⟨"verified", "trusted-image-pattern", imageRef⟩
  else ⟨"unverified", "user-created", imageRef⟩

/-- What the operations return. -/
inductive StoreAnswer where
  | created (blueprint : Option BlueprintDetail) (trust : Trust)
  | updated (blueprint : Option BlueprintDetail) (trust : Trust)
  | notFound (error : String)
  | deleted (deleted : Bool) (blueprintId : String)

/-- A call of an operation, with the time at which it is made. -/
inductive StoreCall where
  | create (definition : Definition) (now : String)
  | update (blueprintId : String) (updates : Definition) (now : String)
  | delete (blueprintId : String) (now : String)

/-- The call returns what it was asked for. -/
def Succeeded : Except StoreError StoreAnswer → Bool
  | .ok (.created ..) => true
  | .ok (.updated ..) => true
  | .ok (.deleted found _) => found
  | _ => false

namespace Store

variable (rt : PyRuntime)

/-- The row of a blueprint that is not deleted. -/
def fetch (s : Store) (blueprintId : String) : Option Row :=
  s.rows.find? fun row => row.id == blueprintId && !row.isDeleted

/-- `get_blueprint`. -/
def getBlueprint (s : Store) (blueprintId : String) : Except PyError (Option Blueprint) :=
  match s.fetch blueprintId with
  | some row => some <$> rowToBlueprint rt row
  | none => .ok none

/-- The `INSERT` of `create_blueprint`. -/
def insert (s : Store) (row : Row) : Except StoreError Store :=
  if s.rows.any (·.id == row.id) then
    .error (.integrityError "UNIQUE constraint failed: blueprints.id")
  else .ok ⟨s.rows ++ [row]⟩

/-- The `UPDATE` of `update_blueprint`. -/
def overwriteRow (s : Store) (params : Row) : Store :=
  ⟨s.rows.map fun row => if row.id = params.id then
    { params with createdAt := row.createdAt, isDeleted := row.isDeleted } else row⟩

/-- `create_blueprint`. -/
def createBlueprint (s : Store) (definition : Definition) (now : String) :
    Store × Except StoreError StoreAnswer :=
  match normalize definition none now with
  | .error e => (s, .error (.raised e))
  | .ok params =>
    match s.insert params with
    | .error e => (s, .error e)
    | .ok s' =>
      match s'.getBlueprint rt params.id with
      | .error e => (s', .error (.raised e))
      | .ok blueprint =>
        (s', .ok (.created (blueprint.map detail) (trust (blueprint.map detail))))

/-- `update_blueprint`. -/
def updateBlueprint (s : Store) (blueprintId : String) (updates : Definition) (now : String) :
    Store × Except StoreError StoreAnswer :=
  match s.getBlueprint rt blueprintId with
  | .error e => (s, .error (.raised e))
  | .ok none => (s, .ok (.notFound ("Blueprint '" ++ blueprintId ++ "' not found")))
  | .ok (some existing) =>
    match normalize updates (some (detail existing)) now with
    | .error e => (s, .error (.raised e))
    | .ok params =>
      let s' := s.overwriteRow params
      match s'.getBlueprint rt blueprintId with
      | .error e => (s', .error (.raised e))
      | .ok blueprint =>
        (s', .ok (.updated (blueprint.map detail) (trust (blueprint.map detail))))

/-- `delete_blueprint`. -/
def deleteBlueprint (s : Store) (blueprintId : String) (now : String) :
    Store × Except StoreError StoreAnswer :=
  (⟨s.rows.map fun row => if row.id = blueprintId then
      { row with isDeleted := true, updatedAt := now } else row⟩,
    .ok (.deleted (s.rows.any (·.id == blueprintId)) blueprintId))

end Store

/-- The store as a system of its operations. -/
def blueprintStore (rt : PyRuntime) : System Store StoreCall (Except StoreError StoreAnswer) :=
  fun s call =>
    match call with
    | .create definition now => s.createBlueprint rt definition now
    | .update blueprintId updates now => s.updateBlueprint rt blueprintId updates now
    | .delete blueprintId now => s.deleteBlueprint blueprintId now

end Trion.Blueprints
