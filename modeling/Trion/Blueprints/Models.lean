import Trion.Python.Value

/-!
# Blueprints

The data of `models.py` that a blueprint is made of.  A field that holds any value holds a
`PyVal`.
-/

namespace Trion.Blueprints

open Trion.Python

/-- `NetworkMode`. -/
inductive NetworkMode where
  | none
  | internal
  | bridge
  | full
deriving DecidableEq, Repr

/-- `NetworkMode.value`. -/
def NetworkMode.value : NetworkMode → String
  | .none => "none"
  | .internal => "internal"
  | .bridge => "bridge"
  | .full => "full"

/-- `ResourceLimits`. -/
structure ResourceLimits where
  cpuLimit : String := "1.0"
  memoryLimit : String := "512m"
  memorySwap : String := "1g"
  timeoutSeconds : ℤ := 300
  pidsLimit : ℤ := 100
deriving DecidableEq, Repr

/-- `MountDef`. -/
structure MountDef where
  host : String
  container : String
  type : String := "bind"
  mode : String := "rw"
  assetId : Option String := none
deriving DecidableEq, Repr

/-- `PreStartExec`. -/
structure PreStartExec where
  user : String := ""
  command : String := ""
deriving DecidableEq, Repr

/-- `HardwareIntent`. -/
structure HardwareIntent where
  resourceId : String
  targetType : String := "container"
  targetId : String := ""
  attachmentMode : String := "attach"
  policy : PyDict := []
  requestedBy : String := ""

/-- `SecretRequirement`. -/
structure SecretRequirement where
  name : String
  description : String := ""
  optional : Bool := false
deriving DecidableEq, Repr

/-- `Blueprint`. -/
structure Blueprint where
  id : String
  name : String
  description : String := ""
  extendsId : Option String := none
  dockerfile : String := ""
  image : Option String := none
  imageDigest : Option String := none
  systemPrompt : String := ""
  resources : ResourceLimits := {}
  secretsRequired : List SecretRequirement := []
  mounts : List MountDef := []
  storageScope : String := ""
  ports : List String := []
  runtime : String := ""
  devices : List String := []
  hardwareIntents : List HardwareIntent := []
  environment : List (String × String) := []
  healthcheck : PyDict := []
  preStartExec : Option PreStartExec := none
  capAdd : List String := []
  securityOpt : List String := []
  capDrop : List String := []
  privileged : Bool := false
  readOnlyRootfs : Bool := false
  shmSize : String := ""
  ipcMode : String := ""
  network : NetworkMode := .internal
  allowedExec : List String := []
  tags : List String := []
  icon : String := "📦"
  createdAt : Option String := none
  updatedAt : Option String := none

end Trion.Blueprints
