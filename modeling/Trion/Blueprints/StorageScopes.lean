import Trion.Blueprints.Models
import Trion.Library.OrderedDict
import Trion.Python.PosixPath

/-!
# Mounts and storage scopes

`validate_blueprint_mounts` lets a blueprint through whose mounts lie within the roots of its
storage scope; `start_runtime_container` makes the table of volumes for Docker from the same
mounts, and reads their texts in its own way.
-/

namespace Trion.Blueprints

open Trion.Python OrderedDict

/-! ### The scopes -/

/-- A root of a storage scope. -/
structure ScopeRoot where
  path : String := ""
  mode : String := "rw"
deriving DecidableEq, Repr

/-- The stored scopes, each with its roots. -/
abbrev Scopes := List (String × List ScopeRoot)

/-- `get_scope`. -/
def getScope (scopes : Scopes) (name : String) : Option (List ScopeRoot) :=
  get? scopes (strip name)

/-- `_RUNTIME_BIND_PREFIXES`. -/
def runtimeBindPrefixes : List String :=
  ["/dev", "/proc", "/sys", "/run/udev", "/run/dbus", "/run/user", "/var/run/dbus",
    "/tmp/.X11-unix"]

/-- `_is_within`. -/
def isWithin (cwd path root : String) : Bool :=
  commonpath (abspath cwd path) (abspath cwd root) == some (abspath cwd root)

/-- `_runtime_bind_prefix`. -/
def runtimeBindPrefix (cwd path : String) : Option String :=
  let normalized := abspath cwd (strip path)
  if startsWith normalized "/" then
    (runtimeBindPrefixes.map (abspath cwd)).find? fun candidate =>
      normalized == candidate || startsWith normalized (candidate ++ "/")
  else none

/-- `str(mount.type or "bind").strip().lower()`. -/
def mountType (rt : PyRuntime) (mount : MountDef) : String :=
  rt.lower (strip (orElse mount.type "bind"))

/-- `str(mount.mode or "rw").strip().lower()`. -/
def mountMode (rt : PyRuntime) (mount : MountDef) : String :=
  rt.lower (strip (orElse mount.mode "rw"))

/-- `os.path.abspath(str(root["path"]).strip())`. -/
def ScopeRoot.rootPath (cwd : String) (root : ScopeRoot) : String := abspath cwd (strip root.path)

/-- `str(root["mode"]).strip().lower()`. -/
def ScopeRoot.rootMode (rt : PyRuntime) (root : ScopeRoot) : String := rt.lower (strip root.mode)

/-- `_is_runtime_system_bind`. -/
def isRuntimeSystemBind (rt : PyRuntime) (cwd : String) (mount : MountDef) : Bool :=
  let hostRaw := strip mount.host
  let containerRaw := strip mount.container
  mountType rt mount == "bind" && strip (mount.assetId.getD "") == "" &&
    startsWith hostRaw "/" && startsWith containerRaw "/" &&
    (runtimeBindPrefix cwd (abspath cwd hostRaw)).isSome &&
    abspath cwd containerRaw == abspath cwd hostRaw

/-- The roots a mount is looked up in: whether one of them is matched, or the error. -/
def matchRoots (rt : PyRuntime) (cwd hostAbs mode : String) : List ScopeRoot → Except String Bool
  | [] => .ok false
  | root :: roots =>
    let rootPath := root.rootPath cwd
    if isWithin cwd hostAbs rootPath then
      if root.rootMode rt = "ro" ∧ mode = "rw" then
        .error ("storage_scope_mode_violation: mount '" ++ hostAbs ++
          "' wants rw but scope root '" ++ rootPath ++ "' is ro")
      else .ok true
    else matchRoots rt cwd hostAbs mode roots

/-- The check of a mount that is made without regard to the others. -/
def checkMount (rt : PyRuntime) (cwd scopeName : String) (roots : List ScopeRoot)
    (mount : MountDef) : Except String Unit :=
  if mountType rt mount = "volume" then .ok ()
  else if isRuntimeSystemBind rt cwd mount then .ok ()
  else
    let hostRaw := strip mount.host
    if hostRaw = "" then .error "invalid_mount_host_empty"
    else
      let hostAbs := abspath cwd hostRaw
      match matchRoots rt cwd hostAbs (mountMode rt mount) roots with
      | .error text => .error text
      | .ok true => .ok ()
      | .ok false =>
        if scopeName ≠ "" then
          .error ("storage_scope_violation: mount '" ++ hostAbs ++ "' is outside scope '" ++
            scopeName ++ "'")
        else
          .error ("storage_scope_required: mount '" ++ hostAbs ++
            "' needs an approved storage_scope")

/-- The checks of the mounts, one after the other. -/
def checkMounts (rt : PyRuntime) (cwd scopeName : String) (roots : List ScopeRoot) :
    List MountDef → Bool × String
  | [] => (true, "ok")
  | mount :: mounts =>
    match checkMount rt cwd scopeName roots mount with
    | .error text => (false, text)
    | .ok () => checkMounts rt cwd scopeName roots mounts

/-- The roots of the storage scope of a blueprint, or those allowed without one; or what is
wrong with the scope. -/
def allowedRoots (cwd : String) (scopes : Scopes) (bp : Blueprint) :
    Except String (List ScopeRoot) :=
  let scopeName := strip bp.storageScope
  if scopeName ≠ "" then
    match getScope scopes scopeName with
    | none => .error ("storage_scope_missing: '" ++ scopeName ++ "'")
    | some [] => .error ("storage_scope_empty: '" ++ scopeName ++ "'")
    | some roots => .ok roots
  else .ok [{ path := abspath cwd cwd, mode := "rw" }, { path := "/tmp", mode := "rw" }]

/-- `validate_blueprint_mounts`. -/
def validateBlueprintMounts (rt : PyRuntime) (cwd : String) (scopes : Scopes) (bp : Blueprint) :
    Bool × String :=
  if bp.mounts = [] then (true, "ok")
  else
    match allowedRoots cwd scopes bp with
    | .error text => (false, text)
    | .ok roots => checkMounts rt cwd (strip bp.storageScope) roots bp.mounts

/-! ### The volumes -/

/-- An entry of the table of volumes. -/
structure VolumeBind where
  bind : String
  mode : String
deriving DecidableEq, Repr

/-- The key of a mount in the table of volumes. -/
def hostPath (rt : PyRuntime) (cwd : String) (mount : MountDef) : String :=
  if mountType rt mount = "volume" then mount.host else abspath cwd mount.host

/-- `volume_name` of `start_runtime_container`. -/
def volumeName (blueprintId uniqueSuffix : String) (resumeVolume : Option String) : String :=
  orElse (resumeVolume.getD "") ("trion_ws_" ++ blueprintId ++ "_" ++ uniqueSuffix)

/-- `volumes` of `start_runtime_container`. -/
def startVolumes (rt : PyRuntime) (cwd blueprintId uniqueSuffix : String)
    (resumeVolume : Option String) (bp : Blueprint) : List (String × VolumeBind) :=
  insertAll (hostPath rt cwd) (fun mount => ⟨mount.container, mount.mode⟩)
    [(volumeName blueprintId uniqueSuffix resumeVolume, ⟨"/workspace", "rw"⟩)] bp.mounts

end Trion.Blueprints
