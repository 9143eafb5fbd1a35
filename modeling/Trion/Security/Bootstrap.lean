import Trion.Library.OperationRun
import Trion.Security.Contracts

/-!
# Provisioning the security material

`provision_security_material` looks whether the five files are there and creates them one after
the other where none is, each with `O_EXCL`; when a call raises, it removes what it has created.
Any number of runs work on the same paths, one call of the file system at a time, and at each
call it is left open whether the call raises.
-/

namespace Trion.Security

open OperationRun

/-! ### The files -/

/-- What is at a path: something from before the runs, of which `path.exists()` may know
nothing (a link that leads nowhere), a directory that a `mkdir` has made, or the file that a
run has created. -/
inductive Entry (Run : Type) where
  | earlier (visible : Bool) (content : List UInt8)
  | directory
  | created (run : Run) (content : List UInt8)
  deriving DecidableEq

/-- The entries of the file system. -/
abbrev Files (Path Run : Type) := Path → Option (Entry Run)

/-- The run that has created the file. -/
def Entry.owner {Run : Type} : Entry Run → Option Run
  | .created run _ => some run
  | _ => none

/-- What `path.exists()` says where the entry is. -/
def Entry.visible {Run : Type} : Entry Run → Bool
  | .earlier visible _ => visible
  | _ => true

section Files

variable {Path Run : Type} [DecidableEq Path] (files : Files Path Run)

/-- `path.exists()`. -/
def pathExists (path : Path) : Bool :=
  (files path).any Entry.visible

/-- The entry at the path is replaced, or removed. -/
def setEntry (path : Path) (entry : Option (Entry Run)) : Files Path Run :=
  fun p => if p = path then entry else files p

/-- The directories that `mkdir(parents=True)` has made: some of those above the path where
nothing was yet. -/
def makeDirectories (above made : List Path) : Files Path Run :=
  fun p => if (files p).isNone && p ∈ above && p ∈ made then some .directory else files p

/-- There is a directory at the path, which `unlink` does not remove. -/
def isDirectory (path : Path) : Bool :=
  match files path with
  | some .directory => true
  | _ => false

end Files

/-! ### A run -/

/-- The calls of `_write_new` in their order. -/
inductive Stage where
  | mkdir
  | create
  | fdopen
  | write
  | flush
  | fsync
  | close
  | chmod
  deriving DecidableEq

/-- The file that is being written has been created. -/
def Stage.hasFile : Stage → Bool
  | .mkdir | .create => false
  | _ => true

/-- The whole value is in the file. -/
def Stage.isFlushed : Stage → Bool
  | .fsync | .close | .chmod => true
  | _ => false

/-- Where a run stands: at an `exists` of the check, at a call of `_write_new`, at the `unlink`
of `_write_new`, at an `unlink` of the roll-back, or at its end. -/
inductive Phase (Path : Type) where
  | checking (present : List Bool) (path : Path) (rest : List Path)
  | writing (created : List Path) (path : Path) (value : List UInt8) (stage : Stage)
      (rest : List (Path × List UInt8))
  | unlinking (created : List Path) (path : Path)
  | rollingBack (path : Path) (rest : List Path)
  | returned (result : BootstrapResult)
  | raised
  deriving DecidableEq

/-- The run is over. -/
def Phase.ended {Path : Type} : Phase Path → Bool
  | .returned _ | .raised => true
  | _ => false

/-- The run is in an `except` clause: one of its calls has raised. -/
def Phase.inHandler {Path : Type} : Phase Path → Bool
  | .unlinking _ _ | .rollingBack _ _ => true
  | _ => false

/-- What the file system does at a call of a run: whether the call raises, which directories a
`mkdir` has made, and what an unfinished `write` or `flush` leaves in the file. -/
structure Call (Path Run : Type) where
  run : Run
  raises : Bool
  made : List Path
  left : List UInt8

section Provision

variable {Path Run : Type} [DecidableEq Path] (platform : Platform Path)
  (paths : SecurityPaths Path) (material : BootstrapMaterial)

/-- The `targets` of `provision_security_material`. -/
def targets : List (Path × List UInt8) :=
  [(paths.credentialHash,
      encode (hashCredential platform material.initialPassword material.credentialSalt)),
    (paths.sessionKey, material.sessionKey),
    (paths.secretResolveToken, encode material.secretResolveToken),
    (paths.memoryReadToken, encode material.memoryReadToken),
    (paths.sessionGeneration platform, [48, 10])]

/-- The paths of the targets. -/
def targetPaths : List Path :=
  (targets platform paths material).map Prod.fst

/-- The run before its first call. -/
def startPhase : Phase Path :=
  match targetPaths platform paths material with
  | path :: rest => .checking [] path rest
  | [] => .raised

/-- The loop goes on with the targets that are left, or returns. -/
def createNext (created : List Path) : List (Path × List UInt8) → Phase Path
  | [] => .returned { created := true, initialPassword := some material.initialPassword }
  | (path, value) :: rest => .writing created path value .mkdir rest

/-- The loop of the roll-back goes on with the paths that are left, or raises. -/
def rollBack : List Path → Phase Path
  | [] => .raised
  | path :: rest => .rollingBack path rest

/-- What follows when all of the paths have been looked at. -/
def decidePresent (present : List Bool) : Phase Path :=
  if present.all id then
    .returned { created := false, initialPassword := none }
  else if present.any id then
    .raised
  else
    createNext material [] (targets platform paths material)

variable {platform paths material}

/-- A call of `_write_new` that works. -/
def writeStep (platform : Platform Path) (material : BootstrapMaterial) (call : Call Path Run)
    (files : Files Path Run) (created : List Path) (path : Path) (value : List UInt8)
    (rest : List (Path × List UInt8)) : Stage → Files Path Run × Phase Path
  | .mkdir =>
    (makeDirectories files (platform.parents path) call.made,
      .writing created path value .create rest)
  | .create =>
    -- `O_EXCL`: whatever is at the path, the call raises `FileExistsError`
    if (files path).isSome then
      (files, rollBack created.reverse)
    else
      (setEntry files path (some (.created call.run [])),
        .writing created path value .fdopen rest)
  | .fdopen => (files, .writing created path value .write rest)
  | .write =>
    (setEntry files path (some (.created call.run call.left)),
      .writing created path value .flush rest)
  | .flush =>
    (setEntry files path (some (.created call.run value)),
      .writing created path value .fsync rest)
  | .fsync => (files, .writing created path value .close rest)
  | .close => (files, .writing created path value .chmod rest)
  | .chmod => (files, createNext material (created ++ [path]) rest)

/-- A call of `_write_new` that raises. -/
def writeFault (platform : Platform Path) (call : Call Path Run) (files : Files Path Run)
    (created : List Path) (path : Path) : Stage → Files Path Run × Phase Path
  | .mkdir =>
    (makeDirectories files (platform.parents path) call.made, rollBack created.reverse)
  | .create => (files, rollBack created.reverse)
  | .write | .flush =>
    (setEntry files path (some (.created call.run call.left)), .unlinking created path)
  | .fdopen | .fsync | .close | .chmod => (files, .unlinking created path)

/-- `path.unlink(missing_ok=True)`: the files after it, and whether it has raised. -/
def unlink (call : Call Path Run) (files : Files Path Run) (path : Path) :
    Files Path Run × Bool :=
  if call.raises || isDirectory files path then (files, true)
  else (setEntry files path none, false)

/-- The next call of a run of `provision_security_material`. -/
def runStep (platform : Platform Path) (paths : SecurityPaths Path)
    (material : BootstrapMaterial) (call : Call Path Run) (files : Files Path Run) :
    Phase Path → Files Path Run × Phase Path
  | .checking present path rest =>
    if call.raises then (files, .raised)
    else
      let present := present ++ [pathExists files path]
      match rest with
      | [] => (files, decidePresent platform paths material present)
      | next :: rest => (files, .checking present next rest)
  | .writing created path value stage rest =>
    if call.raises then writeFault platform call files created path stage
    else writeStep platform material call files created path value rest stage
  | .unlinking created path =>
    -- whether or not it raises, the roll-back of the caller follows
    ((unlink call files path).1, rollBack created.reverse)
  | .rollingBack path rest =>
    if (unlink call files path).2 then (files, .raised)
    else ((unlink call files path).1, rollBack rest)
  | .returned result => (files, .returned result)
  | .raised => (files, .raised)

end Provision

/-! ### The runs -/

/-- The files and where each of the runs stands. -/
structure BootstrapState (Path Run : Type) where
  files : Files Path Run
  runs : Run → Phase Path

section Runs

variable {Path Run : Type} [DecidableEq Path] [DecidableEq Run] (platform : Platform Path)
  (paths : SecurityPaths Path) (materials : Run → BootstrapMaterial)

/-- What `earlier` has at each path, and no run has made a call yet. -/
def bootstrapStart (earlier : Path → Option (Bool × List UInt8)) : BootstrapState Path Run where
  files := fun path => (earlier path).map fun entry => .earlier entry.1 entry.2
  runs := fun run => startPhase platform paths (materials run)

/-- A run makes its next call. -/
def provision : System (BootstrapState Path Run) (Call Path Run) Unit :=
  fun s call =>
    let next := runStep platform paths (materials call.run) call s.files (s.runs call.run)
    ({ files := next.1, runs := Function.update s.runs call.run next.2 }, ())

end Runs

/-- A run fails at one call: none of the calls with which it clears up afterwards raises. -/
def FailsOnce {Path Run : Type} (s : BootstrapState Path Run) (call : Call Path Run) : Prop :=
  call.raises = true → (s.runs call.run).inHandler = false

instance {Path Run : Type} (s : BootstrapState Path Run) (call : Call Path Run) :
    Decidable (FailsOnce s call) :=
  inferInstanceAs (Decidable (call.raises = true → (s.runs call.run).inHandler = false))

end Trion.Security
