import Trion.Library.FileTree
import Trion.Python.Text

/-!
# The path policy of the filesystem server

A client names a target by a path relative to the configured root.  The path is split into
components as `PurePosixPath` does it, and the components are opened one after the other, each
in the directory opened before it.  Whatever happens, the descriptors that were opened on the
way are closed again.
-/

namespace Trion.Filesystem

open Trion.Python OrderedDict FileTree

/-- `FilesystemFailure`. -/
structure FilesystemFailure where
  code : String
  message : String
  retryable : Bool := false
deriving DecidableEq, Repr

/-! ### Relative paths -/

/-- `posixpath.splitroot`, without the drive that is always empty. -/
def splitRoot (path : String) : String × String :=
  match path.toList with
  | '/' :: '/' :: '/' :: rest => ("/", String.ofList ('/' :: '/' :: rest))
  | '/' :: '/' :: rest => ("//", String.ofList rest)
  | '/' :: rest => ("/", String.ofList rest)
  | _ => ("", path)

/-- `PurePosixPath(path).parts`. -/
def pathParts (path : String) : List String :=
  let split := splitRoot path
  let tail := (splitOn '/' split.2).filter fun part => part != "" && part != "."
  if split.1 = "" then tail else split.1 :: tail

/-- `PurePosixPath(path).is_absolute()`. -/
def isAbsolute (path : String) : Bool := (splitRoot path).1 != ""

/-- `"/".join(parts)`. -/
def joinSlash (parts : List String) : String :=
  String.ofList (['/'].intercalate (parts.map String.toList))

/-- `normalize_relative_path`. -/
def normalizeRelativePath (value : PyVal) (allowRoot : Bool) : Except FilesystemFailure String :=
  let raw? : Option String := match value with
    | .none => some ""
    | .str s => some s
    | _ => none
  match raw? with
  | none => .error ⟨"MALFORMED_REQUEST", "relative_path must be a string", false⟩
  | some raw =>
    if Char.ofNat 0 ∈ raw.toList then
      .error ⟨"MALFORMED_REQUEST", "relative_path contains a NUL byte", false⟩
    else if isAbsolute raw then
      .error ⟨"ABSOLUTE_PATH_FORBIDDEN", "relative_path must not be absolute", false⟩
    else
      let parts := pathParts raw
      if parts.any fun part => part ∈ ["", ".", ".."] then
        if allowRoot && raw ∈ ["", "."] then .ok ""
        else .error ⟨"OUTSIDE_ROOT", "relative_path must stay below the configured root", false⟩
      else if parts = [] then
        if allowRoot then .ok ""
        else .error ⟨"MALFORMED_REQUEST", "relative_path is required", false⟩
      else .ok (joinSlash parts)

/-! ### Opening -/

variable {ι : Type} (fs : FileSystem ι)

/-- `_failure_for_oserror`. -/
def failureForOSError (errno : Errno) (target : String) : FilesystemFailure :=
  match errno with
  | .loop | .manyLinks => ⟨"SYMLINK_ESCAPE", "symlinks are forbidden: " ++ target, false⟩
  | .noEntry => ⟨"NOT_FOUND", "target not found: " ++ target, false⟩
  | .notDirectory => ⟨"NOT_FOUND", "target component is not a directory: " ++ target, false⟩
  | .other _ => ⟨"OUTSIDE_ROOT", "target cannot be opened safely: " ++ target, false⟩

/-- `_open_root`, where `root` is what stands under the path of the root: a link is not
followed, and only a directory is opened. -/
def openRoot (root : Except Errno ι) (fds : Descriptors ι) :
    Except FilesystemFailure ℕ × Descriptors ι :=
  let opened : Except Errno ι := root.bind fun i => match fs.node i with
    | .directory _ => .ok i
    | _ => .error .notDirectory
  match opened with
  | .error errno => (.error (failureForOSError errno "configured root"), fds)
  | .ok i => (.ok (openDescriptor fs fds i).1, (openDescriptor fs fds i).2)

/-- `_is_symlink`. -/
def isSymlink (component : String) (parentFd : ℕ) (fds : Descriptors ι) : Bool :=
  ((get? fds parentFd).map fun dir => isLink fs dir component).getD false

/-- `_open_component`. -/
def openComponent (component : String) (flags : OpenFlags) (parentFd : ℕ) (fds : Descriptors ι) :
    Except FilesystemFailure ℕ × Descriptors ι :=
  let opened : Except Errno ι := match get? fds parentFd with
    | none => .error (.other 9)
    | some dir => openAt fs dir component flags
  match opened with
  | .error errno =>
    (.error (if isSymlink fs component parentFd fds then
      ⟨"SYMLINK_ESCAPE", "symlinks are forbidden: " ++ component, false⟩
      else failureForOSError errno component), fds)
  | .ok i => (.ok (openDescriptor fs fds i).1, (openDescriptor fs fds i).2)

/-- `OpenTarget`; of `stat_result` it keeps the node that `fstat` describes. -/
structure OpenTarget (ι : Type) where
  fd : ℕ
  relativePath : String
  statResult : Option (Node ι)

/-- The loop of `open_target`: the failure, if one is raised, the current descriptor, and the
descriptors that are open then. -/
def openComponents (rootFd : ℕ) :
    List String → ℕ → Descriptors ι → Option FilesystemFailure × ℕ × Descriptors ι
  | [], currentFd, fds => (none, currentFd, fds)
  | component :: components, currentFd, fds =>
    let flags : OpenFlags :=
      { noFollow := true, directory := !components.isEmpty, nonBlock := components.isEmpty }
    match openComponent fs component flags currentFd fds with
    | (.error failure, fds) => (some failure, currentFd, fds)
    | (.ok nextFd, fds) =>
      openComponents rootFd components nextFd
        (if currentFd = rootFd then fds else close fds currentFd)

/-- The `finally` block of `open_target`. -/
def closeTarget (rootFd currentFd : ℕ) (fds : Descriptors ι) : Descriptors ι :=
  close (if currentFd = rootFd then fds else close fds currentFd) rootFd

/-- What comes of entering `open_target`: it raises, or it yields a target that is closed on
leaving. -/
inductive Entered (ι : Type) where
  | raised (failure : FilesystemFailure) (fds : Descriptors ι)
  | yielded (target : OpenTarget ι) (rootFd : ℕ) (fds : Descriptors ι)

/-- `open_target` up to its `yield`. -/
def openTarget (root : Except Errno ι) (relativePath : PyVal) (allowRoot : Bool)
    (fds : Descriptors ι) : Entered ι :=
  match normalizeRelativePath relativePath allowRoot with
  | .error failure => .raised failure fds
  | .ok normalized =>
    match openRoot fs root fds with
    | (.error failure, fds) => .raised failure fds
    | (.ok rootFd, fds) =>
      let components := if normalized = "" then [] else splitOn '/' normalized
      match openComponents fs rootFd components rootFd fds with
      | (some failure, currentFd, fds) => .raised failure (closeTarget rootFd currentFd fds)
      | (none, currentFd, fds) =>
        .yielded ⟨currentFd, normalized, (get? fds currentFd).map fs.node⟩ rootFd fds

end Trion.Filesystem
