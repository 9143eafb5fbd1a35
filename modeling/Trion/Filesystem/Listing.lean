import Mathlib.Data.Prod.Lex
import Mathlib.Data.String.Basic
import Trion.Filesystem.PathPolicy
import Trion.Library.OrderedWalk

/-!
# Listings of the filesystem server

A listing walks the tree below a directory, each path opened from the root by the path policy.
The walk is bounded by a depth, by a number of visits, and by the number of names it takes from
one directory; a link is passed over.  The flags of a listing say whether it is complete.
-/

namespace Trion.Filesystem

open Trion.Python OrderedDict FileTree OrderedWalk

/-- What a listing raises. -/
inductive ListingError where
  | filesystem (failure : FilesystemFailure)
  | value (message : String)
deriving DecidableEq, Repr

/-- `bounded_value`. -/
def boundedValue (value : PyVal) (default hardCap : ℤ) (field : String) :
    Except FilesystemFailure ℤ :=
  match value with
  | .none => .ok default
  | .int n =>
    if n < 1 then .error ⟨"MALFORMED_REQUEST", field ++ " must be a positive integer", false⟩
    else if hardCap < n then
      .error ⟨"LIMIT_EXCEEDED", field ++ " exceeds hard cap " ++ toString hardCap, false⟩
    else .ok n
  | _ => .error ⟨"MALFORMED_REQUEST", field ++ " must be a positive integer", false⟩

def listDefaultEntries : ℤ := 100
def listMaxEntries : ℤ := 500
def listDefaultDepth : ℤ := 1
def listMaxDepth : ℤ := 8

inductive EntryType where
  | file
  | directory
deriving DecidableEq, Repr

/-- What a listing says of a path. -/
structure FileEntry where
  relativePath : String
  entryType : EntryType
  sizeBytes : Option ℕ
deriving DecidableEq, Repr

variable {ι : Type} (fs : FileSystem ι) (root : Except Errno ι)

/-- `entry_from_target`. -/
def entryFromTarget (target : OpenTarget ι) : Except FilesystemFailure FileEntry :=
  match target.statResult with
  | some (.directory _) => .ok ⟨target.relativePath, .directory, none⟩
  | some (.regular size) => .ok ⟨target.relativePath, .file, some size⟩
  | _ => .error ⟨"NOT_A_FILE", "target is not a regular file or directory", false⟩

/-- The names `os.scandir` yields, in the order in which the system gives them. -/
def scandir (fds : Descriptors ι) (fd : ℕ) : List String :=
  match (get? fds fd).map fs.node with
  | some (.directory entries) => keys entries
  | _ => []

/-- `_bounded_names`: one name more than the limit is taken before the names are sorted. -/
def boundedNames (names : List String) (limit : ℤ) : Except ListingError (List String × Bool) :=
  if limit + 1 < 0 then
    .error (.value "Stop argument for islice() must be None or an integer: 0 <= x <= sys.maxsize.")
  else
    let names := (names.take (limit + 1).toNat).insertionSort (· ≤ ·)
    .ok (names.take limit.toNat, decide (limit < names.length))

/-- The body of a `with open_target(...)` block, and the descriptors after it. -/
def withTarget {α : Type} (relativePath : PyVal) (allowRoot : Bool) (fds : Descriptors ι)
    (body : OpenTarget ι → Descriptors ι → Except ListingError α) :
    Except ListingError α × Descriptors ι :=
  match openTarget fs root relativePath allowRoot fds with
  | .raised failure fds => (.error (.filesystem failure), fds)
  | .yielded target rootFd fds => (body target fds, closeTarget rootFd target.fd fds)

/-- The local variables of `walk_entries`, and the open descriptors. -/
structure Scan (ι : Type) where
  entries : List FileEntry := []
  depthLimited : Bool := false
  scanLimited : Bool
  fds : Descriptors ι

/-- A path with its depth, as it stands in the heap. -/
abbrev Pending := Lex (String × ℕ)

/-- The `try` block of the loop of `walk_entries`, inside its `with`. -/
def visitTarget (maxDepth : ℤ) (remaining : ℕ) (current : String) (depth : ℕ) (s : Scan ι)
    (directory : OpenTarget ι) (fds : Descriptors ι) :
    Except ListingError (List Pending × Scan ι) :=
  match entryFromTarget directory with
  | .error failure => .error (.filesystem failure)
  | .ok entry =>
    let s := { s with entries := s.entries ++ [entry] }
    if entry.entryType = .directory then
      if (depth : ℤ) + 1 < maxDepth then do
        let (names, namesLimited) ← boundedNames (scandir fs fds directory.fd) remaining
        return (names.map fun name => toLex (current ++ "/" ++ name, depth + 1),
          { s with scanLimited := s.scanLimited || namesLimited })
      else return ([], { s with depthLimited := true })
    else return ([], s)

/-- A turn of the loop of `walk_entries`. -/
def walkTurn (maxDepth : ℤ) (remaining : ℕ) (pending : Pending) (s : Scan ι) :
    Except ListingError (List Pending × Scan ι) :=
  let current := (ofLex pending).1
  let depth := (ofLex pending).2
  match withTarget fs root (.str current) true s.fds
      (visitTarget fs maxDepth remaining current depth s) with
  | (.ok (children, s), fds) => .ok (children, { s with fds })
  | (.error (.filesystem failure), fds) =>
    if failure.code = "SYMLINK_ESCAPE" then .ok ([], { s with fds })
    else .error (.filesystem failure)
  | (.error e, _) => .error e

/-- The names of the directory a walk starts from. -/
def baseNames (scanLimit : ℤ) (directory : OpenTarget ι) (fds : Descriptors ι) :
    Except ListingError (List String × Bool) :=
  match directory.statResult with
  | some (.directory _) => boundedNames (scandir fs fds directory.fd) scanLimit
  | _ => .error (.filesystem ⟨"NOT_A_FILE", "list target must be a directory", false⟩)

/-- The heap a walk starts with. -/
def startPending (base : String) (names : List String) : List Pending :=
  enqueue [] (names.map fun name => toLex (if base = "" then name else base ++ "/" ++ name, 0))

/-- `walk_entries`: the entries, and the two flags. -/
def walkEntries (base : String) (maxDepth scanLimit : ℤ) (fds : Descriptors ι) :
    Except ListingError (List FileEntry × Bool × Bool) :=
  match withTarget fs root (.str base) true fds (baseNames fs scanLimit) with
  | (.error e, _) => .error e
  | (.ok (names, scanLimited), fds) => do
    let (pending, s) ← walk (walkTurn fs root maxDepth) scanLimit.toNat (startPending base names)
      { scanLimited, fds }
    return (s.entries, s.depthLimited, s.scanLimited || !pending.isEmpty)

/-- What `list_entries` returns; the first two keys are there for a given path only. -/
structure Listing where
  relativePath : Option String := none
  targetExists : Option Bool := none
  entries : List FileEntry
  complete : Bool
  truncated : Bool
deriving DecidableEq, Repr

/-- The branch of `list_entries` for a given path. -/
def listTarget (relativePath : PyVal) (fds : Descriptors ι) : Except ListingError Listing :=
  match normalizeRelativePath relativePath false with
  | .error failure => .error (.filesystem failure)
  | .ok normalized =>
    match (withTarget fs root (.str normalized) false fds fun target _ =>
        (entryFromTarget target).mapError ListingError.filesystem).1 with
    | .ok entry => .ok ⟨some normalized, some true, [entry], true, false⟩
    | .error (.filesystem failure) =>
      if failure.code = "NOT_FOUND" then .ok ⟨some normalized, some false, [], true, false⟩
      else .error (.filesystem failure)
    | .error e => .error e

/-- `list_entries`. -/
def listEntries (relativePath maxEntries maxDepth : PyVal) (fds : Descriptors ι) :
    Except ListingError Listing :=
  match boundedValue maxEntries listDefaultEntries listMaxEntries "max_entries" with
  | .error failure => .error (.filesystem failure)
  | .ok entryCap =>
    match boundedValue maxDepth listDefaultDepth listMaxDepth "max_depth" with
    | .error failure => .error (.filesystem failure)
    | .ok depthCap =>
      match relativePath with
      | .none => do
        let (entries, depthLimited, scanLimited) ←
          walkEntries fs root "" depthCap (entryCap + 1) fds
        let truncated := decide (entryCap < entries.length)
        return { entries := entries.take entryCap.toNat,
                 complete := !truncated && !depthLimited && !scanLimited, truncated }
      | relativePath => listTarget fs root relativePath fds

end Trion.Filesystem
