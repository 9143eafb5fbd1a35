import Trion.Python.DateTime
import Trion.Python.PosixPath

/-!
# Snapshots of volumes

`delete_snapshot`, `create_snapshot` and `restore_snapshot` join the name they are given to the
snapshot directory and go to the file system with what comes out.  For names without a slash
that end in `.tar.gz` this is a file of the directory, and for all other names they go wherever
the name leads.
-/

namespace Trion.Commander

open Trion.Python

/-! ### The file system and Docker -/

/-- A call of the file system, with its path. -/
inductive FileAccess where
  | exists (path : String)
  | makedirs (path : String)
  | write (path : String)
  | remove (path : String)
  | read (path : String)
  deriving DecidableEq

/-- The path of a file that is written, removed or read. -/
def FileAccess.file? : FileAccess → Option String
  | .write path | .remove path | .read path => some path
  | .exists _ | .makedirs _ => none

/-- The name of a volume, in which Docker allows no slash. -/
structure VolumeName where
  name : String
  noSlash : '/' ∉ name.toList

/-- What `client.volumes.get` comes to. -/
inductive VolumeLookup where
  | found
  | notFound
  | raises (text : String)
  deriving DecidableEq

/-- `client.volumes.get(volume_name)`, where the daemon answers. -/
def lookupVolume (volumes : List VolumeName) (error : Option String) (name : String) :
    VolumeLookup :=
  match error with
  | some text => .raises text
  | none => if volumes.any fun volume => volume.name = name then .found else .notFound

/-- The answers of the snapshot operations; `unavailable` is the error `RUNTIME_UNAVAILABLE`. -/
inductive SnapshotReply where
  | deleted (deleted : Bool) (filename : String)
  | created (created : Bool) (filename volume : String)
  | restored (restored : Bool) (volume filename : String)
  | unavailable (text : String)
  deriving DecidableEq

section Operations

variable (dir : String)

/-! ### Deleting -/

/-- `delete_snapshot`: `exists` is what `os.path.exists` says, and `removeError` what
`os.remove` raises. -/
def deleteSnapshot (filename : String) (exists_ : Bool) (removeError : Option String) :
    List FileAccess × SnapshotReply :=
  let filepath := posixJoin dir filename
  if exists_ then
    ([.exists filepath, .remove filepath],
      match removeError with
      | none => .deleted true filename
      | some text => .unavailable text)
  else ([.exists filepath], .deleted false filename)

/-! ### Creating -/

/-- `strftime("%Y%m%d_%H%M%S")`. -/
def snapshotTime (t : DateTime) : String :=
  String.ofList (padded 4 t.year ++ padded 2 t.month ++ padded 2 t.day ++ '_' ::
    (padded 2 t.hour ++ padded 2 t.minute ++ padded 2 t.second))

/-- The name of a new snapshot. -/
def snapshotFilename (volumeName tag : String) (t : DateTime) : String :=
  volumeName ++ (if tag = "" then "" else "_" ++ tag) ++ "_" ++ snapshotTime t ++ ".tar.gz"

/-- What the container of a backup comes to, up to the content of the archive. -/
inductive Backup where
  | raises (text : String)
  | fails
  | content

/-- What is answered in the course of `create_snapshot`. -/
structure CreateAnswers where
  clientError : Option String
  volumes : List VolumeName
  lookupError : Option String
  makedirsError : Option String
  backup : Backup
  writeError : Option String

/-- `create_snapshot`. -/
def createSnapshot (volumeName tag : String) (t : DateTime) (answers : CreateAnswers) :
    List FileAccess × SnapshotReply :=
  match answers.clientError with
  | some text => ([], .unavailable text)
  | none =>
    match lookupVolume answers.volumes answers.lookupError volumeName with
    | .notFound => ([], .created false "" volumeName)
    | .raises text => ([], .unavailable text)
    | .found =>
      let filename := snapshotFilename volumeName tag t
      let filepath := posixJoin dir filename
      match answers.makedirsError with
      | some text => ([.makedirs dir], .unavailable text)
      | none =>
        match answers.backup with
        | .raises text => ([.makedirs dir], .unavailable text)
        | .fails => ([.makedirs dir], .created false "" volumeName)
        | .content =>
          ([.makedirs dir, .write filepath],
            match answers.writeError with
            | some text => .unavailable text
            | none => .created true filename volumeName)

/-! ### Restoring -/

/-- `s.rsplit("_", 2)[0] if "_" in s else "restored"`. -/
def restoredBase (s : String) : String :=
  match (s.toList.splitOn '_').reverse with
  | _ :: _ :: base :: rest => String.ofList (['_'].intercalate (base :: rest).reverse)
  | [_, first] => String.ofList first
  | _ => "restored"

/-- What is answered in the course of `restore_snapshot`; `exit` is the status of the container,
unless something raises before it ends. -/
structure RestoreAnswers where
  clientError : Option String
  fileExists : Bool
  timestamp : ℕ
  volumes : List VolumeName
  lookupError : Option String
  volumeError : Option String
  containerError : Option String
  readError : Option String
  exit : Except String ℤ

/-- The error of the volume: it cannot be looked up, or it is not there and cannot be created. -/
def volumeFailure (volumeName : String) (answers : RestoreAnswers) : Option String :=
  match lookupVolume answers.volumes answers.lookupError volumeName with
  | .found => none
  | .notFound => answers.volumeError
  | .raises text => some text

/-- `restore_snapshot`, from the look-up of the volume on. -/
def restoreInto (snapshotFilename volumeName filepath : String) (answers : RestoreAnswers) :
    List FileAccess × SnapshotReply :=
  match (volumeFailure volumeName answers).or answers.containerError with
  | some text => ([], .unavailable text)
  | none =>
    ([.read filepath],
      match answers.readError with
      | some text => .unavailable text
      | none =>
        match answers.exit with
        | .error text => .unavailable text
        | .ok status =>
          if status = 0 then .restored true volumeName snapshotFilename
          else .restored false "" snapshotFilename)

/-- `restore_snapshot`. -/
def restoreSnapshot (snapshotFilename targetVolume : String) (answers : RestoreAnswers) :
    List FileAccess × SnapshotReply :=
  match answers.clientError with
  | some text => ([], .unavailable text)
  | none =>
    let filepath := posixJoin dir snapshotFilename
    if answers.fileExists then
      let volumeName := strip targetVolume
      let volumeName :=
        if volumeName = "" then
          restoredBase snapshotFilename ++ "_restored_" ++ toString answers.timestamp
        else volumeName
      let restored := restoreInto snapshotFilename volumeName filepath answers
      (.exists filepath :: restored.1, restored.2)
    else ([.exists filepath], .restored false "" snapshotFilename)

end Operations

/-! ### The files of the directory -/

/-- The name of a file of the snapshot directory: without a slash, with the ending of the
archives. -/
def IsSnapshotName (name : String) : Prop :=
  '/' ∉ name.toList ∧ ".tar.gz".toList <:+ name.toList

instance : DecidablePred IsSnapshotName :=
  fun name => inferInstanceAs (Decidable ('/' ∉ name.toList ∧ ".tar.gz".toList <:+ name.toList))

/-- What is written, removed or read is a file of the directory, and for any other name nothing is
asked of the file system. -/
structure StaysInside (dir name : String) (accesses : List FileAccess) : Prop where
  files : ∀ access ∈ accesses, ∀ path, access.file? = some path →
    ∃ child, IsSnapshotName child ∧ path = joinRelative dir child
  refused : ¬ IsSnapshotName name → accesses = []

variable {dir name filename volumeName tag target : String} {accesses : List FileAccess}

lemma staysInside_nil : StaysInside dir name [] where
  files := by simp
  refused := fun _ => rfl

/-- Where the file system is asked, the name has to be the name of a file of the directory. -/
lemma staysInside_iff (hasked : accesses ≠ [])
    (hfiles : ∀ access ∈ accesses, ∀ path, access.file? = some path → path = posixJoin dir name) :
    StaysInside dir name accesses ↔ IsSnapshotName name := by
  constructor
  · intro h
    by_contra hname
    exact hasked (h.refused hname)
  · intro hname
    have hrelative : startsWith name "/" = false := by
      by_contra hslash
      rw [Bool.not_eq_false] at hslash
      have hinitial : ['/'] <+: name.toList := List.isPrefixOf_iff_prefix.mp hslash
      exact hname.1 (hinitial.subset List.mem_cons_self)
    refine ⟨fun access haccess path hpath => ⟨name, hname, ?_⟩, fun h => absurd hname h⟩
    rw [hfiles access haccess path hpath]
    simp [posixJoin, hrelative]

/-- Deleting stays inside just for the names of files of the directory. -/
theorem deleteSnapshot_inside_iff (fileExists : Bool) (removeError : Option String) :
    StaysInside dir filename (deleteSnapshot dir filename fileExists removeError).1 ↔
      IsSnapshotName filename := by
  cases fileExists <;> exact staysInside_iff (by simp [deleteSnapshot])
    (by simp [deleteSnapshot, FileAccess.file?, eq_comm])

/-! ### The name of a new snapshot -/

lemma slash_notMem_padded {width n : ℕ} : '/' ∉ padded width n :=
  fun h => absurd (isDigit_of_mem_padded h) (by decide)

/-- A new name has a slash only where the tag has one. -/
lemma isSnapshotName_snapshotFilename (hvolume : '/' ∉ volumeName.toList) (t : DateTime) :
    IsSnapshotName (snapshotFilename volumeName tag t) ↔ '/' ∉ tag.toList := by
  have hending : ".tar.gz".toList <:+ (snapshotFilename volumeName tag t).toList := by
    rw [snapshotFilename, String.toList_append]
    exact List.suffix_append _ _
  rw [IsSnapshotName, and_iff_left hending]
  by_cases htag : tag = "" <;>
    simp [snapshotFilename, snapshotTime, hvolume, htag, slash_notMem_padded]

lemma noSlash_of_found {volumes : List VolumeName} {error : Option String}
    (h : lookupVolume volumes error volumeName = .found) : '/' ∉ volumeName.toList := by
  unfold lookupVolume at h
  split at h
  · cases h
  split at h
  · rename_i hany
    obtain ⟨volume, -, hname⟩ := List.any_eq_true.mp hany
    rw [← of_decide_eq_true hname]
    exact volume.noSlash
  · cases h

/-- Creating stays inside just where it stops before the file system, or the tag has no slash. -/
theorem createSnapshot_inside_iff (t : DateTime) (answers : CreateAnswers) :
    StaysInside dir (snapshotFilename volumeName tag t)
        (createSnapshot dir volumeName tag t answers).1 ↔
      answers.clientError.isSome ∨
        lookupVolume answers.volumes answers.lookupError volumeName ≠ .found ∨
        '/' ∉ tag.toList := by
  unfold createSnapshot
  cases answers.clientError with
  | some text => simp [staysInside_nil]
  | none =>
    cases hlookup : lookupVolume answers.volumes answers.lookupError volumeName with
    | notFound => simp [staysInside_nil]
    | raises text => simp [staysInside_nil]
    | found =>
      rw [← isSnapshotName_snapshotFilename (noSlash_of_found hlookup) t]
      simp only [Option.isSome_none, Bool.false_eq_true, ne_eq, not_true_eq_false, false_or]
      cases answers.makedirsError with
      | some text => exact staysInside_iff (by simp) (by simp [FileAccess.file?])
      | none =>
        cases answers.backup <;>
          exact staysInside_iff (by simp) (by simp [FileAccess.file?, eq_comm])

/-! ### Restoring -/

/-- Restoring stays inside just where there is no client, or for the names of files of the
directory. -/
theorem restoreSnapshot_inside_iff (answers : RestoreAnswers) :
    StaysInside dir filename (restoreSnapshot dir filename target answers).1 ↔
      answers.clientError.isSome ∨ IsSnapshotName filename := by
  unfold restoreSnapshot
  cases answers.clientError with
  | some text => simp [staysInside_nil]
  | none =>
    simp only [Option.isSome_none, Bool.false_eq_true, false_or]
    split
    · refine staysInside_iff (by simp) ?_
      have hread (volume : String) : ∀ access ∈ (restoreInto filename volume
          (posixJoin dir filename) answers).1, access = .read (posixJoin dir filename) := by
        unfold restoreInto
        cases (volumeFailure volume answers).or answers.containerError <;> simp
      intro access haccess path hpath
      obtain rfl | haccess := List.mem_cons.mp haccess
      · cases hpath
      · rw [hread _ access haccess] at hpath
        exact (Option.some.inj hpath).symm
    · exact staysInside_iff (by simp) (by simp [FileAccess.file?])

/-- The snapshot operations stay inside the directory just for the names of its files: a file name
without a slash and with the ending of the archives, and a tag without a slash. -/
theorem snapshots_inside_iff (dir : String) :
    (∀ filename fileExists removeError,
      StaysInside dir filename (deleteSnapshot dir filename fileExists removeError).1 ↔
        IsSnapshotName filename) ∧
    (∀ volumeName tag t answers,
      StaysInside dir (snapshotFilename volumeName tag t)
          (createSnapshot dir volumeName tag t answers).1 ↔
        answers.clientError.isSome ∨
          lookupVolume answers.volumes answers.lookupError volumeName ≠ .found ∨
          '/' ∉ tag.toList) ∧
    ∀ filename target answers,
      StaysInside dir filename (restoreSnapshot dir filename target answers).1 ↔
        answers.clientError.isSome ∨ IsSnapshotName filename :=
  ⟨fun _ => deleteSnapshot_inside_iff, fun _ _ => createSnapshot_inside_iff,
    fun _ _ => restoreSnapshot_inside_iff⟩

/-- A name that leads out of the directory. -/
theorem deleteSnapshot_outside :
    (deleteSnapshot "/app/data/snapshots" "../vault.db" true none).1 =
        [.exists "/app/data/snapshots/../vault.db", .remove "/app/data/snapshots/../vault.db"] ∧
      ¬ StaysInside "/app/data/snapshots" "../vault.db"
        (deleteSnapshot "/app/data/snapshots" "../vault.db" true none).1 := by
  refine ⟨by decide, fun h => ?_⟩
  have hnone := h.refused (by decide)
  simp [deleteSnapshot] at hnone

end Trion.Commander
