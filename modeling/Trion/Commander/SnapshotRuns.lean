import Mathlib.Data.List.Nodup
import Trion.Commander.Snapshots
import Trion.Library.OperationRun
import Trion.Library.OrderedDict

/-!
# Snapshots over time

`create_snapshot` and `delete_snapshot` change the snapshot directory, and `list_snapshots` reads
it.  The only trace of the volume a snapshot was taken from is the beginning of its name, and two
snapshots of one second may have one name.
-/

namespace Trion.Commander

open Trion.Python OrderedDict OperationRun

/-! ### The directory -/

/-- What a file of the directory comes from: its volume, and how many files were written
before it. -/
structure SnapshotFile where
  volume : String
  taken : ℕ
deriving DecidableEq

/-- The snapshot directory: whether it is there, its files, and how many files were written. -/
structure SnapshotDir where
  made : Bool
  files : List (String × SnapshotFile)
  taken : ℕ

/-- Before the first call. -/
def SnapshotDir.empty : SnapshotDir := ⟨false, [], 0⟩

/-- What is shown of `os.stat`: the size in megabytes and the time of the last change. -/
structure FileStat where
  sizeMb : PyFloat
  createdAt : String

/-- An item of `list_snapshots`. -/
structure SnapshotItem where
  filename : String
  stat : FileStat

/-- `list_snapshots`. -/
def listSnapshots (s : SnapshotDir) (stat : String → FileStat) (volumeName : String) :
    List SnapshotItem :=
  if s.made then
    (((keys s.files).mergeSort fun a b => b ≤ a).filter fun filename =>
      ".tar.gz".toList.isSuffixOf filename.toList &&
        (volumeName == "" || startsWith filename volumeName)).map
      fun filename => ⟨filename, stat filename⟩
  else []

/-- A call.  A write that fails may have opened the file before, and the file a deletion is asked
for may be outside of the directory. -/
inductive SnapshotCall where
  | create (volumeName tag : String) (t : DateTime) (answers : CreateAnswers) (opened : Bool)
  | delete (filename : String) (outside : Bool) (removeError : Option String)

section Calls

variable (dir : String) (leadsTo : String → Option String)

/-- What an access does to the directory; `volumeName` is the volume that is written. -/
def carryOut (volumeName : String) (s : SnapshotDir) : FileAccess → SnapshotDir
  | .makedirs _ => { s with made := true }
  | .write path =>
    match leadsTo path with
    | some filename =>
      { s with files := insert s.files filename ⟨volumeName, s.taken⟩, taken := s.taken + 1 }
    | none => s
  | .remove path =>
    match leadsTo path with
    | some filename => { s with files := erase s.files filename }
    | none => s
  | .exists _ | .read _ => s

/-- The accesses of `create_snapshot` that take effect. -/
def CreateAnswers.takesEffect (answers : CreateAnswers) (opened : Bool) : FileAccess → Bool
  | .makedirs _ => answers.makedirsError.isNone
  | .write _ => answers.writeError.isNone || opened
  | _ => true

/-- The snapshot operations, one call after the other. -/
def snapshotSystem : System SnapshotDir SnapshotCall SnapshotReply
  | s, .create volumeName tag t answers opened =>
    let r := createSnapshot dir volumeName tag t answers
    ((r.1.filter (answers.takesEffect opened)).foldl (carryOut leadsTo volumeName) s, r.2)
  | s, .delete filename outside removeError =>
    let fileExists := match leadsTo (posixJoin dir filename) with
      | some name => has s.files name
      | none => outside
    let r := deleteSnapshot dir filename fileExists removeError
    (if removeError.isNone then r.1.foldl (carryOut leadsTo "") s else s, r.2)

end Calls

/-! ### What is promised -/

/-- The listing of a volume gives just the snapshots taken from it. -/
def ListsOwn (s : SnapshotDir) (volumeName : String) : Prop :=
  ∀ stat, ((listSnapshots s stat volumeName).map SnapshotItem.filename).Perm
    (keys (s.files.filter fun e => e.2.volume = volumeName))

/-- What is promised of a call: the listing of the volume is right afterwards, and a successful
`create_snapshot` leaves every earlier file. -/
structure KeepsSnapshots (sys : System SnapshotDir SnapshotCall SnapshotReply)
    (volumeName : String) (s : SnapshotDir) (call : SnapshotCall) : Prop where
  lists : ListsOwn (sys s call).1 volumeName
  leaves : ∀ filename volume, (sys s call).2 = .created true filename volume →
    ∀ e ∈ s.files, e ∈ (sys s call).1.files

/-- The container of the backup is reached and gives its content. -/
def CreateAnswers.Reaches (answers : CreateAnswers) (volumeName : String) : Prop :=
  answers.clientError = none ∧
    lookupVolume answers.volumes answers.lookupError volumeName = .found ∧
    answers.makedirsError = none ∧ answers.backup = .content

/-- When a call keeps the promise to a volume: a file that is written for another volume does not
get a name beginning with that of the volume, and a file written in full gets a new name. -/
def Separate (volumeName : String) (s : SnapshotDir) : SnapshotCall → Prop
  | .create other tag t answers opened => answers.Reaches other →
      ((answers.writeError = none ∨ opened = true) → other ≠ volumeName →
        startsWith (snapshotFilename other tag t) volumeName = false) ∧
      (answers.writeError = none → has s.files (snapshotFilename other tag t) = false)
  | .delete _ _ _ => True

/-- The tag of a call has no slash. -/
def SnapshotCall.NoSlash : SnapshotCall → Prop
  | .create _ tag _ _ _ => '/' ∉ tag.toList
  | .delete _ _ _ => True

/-! ### What a call does -/

section Steps

variable {dir : String} {leadsTo : String → Option String} {s : SnapshotDir}
  {volumeName tag : String} {t : DateTime} {answers : CreateAnswers} {opened : Bool}

/-- A call that leaves the files, and is not answered with success. -/
structure LeavesFiles (s : SnapshotDir) (r : SnapshotDir × SnapshotReply) : Prop where
  files : r.1.files = s.files
  taken : r.1.taken = s.taken
  made : s.made = true → r.1.made = true
  failed : ∀ filename volume, r.2 ≠ .created true filename volume

lemma leavesFiles_self {reply : SnapshotReply}
    (h : ∀ filename volume, reply ≠ .created true filename volume) : LeavesFiles s (s, reply) :=
  ⟨rfl, rfl, id, h⟩

lemma leavesFiles_made {reply : SnapshotReply}
    (h : ∀ filename volume, reply ≠ .created true filename volume) :
    LeavesFiles s ({ s with made := true }, reply) :=
  ⟨rfl, rfl, fun _ => rfl, h⟩

/-- Where the backup is not reached, `create_snapshot` leaves the files. -/
lemma create_stops (h : ¬answers.Reaches volumeName) :
    LeavesFiles s
      (snapshotSystem dir leadsTo s (.create volumeName tag t answers opened)) := by
  obtain ⟨clientError, volumes, lookupError, makedirsError, backup, writeError⟩ := answers
  simp only [snapshotSystem, createSnapshot]
  cases clientError with
  | some text => exact leavesFiles_self nofun
  | none =>
    cases hlookup : lookupVolume volumes lookupError volumeName with
    | notFound => exact leavesFiles_self nofun
    | raises text => exact leavesFiles_self nofun
    | found =>
      cases makedirsError with
      | some text => exact leavesFiles_self nofun
      | none =>
        cases backup with
        | raises text => exact leavesFiles_made nofun
        | fails => exact leavesFiles_made nofun
        | content => exact absurd ⟨rfl, hlookup, rfl, rfl⟩ h

lemma posixJoin_snapshotFilename (hvolume : '/' ∉ volumeName.toList) (hslash : '/' ∉ tag.toList) :
    posixJoin dir (snapshotFilename volumeName tag t) =
      joinRelative dir (snapshotFilename volumeName tag t) := by
  have hname := (isSnapshotName_snapshotFilename hvolume t).mpr hslash
  have hrelative : startsWith (snapshotFilename volumeName tag t) "/" = false := by
    by_contra hstarts
    rw [Bool.not_eq_false] at hstarts
    exact hname.1 ((List.isPrefixOf_iff_prefix.mp hstarts).subset List.mem_cons_self)
  rw [posixJoin, hrelative]
  rfl

/-- Where it is reached, the file is written, unless it cannot even be opened. -/
lemma create_writes (hdir : ∀ name, IsSnapshotName name →
      leadsTo (joinRelative dir name) = some name) (hslash : '/' ∉ tag.toList)
    (h : answers.Reaches volumeName) :
    snapshotSystem dir leadsTo s (.create volumeName tag t answers opened) =
      (if (answers.writeError.isNone || opened) = true then
          ⟨true, insert s.files (snapshotFilename volumeName tag t) ⟨volumeName, s.taken⟩,
            s.taken + 1⟩
        else { s with made := true },
        match answers.writeError with
        | some text => .unavailable text
        | none => .created true (snapshotFilename volumeName tag t) volumeName) := by
  obtain ⟨clientError, volumes, lookupError, makedirsError, backup, writeError⟩ := answers
  obtain ⟨rfl, hlookup, rfl, rfl⟩ := h
  have hvolume := noSlash_of_found hlookup
  have hname := hdir _ ((isSnapshotName_snapshotFilename hvolume t).mpr hslash)
  simp only [snapshotSystem, createSnapshot, hlookup, posixJoin_snapshotFilename hvolume hslash]
  refine Prod.ext ?_ (by cases writeError <;> rfl)
  cases hopen : writeError.isNone || opened <;>
    simp [List.filter_cons, CreateAnswers.takesEffect, hopen, carryOut, hname]

/-- A deletion takes at most one file away. -/
lemma delete_cases (filename : String) (outside : Bool) (removeError : Option String) :
    LeavesFiles s (snapshotSystem dir leadsTo s (.delete filename outside removeError)) ∨
      ∃ name, LeavesFiles { s with files := erase s.files name }
        (snapshotSystem dir leadsTo s (.delete filename outside removeError)) := by
  have hreply (fileExists : Bool) : ∀ filename' volume,
      (deleteSnapshot dir filename fileExists removeError).2 ≠
        .created true filename' volume := by
    cases fileExists <;> cases removeError <;> exact nofun
  have hkeep (fileExists : Bool) :
      LeavesFiles s (s, (deleteSnapshot dir filename fileExists removeError).2) :=
    leavesFiles_self (hreply fileExists)
  simp only [snapshotSystem]
  cases removeError with
  | some text => exact .inl (hkeep _)
  | none =>
    cases hname : leadsTo (posixJoin dir filename) with
    | none =>
      have hstate : (deleteSnapshot dir filename outside none).1.foldl (carryOut leadsTo "") s =
          s := by
        cases outside <;> simp [deleteSnapshot, carryOut, hname]
      simp only [Option.isNone_none, if_true, hstate]
      exact .inl (hkeep outside)
    | some name =>
      cases hhas : has s.files name with
      | false =>
        simp only [hhas]
        exact .inl (hkeep false)
      | true =>
        refine .inr ⟨name, ?_⟩
        have hstate : (deleteSnapshot dir filename true none).1.foldl (carryOut leadsTo "") s =
            { s with files := erase s.files name } := by
          simp [deleteSnapshot, carryOut, hname]
        simp only [hhas, Option.isNone_none, if_true, hstate]
        exact leavesFiles_self (hreply true)

end Steps

/-! ### Names -/

/-- What is known of the directory in every state: names are distinct, every file has the name of
a snapshot of its volume, and files are numbered in the order they were written. -/
structure SnapshotDir.Sound (s : SnapshotDir) : Prop where
  nodup : (keys s.files).Nodup
  made : s.made = false → s.files = []
  named : ∀ e ∈ s.files, ∃ tag t, e.1 = snapshotFilename e.2.volume tag t
  numbered : ∀ e ∈ s.files, e.2.taken < s.taken

section Names

variable {s : SnapshotDir} {volumeName tag : String} {t : DateTime}

lemma startsWith_snapshotFilename :
    startsWith (snapshotFilename volumeName tag t) volumeName = true := by
  rw [startsWith, List.isPrefixOf_iff_prefix, snapshotFilename]
  simp only [String.toList_append, List.append_assoc]
  exact List.prefix_append _ _

lemma endsWith_snapshotFilename :
    ".tar.gz".toList.isSuffixOf (snapshotFilename volumeName tag t).toList = true := by
  rw [List.isSuffixOf_iff_suffix, snapshotFilename, String.toList_append]
  exact List.suffix_append _ _

/-- The listing of a volume holds the files whose names begin with it. -/
lemma map_filename_listSnapshots (hs : s.Sound) (stat : String → FileStat) (volumeName : String) :
    ((listSnapshots s stat volumeName).map SnapshotItem.filename).Perm
      (keys (s.files.filter fun e => startsWith e.1 volumeName)) := by
  unfold listSnapshots
  split_ifs with hmade
  · rw [List.map_map, show SnapshotItem.filename ∘ (fun filename =>
      (⟨filename, stat filename⟩ : SnapshotItem)) = id from rfl, List.map_id]
    refine ((List.mergeSort_perm _ _).filter _).trans ?_
    rw [keys, keys, List.filter_map]
    refine List.Perm.of_eq (congrArg _ (List.filter_congr fun e he => ?_))
    obtain ⟨tag, t, hname⟩ := hs.named e he
    show (".tar.gz".toList.isSuffixOf e.1.toList &&
      (volumeName == "" || startsWith e.1 volumeName)) = startsWith e.1 volumeName
    rw [hname, endsWith_snapshotFilename, Bool.true_and]
    by_cases hempty : volumeName = ""
    · subst hempty
      simp [startsWith]
    · simp [hempty]
  · rw [hs.made (by simpa using hmade)]
    exact List.Perm.refl _

/-- The listing of a volume is right just where no file of another volume has a name that begins
with the name of the volume. -/
lemma listsOwn_iff (hs : s.Sound) : ListsOwn s volumeName ↔
    ∀ e ∈ s.files, e.2.volume ≠ volumeName → startsWith e.1 volumeName = false := by
  have hstarts : ∀ e ∈ s.files, e.2.volume = volumeName → startsWith e.1 volumeName = true := by
    intro e he hvolume
    obtain ⟨tag, t, hname⟩ := hs.named e he
    rw [hname, hvolume]
    exact startsWith_snapshotFilename
  constructor
  · intro h e he hother
    by_contra hstart
    rw [Bool.not_eq_false] at hstart
    have hlisted := (h fun _ => ⟨.nan, ""⟩).symm.trans
      (map_filename_listSnapshots hs (fun _ => ⟨.nan, ""⟩) volumeName)
    have hmem : e.1 ∈ keys (s.files.filter fun e => e.2.volume = volumeName) :=
      hlisted.mem_iff.mpr (List.mem_map_of_mem (List.mem_filter.mpr ⟨he, hstart⟩))
    obtain ⟨e', he', hkey⟩ := List.mem_map.mp hmem
    obtain ⟨he', hvolume⟩ := List.mem_filter.mp he'
    obtain rfl : e' = e := List.inj_on_of_nodup_map hs.nodup he' he hkey
    exact hother (of_decide_eq_true hvolume)
  · intro h stat
    refine (map_filename_listSnapshots hs stat volumeName).trans (List.Perm.of_eq ?_)
    refine congrArg keys (List.filter_congr fun e he => ?_)
    by_cases hvolume : e.2.volume = volumeName
    · simp [hvolume, hstarts e he hvolume]
    · simp [hvolume, h e he hvolume]

/-! ### Every call -/

lemma SnapshotDir.sound_empty : SnapshotDir.empty.Sound where
  nodup := List.nodup_nil
  made := fun _ => rfl
  named := nofun
  numbered := nofun

lemma LeavesFiles.sound {r : SnapshotDir × SnapshotReply} (h : LeavesFiles s r) (hs : s.Sound) :
    r.1.Sound where
  nodup := by
    rw [h.files]
    exact hs.nodup
  made := fun hmade => by
    rw [h.files]
    refine hs.made (Bool.eq_false_iff.mpr fun htrue => ?_)
    rw [h.made htrue] at hmade
    cases hmade
  named := by
    rw [h.files]
    exact hs.named
  numbered := by
    rw [h.files, h.taken]
    exact hs.numbered

lemma LeavesFiles.listsOwn {r : SnapshotDir × SnapshotReply} (h : LeavesFiles s r) (hs : s.Sound)
    (hown : ListsOwn s volumeName) : ListsOwn r.1 volumeName := by
  rw [listsOwn_iff (h.sound hs), h.files]
  exact (listsOwn_iff hs).mp hown

lemma mem_of_mem_erase {name : String} {e : String × SnapshotFile}
    (h : e ∈ erase s.files name) : e ∈ s.files :=
  (List.mem_filter.mp h).1

lemma SnapshotDir.Sound.erase (hs : s.Sound) (name : String) :
    SnapshotDir.Sound { s with files := OrderedDict.erase s.files name } where
  nodup := nodup_keys_erase hs.nodup
  made := fun hmade => by
    show OrderedDict.erase s.files name = []
    rw [hs.made hmade]
    rfl
  named := fun e he => hs.named e (mem_of_mem_erase he)
  numbered := fun e he => hs.numbered e (mem_of_mem_erase he)

lemma listsOwn_erase (hs : s.Sound) (hown : ListsOwn s volumeName) (name : String) :
    ListsOwn { s with files := OrderedDict.erase s.files name } volumeName := by
  rw [listsOwn_iff (hs.erase name)]
  exact fun e he => (listsOwn_iff hs).mp hown e (mem_of_mem_erase he)

/-- The directory with one more file. -/
def SnapshotDir.written (s : SnapshotDir) (volumeName tag : String) (t : DateTime) : SnapshotDir :=
  ⟨true, insert s.files (snapshotFilename volumeName tag t) ⟨volumeName, s.taken⟩, s.taken + 1⟩

/-- The files with one more: the new one, and the others of other names. -/
lemma mem_written (hs : s.Sound) {e : String × SnapshotFile} :
    e ∈ (s.written volumeName tag t).files ↔
      e = (snapshotFilename volumeName tag t, ⟨volumeName, s.taken⟩) ∨
        e.1 ≠ snapshotFilename volumeName tag t ∧ e ∈ s.files := by
  obtain ⟨name, file⟩ := e
  rw [SnapshotDir.written, mem_iff_get? (nodup_keys_insert hs.nodup), get?_insert,
    mem_iff_get? hs.nodup, Prod.mk.injEq]
  split_ifs with hname
  · simp [hname, eq_comm]
  · simp [hname]

lemma SnapshotDir.Sound.written (hs : s.Sound) (volumeName tag : String) (t : DateTime) :
    (s.written volumeName tag t).Sound where
  nodup := nodup_keys_insert hs.nodup
  made := nofun
  named := fun e he => by
    rcases (mem_written hs).mp he with rfl | ⟨-, he⟩
    · exact ⟨tag, t, rfl⟩
    · exact hs.named e he
  numbered := fun e he => by
    rcases (mem_written hs).mp he with rfl | ⟨-, he⟩
    · exact Nat.lt_succ_self _
    · exact (hs.numbered e he).trans (Nat.lt_succ_self _)

lemma listsOwn_written_iff (hs : s.Sound) (hown : ListsOwn s volumeName) (other tag : String)
    (t : DateTime) : ListsOwn (s.written other tag t) volumeName ↔
      (other ≠ volumeName → startsWith (snapshotFilename other tag t) volumeName = false) := by
  rw [listsOwn_iff (hs.written other tag t)]
  constructor
  · exact fun h hother => h _ ((mem_written hs).mpr (.inl rfl)) hother
  · intro h e he hvolume
    rcases (mem_written hs).mp he with rfl | ⟨-, he⟩
    · exact h hvolume
    · exact (listsOwn_iff hs).mp hown e he hvolume

/-- Earlier files are left just where the name is new. -/
lemma written_leaves_iff (hs : s.Sound) : (∀ e ∈ s.files, e ∈ (s.written volumeName tag t).files) ↔
    has s.files (snapshotFilename volumeName tag t) = false := by
  constructor
  · intro h
    by_contra hhas
    rw [Bool.not_eq_false, has_iff, Option.isSome_iff_exists] at hhas
    obtain ⟨file, hfile⟩ := hhas
    have he := (mem_iff_get? hs.nodup).mpr hfile
    rcases (mem_written hs).mp (h _ he) with hnew | ⟨hname, -⟩
    · -- the file of that name would have the number of the new one
      have hnumber := hs.numbered _ he
      rw [(Prod.ext_iff.mp hnew).2] at hnumber
      exact lt_irrefl _ hnumber
    · exact hname rfl
  · intro hhas e he
    refine (mem_written hs).mpr (.inr ⟨?_, he⟩)
    rintro hname
    rw [has_eq_false_iff, ← hname] at hhas
    rw [(mem_iff_get? hs.nodup).mp he] at hhas
    cases hhas

end Names

section Runs

variable {dir : String} {leadsTo : String → Option String} {s : SnapshotDir}

/-- A call that leaves the files keeps the promise. -/
lemma LeavesFiles.keeps {volumeName : String} {sys : System SnapshotDir SnapshotCall SnapshotReply}
    {call : SnapshotCall} (h : LeavesFiles s (sys s call)) (hs : s.Sound)
    (hown : ListsOwn s volumeName) : KeepsSnapshots sys volumeName s call where
  lists := h.listsOwn hs hown
  leaves := fun filename volume hreply => absurd hreply (h.failed filename volume)

lemma keepsSnapshots_iff {volumeName : String}
    {sys : System SnapshotDir SnapshotCall SnapshotReply} {call : SnapshotCall} :
    KeepsSnapshots sys volumeName s call ↔ ListsOwn (sys s call).1 volumeName ∧
      ∀ filename volume, (sys s call).2 = .created true filename volume →
        ∀ e ∈ s.files, e ∈ (sys s call).1.files :=
  ⟨fun h => ⟨h.lists, h.leaves⟩, fun h => ⟨h.1, h.2⟩⟩

/-- One call: the directory stays sound, and the promise is kept just where the call is
separate. -/
lemma snapshotSystem_step (hdir : ∀ name, IsSnapshotName name →
      leadsTo (joinRelative dir name) = some name) {volumeName : String} (hs : s.Sound)
    (hown : ListsOwn s volumeName) {call : SnapshotCall} (hslash : call.NoSlash) :
    (snapshotSystem dir leadsTo s call).1.Sound ∧
      (KeepsSnapshots (snapshotSystem dir leadsTo) volumeName s call ↔
        Separate volumeName s call) := by
  cases call with
  | delete filename outside removeError =>
    rcases @delete_cases dir leadsTo s filename outside removeError with
      h | ⟨name, h⟩
    · exact ⟨h.sound hs, iff_of_true (h.keeps hs hown) trivial⟩
    · refine ⟨h.sound (hs.erase name), iff_of_true ⟨?_, ?_⟩ trivial⟩
      · exact h.listsOwn (hs.erase name) (listsOwn_erase hs hown name)
      · exact fun filename volume hreply => absurd hreply (h.failed filename volume)
  | create other tag t answers opened =>
    by_cases hreach : answers.Reaches other
    · have hstep := @create_writes _ _ s _ _ t _ opened hdir hslash hreach
      by_cases hopens : answers.writeError = none ∨ opened = true
      · rw [if_pos (by simpa using hopens)] at hstep
        rw [keepsSnapshots_iff, hstep]
        refine ⟨hs.written other tag t, ?_⟩
        have hlists := listsOwn_written_iff hs hown other tag t
        have hleaves := @written_leaves_iff _ other tag t hs
        show ListsOwn (s.written other tag t) volumeName ∧ _ ↔ _
        rw [hlists, Separate]
        cases hwrite : answers.writeError with
        | some text =>
          refine ⟨fun h _ => ⟨fun _ => h.1, nofun⟩, fun h => ⟨(h hreach).1 (by simpa [hwrite] using
            hopens), nofun⟩⟩
        | none =>
          refine ⟨fun h _ => ⟨fun _ => h.1, fun _ => hleaves.mp (h.2 _ _ rfl)⟩, fun h => ?_⟩
          exact ⟨(h hreach).1 (.inl rfl), fun _ _ _ => hleaves.mpr ((h hreach).2 rfl)⟩
      · -- the file cannot be opened
        obtain ⟨hwrite, hopened⟩ := not_or.mp hopens
        rw [if_neg (by simpa using hopens)] at hstep
        have h : LeavesFiles s (snapshotSystem dir leadsTo s
            (.create other tag t answers opened)) := by
          rw [hstep]
          cases herror : answers.writeError with
          | none => exact absurd herror hwrite
          | some text => exact leavesFiles_made nofun
        exact ⟨h.sound hs, iff_of_true (h.keeps hs hown)
          fun _ => ⟨fun hopens' => absurd hopens' hopens, fun hnone => absurd hnone hwrite⟩⟩
    · have h := @create_stops dir leadsTo s _ tag t _ opened hreach
      exact ⟨h.sound hs, iff_of_true (h.keeps hs hown) fun h => absurd h hreach⟩

/-- In a run of calls whose tags have no slash, the listing of a volume is right after every call
and no snapshot is overwritten, just where every call is separate. -/
theorem snapshots_kept_iff (hdir : ∀ name, IsSnapshotName name →
      leadsTo (joinRelative dir name) = some name) (volumeName : String)
    {calls : List SnapshotCall} (hslash : ∀ call ∈ calls, call.NoSlash) :
    (snapshotSystem dir leadsTo).Always
        (KeepsSnapshots (snapshotSystem dir leadsTo) volumeName) .empty calls ↔
      (snapshotSystem dir leadsTo).Always (Separate volumeName) .empty calls := by
  have hall : ∀ s : SnapshotDir, s.Sound → ListsOwn s volumeName →
      ((snapshotSystem dir leadsTo).Always
          (KeepsSnapshots (snapshotSystem dir leadsTo) volumeName) s calls ↔
        (snapshotSystem dir leadsTo).Always (Separate volumeName) s calls) := by
    induction calls with
    | nil => exact fun _ _ _ => Iff.rfl
    | cons call calls ih =>
      intro s hs hown
      obtain ⟨hcall, hcalls⟩ := List.forall_mem_cons.mp hslash
      obtain ⟨hsound, hiff⟩ := snapshotSystem_step hdir hs hown hcall
      constructor
      · exact fun h => ⟨hiff.mp h.1, (ih hcalls _ hsound h.1.lists).mp h.2⟩
      · intro h
        have hkeeps := hiff.mpr h.1
        exact ⟨hkeeps, (ih hcalls _ hsound hkeeps.lists).mpr h.2⟩
  exact hall .empty SnapshotDir.sound_empty ((listsOwn_iff SnapshotDir.sound_empty).mpr nofun)

end Runs

/-! ### Names that begin alike, and calls within one second -/

/-- The file of a directory that a path leads to, where it is written without detours. -/
def childOf (dir path : String) : Option String :=
  if startsWith path (dir ++ "/") then
    some (String.ofList (path.toList.drop (dir ++ "/").toList.length))
  else none

lemma childOf_append (dir name : String) : childOf dir (dir ++ "/" ++ name) = some name := by
  have hpath : (dir ++ "/" ++ name).toList = (dir ++ "/").toList ++ name.toList :=
    String.toList_append
  have hstarts : startsWith (dir ++ "/" ++ name) (dir ++ "/") = true := by
    rw [startsWith, List.isPrefixOf_iff_prefix, hpath]
    exact List.prefix_append _ _
  rw [childOf, if_pos hstarts, hpath, List.drop_left, String.ofList_toList]

/-- `SNAPSHOT_DIR` as it is by default. -/
def snapshotDir : String := "/app/data/snapshots"

lemma childOf_joinRelative (name : String) :
    childOf snapshotDir (joinRelative snapshotDir name) = some name := by
  rw [joinRelative, if_neg (by decide +kernel)]
  exact childOf_append snapshotDir name

/-- The snapshot operations on the default directory. -/
def defaultSystem : System SnapshotDir SnapshotCall SnapshotReply :=
  snapshotSystem snapshotDir (childOf snapshotDir)

/-- A moment. -/
def snapshotMoment : DateTime := ⟨2026, 4, 7, 9, 30, 0, 0, by decide⟩

/-- A `create_snapshot` without a tag that goes through. -/
def snapshotOf (volume : VolumeName) : SnapshotCall :=
  .create volume.name "" snapshotMoment ⟨none, [volume], none, none, .content, none⟩ true

theorem snapshots_kept_data :
    defaultSystem.Always (KeepsSnapshots defaultSystem "data") .empty
        [snapshotOf ⟨"data", by decide⟩, snapshotOf ⟨"web", by decide⟩] ↔
      defaultSystem.Always (Separate "data") .empty
        [snapshotOf ⟨"data", by decide⟩, snapshotOf ⟨"web", by decide⟩] :=
  snapshots_kept_iff (fun name _ => childOf_joinRelative name) "data" (by
    intro call hcall
    rcases List.mem_pair.mp hcall with rfl | rfl <;> exact List.not_mem_nil)

/-- The listing of `data` gives the snapshot of `data2`, and of two snapshots of one volume within
one second only the second is left. -/
theorem not_keepsSnapshots :
    ¬defaultSystem.Always (KeepsSnapshots defaultSystem "data") .empty
        [snapshotOf ⟨"data2", by decide⟩] ∧
      ¬defaultSystem.Always (KeepsSnapshots defaultSystem "data") .empty
        [snapshotOf ⟨"data", by decide⟩, snapshotOf ⟨"data", by decide⟩] := by
  have hdir : ∀ name, IsSnapshotName name →
      childOf snapshotDir (joinRelative snapshotDir name) = some name :=
    fun name _ => childOf_joinRelative name
  have hempty : ListsOwn .empty "data" := (listsOwn_iff SnapshotDir.sound_empty).mpr nofun
  have hslash : ∀ volume, (snapshotOf volume).NoSlash := fun _ => List.not_mem_nil
  constructor
  · rintro ⟨hfirst, -⟩
    have hseparate := (snapshotSystem_step hdir SnapshotDir.sound_empty hempty
      (hslash ⟨"data2", by decide⟩)).2.mp hfirst
    have hname := (hseparate ⟨rfl, by decide, rfl, rfl⟩).1 (.inl rfl) (by decide)
    exact absurd hname (by decide +kernel)
  · rintro ⟨hfirst, hsecond, -⟩
    have hsound := (snapshotSystem_step hdir SnapshotDir.sound_empty hempty
      (hslash ⟨"data", by decide⟩)).1
    have hseparate := (snapshotSystem_step hdir hsound hfirst.lists
      (hslash ⟨"data", by decide⟩)).2.mp hsecond
    have hname := (hseparate ⟨rfl, by decide, rfl, rfl⟩).2 rfl
    exact absurd hname (by decide +kernel)

end Trion.Commander
