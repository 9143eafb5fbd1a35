import Mathlib.Data.List.Nodup
import Trion.Security.Bootstrap

/-!
# Bootstrap is all or nothing

A run owns the files it has created and not yet removed.  It changes and removes only files it
owns, as `O_EXCL` lets it create only where nothing is; a run that returns owns all of the
targets, and a run that raises owns none.  So at the end at most one run has provisioned the
material, and what it has written is what is there.
-/

namespace Trion.Security

open OperationRun System

/-! ### What a run owns -/

section Phases

variable {Path : Type}

/-- The files that the run has created and not yet removed. -/
def Phase.claims (all : List Path) : Phase Path → List Path
  | .writing created path _ stage _ => if stage.hasFile then created ++ [path] else created
  | .unlinking created path => created ++ [path]
  | .rollingBack path rest => path :: rest
  | .returned result => if result.created then all else []
  | _ => []

/-- The files with the values that the run has written completely. -/
def Phase.written (all : List (Path × List UInt8)) :
    Phase Path → List (Path × List UInt8)
  | .writing created path value stage _ =>
    all.take created.length ++ if stage.isFlushed then [(path, value)] else []
  | .returned result => if result.created then all else []
  | _ => []

/-- The run has been through the targets in their order. -/
def Phase.Follows (all : List (Path × List UInt8)) : Phase Path → Prop
  | .writing created path value _ rest =>
    ∃ done, all = done ++ (path, value) :: rest ∧ created = done.map Prod.fst
  | _ => True

end Phases

variable {Path Run : Type} {platform : Platform Path}
  {paths : SecurityPaths Path} {material : BootstrapMaterial} {call : Call Path Run}
  {files files' : Files Path Run} {run : Run} {phase : Phase Path}
  {all done rest : List (Path × List UInt8)}

/-- What is true of a run between two calls: the files it owns are at different paths, they are
its own, and those it has written completely have their values. -/
structure RunInvariant (all : List (Path × List UInt8)) (files : Files Path Run) (run : Run)
    (phase : Phase Path) : Prop where
  follows : phase.Follows all
  nodup : (phase.claims (all.map Prod.fst)).Nodup
  owned : ∀ path ∈ phase.claims (all.map Prod.fst),
    ∃ content, files path = some (.created run content)
  written : ∀ target ∈ phase.written all, files target.1 = some (.created run target.2)

/-- The run owns every file it has created. -/
def OwnsAll (all : List (Path × List UInt8)) (files : Files Path Run) (run : Run)
    (phase : Phase Path) : Prop :=
  ∀ path content, files path = some (.created run content) →
    path ∈ phase.claims (all.map Prod.fst)

/-- What the run owns is its own. -/
lemma RunInvariant.owner_of_claims (h : RunInvariant all files run phase) {path : Path}
    (hpath : path ∈ phase.claims (all.map Prod.fst)) :
    ∀ entry, files path = some entry → entry.owner = some run := by
  intro entry hentry
  obtain ⟨content, hcontent⟩ := h.owned path hpath
  rw [hcontent] at hentry
  cases hentry
  rfl

/-- What is true of a run stays true where its files stay as they are. -/
lemma RunInvariant.frame (h : RunInvariant all files run phase)
    (hkeeps : ∀ path content, files path = some (.created run content) →
      files' path = some (.created run content)) :
    RunInvariant all files' run phase where
  follows := h.follows
  nodup := h.nodup
  owned := fun path hpath => by
    obtain ⟨content, hcontent⟩ := h.owned path hpath
    exact ⟨content, hkeeps path content hcontent⟩
  written := fun target htarget => hkeeps _ _ (h.written target htarget)

/-- The files of the targets done, as files of the run. -/
lemma owned_of_done (hdone : ∀ target ∈ done, files target.1 = some (.created run target.2)) :
    ∀ p ∈ done.map Prod.fst, ∃ content, files p = some (.created run content) := by
  intro p hp
  obtain ⟨target, htarget, rfl⟩ := List.mem_map.mp hp
  exact ⟨target.2, hdone target htarget⟩

/-! ### The ends of the loops -/

lemma claims_rollBack {created : List Path} {all : List Path} :
    (rollBack created).claims all = created := by
  cases created <;> rfl

lemma runInvariant_rollBack {created : List Path} (hnodup : created.Nodup)
    (howned : ∀ path ∈ created, ∃ content, files path = some (.created run content)) :
    RunInvariant all files run (rollBack created) where
  follows := by cases created <;> trivial
  nodup := by rwa [claims_rollBack]
  owned := by rwa [claims_rollBack]
  written := by cases created <;> simp [rollBack, Phase.written]

/-- What has been done so far is at its paths, and the loop goes on. -/
lemma runInvariant_createNext (hall : all = done ++ rest)
    (hnodup : (done.map Prod.fst).Nodup)
    (hdone : ∀ target ∈ done, files target.1 = some (.created run target.2)) :
    RunInvariant all files run (createNext material (done.map Prod.fst) rest) := by
  have howned := owned_of_done hdone
  subst hall
  cases rest with
  | nil =>
    rw [List.append_nil]
    exact ⟨trivial, hnodup, howned, hdone⟩
  | cons target rest =>
    refine ⟨⟨done, rfl, rfl⟩, hnodup, howned, ?_⟩
    simpa [createNext, Phase.written, Stage.isFlushed] using hdone

lemma claims_createNext (hall : all = done ++ rest) :
    (createNext material (done.map Prod.fst) rest).claims (all.map Prod.fst) =
      done.map Prod.fst := by
  subst hall
  cases rest <;> simp [createNext, Phase.claims, Stage.hasFile]

/-- Without a file, a run that has only looked may go on. -/
lemma runInvariant_decidePresent {present : List Bool} :
    RunInvariant (targets platform paths material) files run
      (decidePresent platform paths material present) := by
  unfold decidePresent
  split
  · exact ⟨trivial, by simp [Phase.claims], by simp [Phase.claims], by simp [Phase.written]⟩
  split
  · exact ⟨trivial, by simp [Phase.claims], by simp [Phase.claims], by simp [Phase.written]⟩
  · have hstart : RunInvariant (targets platform paths material) files run
        (createNext material (([] : List (Path × List UInt8)).map Prod.fst)
          (targets platform paths material)) :=
      runInvariant_createNext rfl (by simp) (by simp)
    exact hstart

/-! ### The file that is being written -/

section Writing

variable {path : Path} {value : List UInt8} {stage : Stage}

lemma written_writing (hall : all = done ++ (path, value) :: rest) :
    (Phase.writing (done.map Prod.fst) path value stage rest).written all =
      done ++ if stage.isFlushed then [(path, value)] else [] := by
  simp [Phase.written, hall]

/-- Before the file is created. -/
lemma runInvariant_noFile (hall : all = done ++ (path, value) :: rest)
    (hstage : stage.hasFile = false) (hnodup : (done.map Prod.fst).Nodup)
    (hdone : ∀ target ∈ done, files target.1 = some (.created run target.2)) :
    RunInvariant all files run (.writing (done.map Prod.fst) path value stage rest) where
  follows := ⟨done, hall, rfl⟩
  nodup := by simpa [Phase.claims, hstage] using hnodup
  owned := by
    intro p hp
    simp only [Phase.claims, hstage, Bool.false_eq_true, if_false] at hp
    exact owned_of_done hdone p hp
  written := by
    have hflushed : stage.isFlushed = false := by cases stage <;> simp_all [Stage.hasFile] <;> rfl
    simpa [written_writing hall, hflushed] using hdone

/-- With the file that is being written. -/
lemma runInvariant_file (hall : all = done ++ (path, value) :: rest)
    (hstage : stage.hasFile = true) (hnodup : (done.map Prod.fst ++ [path]).Nodup)
    (hdone : ∀ target ∈ done, files target.1 = some (.created run target.2))
    {content : List UInt8} (hfile : files path = some (.created run content))
    (hvalue : stage.isFlushed = true → content = value) :
    RunInvariant all files run (.writing (done.map Prod.fst) path value stage rest) where
  follows := ⟨done, hall, rfl⟩
  nodup := by simpa only [Phase.claims, hstage, if_true] using hnodup
  owned := by
    intro p hp
    simp only [Phase.claims, hstage, if_true, List.mem_append, List.mem_singleton] at hp
    obtain hp | rfl := hp
    · exact owned_of_done hdone p hp
    · exact ⟨content, hfile⟩
  written := by
    intro target htarget
    rw [written_writing hall, List.mem_append] at htarget
    obtain htarget | htarget := htarget
    · exact hdone target htarget
    · split at htarget
      · rename_i hflushed
        rw [List.mem_singleton] at htarget
        rw [htarget, hfile, hvalue hflushed]
      · simp at htarget

/-- The file that was being written is about to be removed. -/
lemma runInvariant_unlinking {created : List Path} (hnodup : (created ++ [path]).Nodup)
    (howned : ∀ p ∈ created ++ [path], ∃ content, files p = some (.created run content)) :
    RunInvariant all files run (.unlinking created path) :=
  ⟨trivial, hnodup, howned, by simp [Phase.written]⟩

/-- What is true of the targets done while the next one is written. -/
lemma RunInvariant.writing {created : List Path}
    (h : RunInvariant all files run (.writing created path value stage rest)) :
    ∃ done, all = done ++ (path, value) :: rest ∧ created = done.map Prod.fst ∧
      created.Nodup ∧ ∀ target ∈ done, files target.1 = some (.created run target.2) := by
  obtain ⟨done, hall, rfl⟩ := h.follows
  refine ⟨done, hall, rfl, ?_, fun target htarget => h.written target ?_⟩
  · have hnodup := h.nodup
    simp only [Phase.claims] at hnodup
    split at hnodup
    · exact (List.nodup_append.mp hnodup).1
    · exact hnodup
  · rw [written_writing hall]
    exact List.mem_append_left _ htarget

/-- What is true of the file that is being written. -/
lemma RunInvariant.file {created : List Path}
    (h : RunInvariant all files run (.writing created path value stage rest))
    (hstage : stage.hasFile = true) :
    (created ++ [path]).Nodup ∧ ∃ content, files path = some (.created run content) ∧
      (stage.isFlushed = true → content = value) := by
  obtain ⟨done, hall, rfl⟩ := h.follows
  have hnodup := h.nodup
  have hclaims : path ∈ (Phase.writing (done.map Prod.fst) path value stage rest).claims
      (all.map Prod.fst) := by
    simp [Phase.claims, hstage]
  obtain ⟨content, hcontent⟩ := h.owned path hclaims
  refine ⟨by simpa only [Phase.claims, hstage, if_true] using hnodup, content, hcontent, ?_⟩
  intro hflushed
  have hwritten := h.written (path, value) (by simp [written_writing hall, hflushed])
  rw [hcontent] at hwritten
  cases hwritten
  rfl

end Writing

/-! ### Other files -/

/-- What the run owns is no directory. -/
lemma isDirectory_of_created {content : List UInt8}
    (h : files path = some (.created run content)) : isDirectory files path = false := by
  simp [isDirectory, h]


variable [DecidableEq Path]

/-- A call of the run changes an entry: it leaves it as it is, makes a directory where nothing
was, or changes what is nobody else's. -/
def OwnChange (run : Run) (before after : Option (Entry Run)) : Prop :=
  after = before ∨ before = none ∧ after = some .directory ∨
    (∀ entry, before = some entry → entry.owner = some run) ∧
      ∀ entry, after = some entry → entry.owner = some run

lemma ownChange_makeDirectories {above made : List Path} {path : Path} :
    OwnChange run (files path) (makeDirectories files above made path) := by
  unfold makeDirectories
  split
  · rename_i h
    simp only [Bool.and_eq_true, Option.isNone_iff_eq_none] at h
    exact .inr (.inl ⟨h.1.1, rfl⟩)
  · exact .inl rfl

/-- An entry of the run, or none, takes the place of an entry of the run, or of none. -/
lemma ownChange_setEntry {path place : Path} {entry : Option (Entry Run)}
    (hbefore : ∀ e, files place = some e → e.owner = some run)
    (hafter : ∀ e, entry = some e → e.owner = some run) :
    OwnChange run (files path) (setEntry files place entry path) := by
  unfold setEntry
  split
  · rename_i h
    subst h
    exact .inr (.inr ⟨hbefore, hafter⟩)
  · exact .inl rfl

lemma ownChange_unlink {path place : Path}
    (hbefore : ∀ e, files place = some e → e.owner = some call.run) :
    OwnChange call.run (files path) ((unlink call files place).1 path) := by
  unfold unlink
  split
  · exact .inl rfl
  · exact ownChange_setEntry hbefore (by simp)

/-- A call changes nothing that is another's. -/
theorem runStep_change (h : RunInvariant all files call.run phase) (path : Path) :
    OwnChange call.run (files path)
      ((runStep platform paths material call files phase).1 path) := by
  cases phase with
  | checking present place rest =>
    simp only [runStep]
    split
    · exact .inl rfl
    · cases rest <;> exact .inl rfl
  | writing created place value stage rest =>
    have hplace (hfile : stage.hasFile = true) :
        ∀ e, files place = some e → e.owner = some call.run :=
      h.owner_of_claims (by simp [Phase.claims, hfile])
    have hown (content : List UInt8) : ∀ e,
        some (Entry.created call.run content) = some e → e.owner = some call.run := by
      rintro e ⟨⟩
      rfl
    simp only [runStep]
    split
    · cases stage with
      | mkdir => exact ownChange_makeDirectories
      | write | flush => exact ownChange_setEntry (hplace rfl) (hown _)
      | create | fdopen | fsync | close | chmod => exact .inl rfl
    · cases stage with
      | mkdir => exact ownChange_makeDirectories
      | create =>
        simp only [writeStep]
        split
        · exact .inl rfl
        · rename_i hfree
          refine ownChange_setEntry (fun e he => ?_) (hown _)
          rw [he] at hfree
          exact absurd rfl hfree
      | write | flush => exact ownChange_setEntry (hplace rfl) (hown _)
      | fdopen | fsync | close | chmod => exact .inl rfl
  | unlinking created place =>
    exact ownChange_unlink (h.owner_of_claims (by simp [Phase.claims]))
  | rollingBack place rest =>
    simp only [runStep]
    split
    · exact .inl rfl
    · exact ownChange_unlink (h.owner_of_claims (by simp [Phase.claims]))
  | returned result => exact .inl rfl
  | raised => exact .inl rfl

/-- The entry of another stays. -/
theorem runStep_keeps (h : RunInvariant all files call.run phase) {path : Path}
    {entry : Entry Run} (hentry : files path = some entry)
    (hother : entry.owner ≠ some call.run) :
    (runStep platform paths material call files phase).1 path = some entry := by
  have hchange : OwnChange call.run (files path)
      ((runStep platform paths material call files phase).1 path) := runStep_change h path
  obtain hsame | ⟨hnone, -⟩ | ⟨hown, -⟩ := hchange
  · rw [hsame, hentry]
  · rw [hentry] at hnone
    cases hnone
  · exact absurd (hown entry hentry) hother

/-- What a call adds is a directory or a file of the run. -/
theorem runStep_adds (h : RunInvariant all files call.run phase) {path : Path}
    {entry : Entry Run}
    (hentry : (runStep platform paths material call files phase).1 path = some entry) :
    files path = some entry ∨ files path = none ∧ entry = .directory ∨
      entry.owner = some call.run := by
  have hchange : OwnChange call.run (files path)
      ((runStep platform paths material call files phase).1 path) := runStep_change h path
  obtain hsame | ⟨hnone, hdirectory⟩ | ⟨-, hown⟩ := hchange
  · exact .inl (hsame ▸ hentry)
  · rw [hdirectory] at hentry
    cases hentry
    exact .inr (.inl ⟨hnone, rfl⟩)
  · exact .inr (.inr (hown entry hentry))

/-! ### One call of a run -/

section Entries

variable {place path : Path} {entry : Option (Entry Run)}

lemma setEntry_self : setEntry files place entry place = entry := if_pos rfl

lemma setEntry_of_ne (h : path ≠ place) : setEntry files place entry path = files path :=
  if_neg h

lemma makeDirectories_of_some {above made : List Path} {e : Entry Run}
    (h : files path = some e) : makeDirectories files above made path = some e := by
  simp [makeDirectories, h]

end Entries

lemma unlink_of_created {path : Path} {content : List UInt8}
    (h : files path = some (.created run content)) :
    unlink call files path =
      if call.raises then (files, true) else (setEntry files path none, false) := by
  simp [unlink, isDirectory_of_created h]

/-- What a run is left with when it has removed the last of its files. -/
lemma owned_setEntry_none {created : List Path} {path : Path}
    (hnodup : (created ++ [path]).Nodup)
    (howned : ∀ p ∈ created ++ [path], ∃ content, files p = some (.created run content)) :
    ∀ p ∈ created, ∃ content, setEntry files path none p = some (.created run content) := by
  intro p hp
  have hne : p ≠ path := by
    rintro rfl
    exact (List.nodup_append.mp hnodup).2.2 p hp p List.mem_cons_self rfl
  obtain ⟨content, hcontent⟩ := howned p (List.mem_append_left _ hp)
  exact ⟨content, by rw [setEntry_of_ne hne, hcontent]⟩

/-- The targets done stay as they are while the next one is written. -/
lemma done_setEntry {path : Path} {entry : Option (Entry Run)}
    (hnodup : (done.map Prod.fst ++ [path]).Nodup)
    (hdone : ∀ target ∈ done, files target.1 = some (.created run target.2)) :
    ∀ target ∈ done, setEntry files path entry target.1 = some (.created run target.2) := by
  intro target htarget
  have hne : target.1 ≠ path := by
    rintro heq
    exact (List.nodup_append.mp hnodup).2.2 _ (List.mem_map_of_mem htarget) path
      List.mem_cons_self heq
  rw [setEntry_of_ne hne, hdone target htarget]

section Step

variable {created : List Path} {path : Path} {value : List UInt8} {stage : Stage}

/-- A call of `_write_new` that works. -/
lemma writeStep_invariant
    (h : RunInvariant all files call.run (.writing created path value stage rest)) :
    RunInvariant all (writeStep platform material call files created path value rest stage).1
      call.run (writeStep platform material call files created path value rest stage).2 := by
  obtain ⟨done, hall, rfl, hnodup, hdone⟩ := h.writing
  cases stage with
  | mkdir =>
    refine runInvariant_noFile hall rfl hnodup fun target htarget => ?_
    exact makeDirectories_of_some (hdone target htarget)
  | create =>
    simp only [writeStep]
    split
    · refine runInvariant_rollBack (List.nodup_reverse.mpr hnodup) fun p hp => ?_
      exact owned_of_done hdone p (List.mem_reverse.mp hp)
    · rename_i hfree
      rw [Option.not_isSome_iff_eq_none] at hfree
      -- the new file is at a path where none of the others is
      have hfresh : (done.map Prod.fst ++ [path]).Nodup := by
        refine List.nodup_append.mpr ⟨hnodup, by simp, fun p hp q hq => ?_⟩
        rw [List.mem_singleton] at hq
        rintro rfl
        obtain ⟨content, hcontent⟩ := owned_of_done hdone p hp
        rw [hq, hfree] at hcontent
        cases hcontent
      exact runInvariant_file hall rfl hfresh (done_setEntry hfresh hdone) setEntry_self
        (by simp [Stage.isFlushed])
  | fdopen =>
    obtain ⟨hfresh, content, hcontent, -⟩ := h.file rfl
    exact runInvariant_file hall rfl hfresh hdone hcontent (by simp [Stage.isFlushed])
  | write =>
    obtain ⟨hfresh, -⟩ := h.file rfl
    exact runInvariant_file hall rfl hfresh (done_setEntry hfresh hdone) setEntry_self
      (by simp [Stage.isFlushed])
  | flush =>
    obtain ⟨hfresh, -⟩ := h.file rfl
    exact runInvariant_file hall rfl hfresh (done_setEntry hfresh hdone) setEntry_self
      fun _ => rfl
  | fsync | close =>
    obtain ⟨hfresh, content, hcontent, hvalue⟩ := h.file rfl
    exact runInvariant_file hall rfl hfresh hdone hcontent fun _ => hvalue rfl
  | chmod =>
    obtain ⟨hfresh, content, hcontent, hvalue⟩ := h.file rfl
    obtain rfl := hvalue rfl
    have hmore : ∀ target ∈ done ++ [(path, content)],
        files target.1 = some (.created call.run target.2) := by
      intro target htarget
      obtain htarget | htarget := List.mem_append.mp htarget
      · exact hdone target htarget
      · rw [List.mem_singleton] at htarget
        rw [htarget, hcontent]
    have hnext : RunInvariant all files call.run
        (createNext material ((done ++ [(path, content)]).map Prod.fst) rest) :=
      runInvariant_createNext (by simp [hall]) (by simpa using hfresh) hmore
    simpa [writeStep] using hnext

/-- A call of `_write_new` that raises. -/
lemma writeFault_invariant
    (h : RunInvariant all files call.run (.writing created path value stage rest)) :
    RunInvariant all (writeFault platform call files created path stage).1 call.run
      (writeFault platform call files created path stage).2 := by
  obtain ⟨done, hall, rfl, hnodup, hdone⟩ := h.writing
  have hback : (done.map Prod.fst).reverse.Nodup := List.nodup_reverse.mpr hnodup
  cases stage with
  | mkdir =>
    refine runInvariant_rollBack hback fun p hp => ?_
    obtain ⟨content, hcontent⟩ := owned_of_done hdone p (List.mem_reverse.mp hp)
    exact ⟨content, makeDirectories_of_some hcontent⟩
  | create =>
    exact runInvariant_rollBack hback fun p hp => owned_of_done hdone p (List.mem_reverse.mp hp)
  | write | flush =>
    obtain ⟨hfresh, -⟩ := h.file rfl
    refine runInvariant_unlinking hfresh fun p hp => ?_
    obtain hp | hp := List.mem_append.mp hp
    · exact owned_of_done (done_setEntry hfresh hdone) p hp
    · rw [List.mem_singleton] at hp
      exact ⟨call.left, hp ▸ setEntry_self⟩
  | fdopen | fsync | close | chmod =>
    obtain ⟨hfresh, content, hcontent, -⟩ := h.file rfl
    refine runInvariant_unlinking hfresh fun p hp => ?_
    obtain hp | hp := List.mem_append.mp hp
    · exact owned_of_done hdone p hp
    · rw [List.mem_singleton] at hp
      exact ⟨content, hp ▸ hcontent⟩

end Step

/-- A call of the run keeps what is true of it. -/
theorem runStep_invariant
    (h : RunInvariant (targets platform paths material) files call.run phase) :
    RunInvariant (targets platform paths material)
      (runStep platform paths material call files phase).1 call.run
      (runStep platform paths material call files phase).2 := by
  have hended (files : Files Path Run) : RunInvariant (targets platform paths material) files
      call.run .raised :=
    runInvariant_rollBack List.nodup_nil (by simp)
  cases phase with
  | checking present path rest =>
    simp only [runStep]
    split
    · exact hended files
    cases rest with
    | nil => exact runInvariant_decidePresent
    | cons next rest =>
      exact ⟨trivial, by simp [Phase.claims], by simp [Phase.claims], by simp [Phase.written]⟩
  | writing created path value stage rest =>
    simp only [runStep]
    split
    · exact writeFault_invariant h
    · exact writeStep_invariant h
  | unlinking created path =>
    obtain ⟨content, hcontent⟩ := h.owned path (by simp [Phase.claims])
    have hnodup : (created ++ [path]).Nodup := h.nodup
    simp only [runStep, unlink_of_created hcontent]
    refine runInvariant_rollBack (List.nodup_reverse.mpr (List.nodup_append.mp hnodup).1) ?_
    intro p hp
    rw [List.mem_reverse] at hp
    split
    · exact h.owned p (List.mem_append_left _ hp)
    · exact owned_setEntry_none hnodup h.owned p hp
  | rollingBack path rest =>
    obtain ⟨content, hcontent⟩ := h.owned path (by simp [Phase.claims])
    obtain ⟨hpath, hrest⟩ := List.nodup_cons.mp h.nodup
    simp only [runStep, unlink_of_created hcontent]
    cases hraises : call.raises with
    | true => exact hended files
    | false =>
      refine runInvariant_rollBack hrest fun p hp => ?_
      obtain ⟨content, hcontent⟩ := h.owned p (List.mem_cons_of_mem _ hp)
      exact ⟨content, by rw [← hcontent]; exact setEntry_of_ne (fun heq => hpath (heq ▸ hp))⟩
  | returned result => exact h
  | raised => exact h

/-! ### Nothing is left behind -/

section OwnsAll

variable {created : List Path} {path : Path} {value : List UInt8} {stage : Stage}
  {phase' : Phase Path}

omit [DecidableEq Path] in
/-- The run goes on without giving up a file. -/
lemma OwnsAll.mono (h : OwnsAll all files run phase)
    (hsub : ∀ p ∈ phase.claims (all.map Prod.fst), p ∈ phase'.claims (all.map Prod.fst)) :
    OwnsAll all files run phase' :=
  fun p content hcontent => hsub p (h p content hcontent)

/-- The directories of a `mkdir` are no files of the run. -/
lemma OwnsAll.makeDirectories {above made : List Path} (h : OwnsAll all files run phase) :
    OwnsAll all (makeDirectories files above made) run phase := by
  intro p content hcontent
  refine h p content ?_
  unfold Security.makeDirectories at hcontent
  split at hcontent
  · cases hcontent
  · exact hcontent

/-- A file that the run goes on to own. -/
lemma OwnsAll.setEntry {entry : Option (Entry Run)} (h : OwnsAll all files run phase)
    (hsub : ∀ p ∈ phase.claims (all.map Prod.fst), p ∈ phase'.claims (all.map Prod.fst))
    (hpath : path ∈ phase'.claims (all.map Prod.fst)) :
    OwnsAll all (setEntry files path entry) run phase' := by
  intro p content hcontent
  by_cases hp : p = path
  · exact hp ▸ hpath
  · rw [setEntry_of_ne hp] at hcontent
    exact hsub p (h p content hcontent)

/-- A file that is removed. -/
lemma OwnsAll.setEntry_none (h : OwnsAll all files run phase)
    (hsub : ∀ p ∈ phase.claims (all.map Prod.fst), p ≠ path →
      p ∈ phase'.claims (all.map Prod.fst)) :
    OwnsAll all (Security.setEntry files path none) run phase' := by
  intro p content hcontent
  by_cases hp : p = path
  · rw [hp, setEntry_self] at hcontent
    cases hcontent
  · rw [setEntry_of_ne hp] at hcontent
    exact hsub p (h p content hcontent) hp

lemma writeStep_ownsAll (hall : all = done ++ (path, value) :: rest)
    (hcreated : created = done.map Prod.fst)
    (h : OwnsAll all files call.run (.writing created path value stage rest)) :
    OwnsAll all (writeStep platform material call files created path value rest stage).1
      call.run (writeStep platform material call files created path value rest stage).2 := by
  cases stage with
  | mkdir => exact h.makeDirectories
  | create =>
    simp only [writeStep]
    split
    · exact h.mono fun p hp => by rw [claims_rollBack]; exact List.mem_reverse.mpr hp
    · exact h.setEntry (fun p hp => List.mem_append_left _ hp) List.mem_concat_self
  | write | flush => exact h.setEntry (fun p hp => hp) List.mem_concat_self
  | fdopen | fsync | close => exact h
  | chmod =>
    have hnext : (createNext material ((done ++ [(path, value)]).map Prod.fst) rest).claims
        (all.map Prod.fst) = (done ++ [(path, value)]).map Prod.fst :=
      claims_createNext (by simp [hall])
    simp only [List.map_append, List.map_cons, List.map_nil, ← hcreated] at hnext
    refine h.mono fun p hp => ?_
    simp only [writeStep, hnext]
    exact hp

lemma writeFault_ownsAll
    (h : OwnsAll all files call.run (.writing created path value stage rest)) :
    OwnsAll all (writeFault platform call files created path stage).1 call.run
      (writeFault platform call files created path stage).2 := by
  have hback : ∀ p ∈ created, p ∈ (rollBack created.reverse).claims (all.map Prod.fst) := by
    intro p hp
    rw [claims_rollBack]
    exact List.mem_reverse.mpr hp
  cases stage with
  | mkdir => exact (h.makeDirectories).mono hback
  | create => exact h.mono hback
  | write | flush => exact h.setEntry (fun p hp => hp) List.mem_concat_self
  | fdopen | fsync | close | chmod => exact h

/-- A run whose roll-back does not fail goes on to own what it has created. -/
theorem runStep_ownsAll
    (hinv : RunInvariant (targets platform paths material) files call.run phase)
    (hfails : call.raises = true → phase.inHandler = false)
    (h : OwnsAll (targets platform paths material) files call.run phase) :
    OwnsAll (targets platform paths material)
      (runStep platform paths material call files phase).1 call.run
      (runStep platform paths material call files phase).2 := by
  cases phase with
  | checking present path rest =>
    simp only [runStep]
    split
    · exact h.mono (by simp [Phase.claims])
    · cases rest <;> exact h.mono (by simp [Phase.claims])
  | writing created path value stage rest =>
    obtain ⟨done, hall, hcreated, -⟩ := hinv.writing
    simp only [runStep]
    split
    · exact writeFault_ownsAll h
    · exact writeStep_ownsAll hall hcreated h
  | unlinking created path =>
    have hraises : call.raises = false := by
      by_contra hraises
      exact absurd (hfails (by simpa using hraises)) (by simp [Phase.inHandler])
    obtain ⟨content, hcontent⟩ := hinv.owned path (by simp [Phase.claims])
    simp only [runStep, unlink_of_created hcontent, hraises]
    refine h.setEntry_none fun p hp hne => ?_
    rw [claims_rollBack, List.mem_reverse]
    simpa [Phase.claims, hne] using hp
  | rollingBack path rest =>
    have hraises : call.raises = false := by
      by_contra hraises
      exact absurd (hfails (by simpa using hraises)) (by simp [Phase.inHandler])
    obtain ⟨content, hcontent⟩ := hinv.owned path (by simp [Phase.claims])
    simp only [runStep, unlink_of_created hcontent, hraises, Bool.false_eq_true, if_false]
    refine h.setEntry_none fun p hp hne => ?_
    rw [claims_rollBack]
    simpa [Phase.claims, hne] using hp
  | returned result => exact h
  | raised => exact h

end OwnsAll

/-! ### All runs together -/

section Runs

variable [DecidableEq Run] {materials : Run → BootstrapMaterial}
  {earlier : Path → Option (Bool × List UInt8)} {s : BootstrapState Path Run}
  {calls : List (Call Path Run)}

/-- What is true between two calls: each run keeps to its own, and what was there before is what
it was. -/
structure BootstrapInvariant (platform : Platform Path) (paths : SecurityPaths Path)
    (materials : Run → BootstrapMaterial) (earlier : Path → Option (Bool × List UInt8))
    (s : BootstrapState Path Run) : Prop where
  runs : ∀ run, RunInvariant (targets platform paths (materials run)) s.files run (s.runs run)
  kept : ∀ path entry, earlier path = some entry →
    s.files path = some (.earlier entry.1 entry.2)
  only : ∀ path visible content, s.files path = some (.earlier visible content) →
    earlier path = some (visible, content)

/-- Each run owns all that it has created. -/
def NothingLeft (platform : Platform Path) (paths : SecurityPaths Path)
    (materials : Run → BootstrapMaterial) (s : BootstrapState Path Run) : Prop :=
  ∀ run, OwnsAll (targets platform paths (materials run)) s.files run (s.runs run)

omit [DecidableEq Path] [DecidableEq Run] in
lemma bootstrapInvariant_start :
    BootstrapInvariant platform paths materials earlier
      (bootstrapStart platform paths materials earlier) where
  runs := fun run => by
    have hphase : (bootstrapStart platform paths materials earlier).runs run =
        .checking [] paths.credentialHash [paths.sessionKey, paths.secretResolveToken,
          paths.memoryReadToken, paths.sessionGeneration platform] := rfl
    rw [hphase]
    exact ⟨trivial, by simp [Phase.claims], by simp [Phase.claims], by simp [Phase.written]⟩
  kept := fun path entry hentry => by simp [bootstrapStart, hentry]
  only := fun path visible content hentry => by
    simp only [bootstrapStart, Option.map_eq_some_iff] at hentry
    obtain ⟨entry, hearlier, heq⟩ := hentry
    cases heq
    exact hearlier

omit [DecidableEq Path] [DecidableEq Run] in
lemma nothingLeft_start :
    NothingLeft platform paths materials (bootstrapStart platform paths materials earlier) := by
  intro run path content hcontent
  simp [bootstrapStart] at hcontent

/-- A file stays as it is at the calls of the others. -/
lemma provision_keeps (h : BootstrapInvariant platform paths materials earlier s)
    (call : Call Path Run) {path : Path} {entry : Entry Run}
    (hentry : s.files path = some entry) (hother : entry.owner ≠ some call.run) :
    (provision platform paths materials s call).1.files path = some entry :=
  runStep_keeps (h.runs call.run) hentry hother

/-- One call keeps the invariant: the run that makes it by its own step, the others because their
files stay as they are. -/
theorem provision_invariant (h : BootstrapInvariant platform paths materials earlier s)
    (call : Call Path Run) :
    BootstrapInvariant platform paths materials earlier
      (provision platform paths materials s call).1 where
  runs := fun run => by
    by_cases hrun : run = call.run
    · subst hrun
      simp only [provision, Function.update_self]
      exact runStep_invariant (h.runs call.run)
    · have hothers : RunInvariant (targets platform paths (materials run))
          (provision platform paths materials s call).1.files run (s.runs run) :=
        (h.runs run).frame fun path content hfile =>
          provision_keeps h call hfile (by simpa [Entry.owner] using hrun)
      simpa [provision, Function.update_of_ne hrun] using hothers
  kept := fun path entry hentry =>
    provision_keeps h call (h.kept path entry hentry) (by simp [Entry.owner])
  only := fun path visible content hentry => by
    obtain hsame | ⟨-, hdirectory⟩ | hown := runStep_adds (h.runs call.run) hentry
    · exact h.only path visible content hsame
    · cases hdirectory
    · cases hown

/-- A call at which no roll-back fails leaves nothing behind. -/
theorem provision_nothingLeft (h : BootstrapInvariant platform paths materials earlier s)
    (hleft : NothingLeft platform paths materials s) (call : Call Path Run)
    (hfails : FailsOnce s call) :
    NothingLeft platform paths materials (provision platform paths materials s call).1 := by
  intro run
  by_cases hrun : run = call.run
  · subst hrun
    simp only [provision, Function.update_self]
    exact runStep_ownsAll (h.runs call.run) hfails (hleft call.run)
  · intro path content hfile
    simp only [provision, Function.update_of_ne hrun]
    refine hleft run path content ?_
    obtain hsame | ⟨-, hdirectory⟩ | hown := runStep_adds (h.runs call.run) hfile
    · exact hsame
    · cases hdirectory
    · exact absurd (Option.some.inj hown) hrun

/-- The state after the calls. -/
def bootstrapRuns (platform : Platform Path) (paths : SecurityPaths Path)
    (materials : Run → BootstrapMaterial) (earlier : Path → Option (Bool × List UInt8))
    (calls : List (Call Path Run)) : BootstrapState Path Run :=
  (provision platform paths materials).after (bootstrapStart platform paths materials earlier)
    calls

/-- The invariant holds throughout. -/
theorem bootstrapInvariant_runs :
    BootstrapInvariant platform paths materials earlier
      (bootstrapRuns platform paths materials earlier calls) :=
  invariant (C := fun _ _ => True) (fun _ call h _ => provision_invariant h call)
    (always_of_forall fun _ _ => trivial) bootstrapInvariant_start

theorem nothingLeft_runs
    (hfails : (provision platform paths materials).Always FailsOnce
      (bootstrapStart platform paths materials earlier) calls) :
    NothingLeft platform paths materials
      (bootstrapRuns platform paths materials earlier calls) := by
  have hboth := invariant
    (I := fun s => BootstrapInvariant platform paths materials earlier s ∧
      NothingLeft platform paths materials s)
    (fun _ call h hfails =>
      ⟨provision_invariant h.1 call, provision_nothingLeft h.1 h.2 call hfails⟩)
    hfails ⟨bootstrapInvariant_start, nothingLeft_start⟩
  exact hboth.2

omit [DecidableEq Path] [DecidableEq Run] in
/-- A run that is over and has left a file has returned with all of the files. -/
lemma returned_of_owner (hleft : NothingLeft platform paths materials s) {run : Run}
    {path : Path} {content : List UInt8} (hended : (s.runs run).ended = true)
    (hfile : s.files path = some (.created run content)) :
    path ∈ (targets platform paths (materials run)).map Prod.fst ∧
      (s.runs run).written (targets platform paths (materials run)) =
        targets platform paths (materials run) := by
  have hclaims := hleft run path content hfile
  cases hphase : s.runs run with
  | returned result =>
    rw [hphase] at hclaims
    simp only [Phase.claims, Phase.written] at hclaims ⊢
    cases hcreated : result.created with
    | true => simpa [hcreated] using hclaims
    | false => simp [hcreated] at hclaims
  | raised => simp [hphase, Phase.claims] at hclaims
  | checking | writing | unlinking | rollingBack => simp [hphase, Phase.ended] at hended

omit [DecidableEq Path] [DecidableEq Run] in
/-- Two runs that have both returned with all of the files are one run. -/
lemma owner_unique (h : BootstrapInvariant platform paths materials earlier s) {run run' : Run}
    (hrun : (s.runs run).written (targets platform paths (materials run)) =
      targets platform paths (materials run))
    (hrun' : (s.runs run').written (targets platform paths (materials run')) =
      targets platform paths (materials run')) : run' = run := by
  have hfirst (material : BootstrapMaterial) : ∃ value,
      (paths.credentialHash, value) ∈ targets platform paths material :=
    ⟨_, List.mem_cons_self⟩
  obtain ⟨value, hvalue⟩ := hfirst (materials run)
  obtain ⟨value', hvalue'⟩ := hfirst (materials run')
  have hfile := (h.runs run).written _ (hrun.symm ▸ hvalue)
  have hfile' := (h.runs run').written _ (hrun'.symm ▸ hvalue')
  rw [hfile] at hfile'
  cases hfile'
  rfl

/-- Bootstrap is all or nothing: no call of a run changes or removes what the run has not
created; a run that raises leaves none of its files; and when all of the runs are over, either
the five files are those of one run and there is no other new file, or nothing but directories
has been added. -/
theorem bootstrap_all_or_nothing
    (hfails : (provision platform paths materials).Always FailsOnce
      (bootstrapStart platform paths materials earlier) calls) :
    (∀ call path entry,
      (bootstrapRuns platform paths materials earlier calls).files path = some entry →
      entry.owner ≠ some call.run →
      (provision platform paths materials
        (bootstrapRuns platform paths materials earlier calls) call).1.files path = some entry) ∧
    (∀ run path entry,
      (bootstrapRuns platform paths materials earlier calls).runs run = .raised →
      (bootstrapRuns platform paths materials earlier calls).files path = some entry →
      entry.owner ≠ some run) ∧
    ((∀ run, ((bootstrapRuns platform paths materials earlier calls).runs run).ended = true) →
      (∃ run,
        (∀ target ∈ targets platform paths (materials run),
          (bootstrapRuns platform paths materials earlier calls).files target.1 =
            some (.created run target.2)) ∧
        ∀ path owner content,
          (bootstrapRuns platform paths materials earlier calls).files path =
            some (.created owner content) →
          owner = run ∧ path ∈ targetPaths platform paths (materials run)) ∨
      ∀ path, (bootstrapRuns platform paths materials earlier calls).files path =
          (bootstrapStart platform paths materials earlier).files path ∨
        earlier path = none ∧
          (bootstrapRuns platform paths materials earlier calls).files path = some .directory) := by
  have hinv : BootstrapInvariant platform paths materials earlier
      (bootstrapRuns platform paths materials earlier calls) := bootstrapInvariant_runs
  have hleft := nothingLeft_runs hfails
  generalize bootstrapRuns platform paths materials earlier calls = s at hinv hleft ⊢
  refine ⟨fun call path entry => provision_keeps hinv call, ?_, fun hended => ?_⟩
  · intro run path entry hraised hentry howner
    cases entry with
    | created owner content =>
      cases howner
      have hclaims := hleft run path content hentry
      simp [hraised, Phase.claims] at hclaims
    | earlier | directory => cases howner
  · by_cases hnew : ∃ path run content, s.files path = some (.created run content)
    · obtain ⟨path, run, content, hfile⟩ := hnew
      obtain ⟨-, hwritten⟩ := returned_of_owner hleft (hended run) hfile
      refine .inl ⟨run, fun target htarget => ?_, fun path' owner content' hfile' => ?_⟩
      · exact (hinv.runs run).written target (hwritten.symm ▸ htarget)
      · obtain ⟨hpath', hwritten'⟩ := returned_of_owner hleft (hended owner) hfile'
        obtain rfl := owner_unique hinv hwritten hwritten'
        exact ⟨rfl, hpath'⟩
    · refine .inr fun path => ?_
      cases hearlier : earlier path with
      | some entry => exact .inl (by simp [bootstrapStart, hearlier, hinv.kept path entry hearlier])
      | none =>
        cases hfile : s.files path with
        | none => exact .inl (by simp [bootstrapStart, hearlier])
        | some entry =>
          cases entry with
          | earlier visible content =>
            simp [hinv.only path visible content hfile] at hearlier
          | directory => exact .inr ⟨rfl, rfl⟩
          | created run content => exact absurd ⟨path, run, content, hfile⟩ hnew

/-! Two runs look at the empty directory one after the other.  The second one meets the first
file of the first one and raises; the first one goes on to the end. -/

/-- Numbered paths, of which the one beside the first is the last. -/
def numberedPlatform : Platform ℕ where
  withName := fun _ _ => 4
  parents := fun _ => []
  scrypt := fun _ salt => salt

/-- Five places. -/
def numberedPaths : SecurityPaths ℕ where
  credentialHash := 0
  sessionKey := 1
  secretResolveToken := 2
  memoryReadToken := 3

/-- The material of the two runs. -/
def materialOf (second : Bool) : BootstrapMaterial where
  initialPassword := if second then "b" else "a"
  credentialSalt := [1]
  sessionKey := [if second then 2 else 1]
  secretResolveToken := "resolve"
  memoryReadToken := "read"

/-- Calls of a run that work. -/
def worksFor (second : Bool) (n : ℕ) : List (Call ℕ Bool) :=
  List.replicate n { run := second, raises := false, made := [], left := [] }

/-- Both runs look, both want to create the first file, and the first run goes on. -/
def racingCalls : List (Call ℕ Bool) :=
  worksFor false 5 ++ worksFor true 5 ++ worksFor false 2 ++ worksFor true 2 ++ worksFor false 38

/-- The race ends with the five files of one run. -/
theorem bootstrap_race :
    (∀ run, ((bootstrapRuns numberedPlatform numberedPaths materialOf (fun _ => none)
      racingCalls).runs run).ended = true) ∧
    ∃ run, ∀ target ∈ targets numberedPlatform numberedPaths (materialOf run),
      (bootstrapRuns numberedPlatform numberedPaths materialOf (fun _ => none)
        racingCalls).files target.1 = some (.created run target.2) := by
  have hended : ∀ run, ((bootstrapRuns numberedPlatform numberedPaths materialOf (fun _ => none)
      racingCalls).runs run).ended = true := by decide
  have hfails : (provision numberedPlatform numberedPaths materialOf).Always FailsOnce
      (bootstrapStart numberedPlatform numberedPaths materialOf fun _ => none) racingCalls := by
    decide
  have hfirst : ((bootstrapRuns numberedPlatform numberedPaths materialOf (fun _ => none)
      racingCalls).files 0).bind Entry.owner = some false := by decide
  obtain ⟨run, hrun, -⟩ | hnone := (bootstrap_all_or_nothing hfails).2.2 hended
  · exact ⟨hended, run, hrun⟩
  · rcases hnone 0 with hsame | ⟨-, hdirectory⟩
    · rw [hsame] at hfirst
      cases hfirst
    · rw [hdirectory] at hfirst
      cases hfirst

end Runs

end Trion.Security
