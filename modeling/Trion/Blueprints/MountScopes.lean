import Trion.Blueprints.StorageScopes

/-!
# Mounts that stay in their scope

A mount that is validated as it is mounted lies within a root of the storage scope, or is a
runtime system path.  Validation does not see a named volume, strips the texts that the table of
volumes takes as they are, and knows one spelling only of a mode that allows writing.
-/

namespace Trion.Blueprints

open Trion.Python OrderedDict

variable {rt : PyRuntime} {cwd : String} {writable : String → Bool} {roots : List ScopeRoot}
  {mount : MountDef}

/-! ### The scope of an entry -/

/-- The path is a runtime system path. -/
def IsRuntimePath (cwd path : String) : Prop :=
  ∃ root ∈ runtimeBindPrefixes, LiesWithin cwd path root

instance (cwd path : String) : Decidable (IsRuntimePath cwd path) :=
  inferInstanceAs (Decidable (∃ root ∈ runtimeBindPrefixes, _))

/-- The entry lies within a root, with write access only where the root is read-write, or is a
runtime system path bound to the same path inside the container.  `writable` says with which
modes Docker lets the container write. -/
def InScope (rt : PyRuntime) (cwd : String) (writable : String → Bool) (roots : List ScopeRoot)
    (key : String) (entry : VolumeBind) : Prop :=
  (∃ root ∈ roots, LiesWithin cwd key (strip root.path) ∧
    (writable entry.mode = true → root.rootMode rt = "rw")) ∨
  (IsRuntimePath cwd key ∧ abspath cwd entry.bind = abspath cwd key)

instance (key : String) (entry : VolumeBind) :
    Decidable (InScope rt cwd writable roots key entry) :=
  inferInstanceAs (Decidable (_ ∨ _))

/-- The roots that the mounts of a blueprint may lie in; none if its scope is missing. -/
def scopeRoots (cwd : String) (scopes : Scopes) (bp : Blueprint) : List ScopeRoot :=
  match allowedRoots cwd scopes bp with
  | .ok roots => roots
  | .error _ => []

/-- Every entry whose key Docker takes for a host path is in scope. -/
def MountsInScope (rt : PyRuntime) (cwd : String) (writable : String → Bool)
    (roots : List ScopeRoot) (volumes : List (String × VolumeBind)) : Prop :=
  ∀ key entry, get? volumes key = some entry → startsWith key "/" = true →
    InScope rt cwd writable roots key entry

/-! ### What is validated -/

/-- The blanks around a path do not change it. -/
def BlanksDoNotCount (cwd path : String) : Prop := abspath cwd (strip path) = abspath cwd path

/-- Validation reads the mount as it is mounted. -/
structure ReadAsMounted (rt : PyRuntime) (cwd : String) (writable : String → Bool)
    (roots : List ScopeRoot) (mount : MountDef) : Prop where
  notVolume : mountType rt mount ≠ "volume"
  host : BlanksDoNotCount cwd mount.host
  system : isRuntimeSystemBind rt cwd mount = true →
    BlanksDoNotCount cwd (abspath cwd mount.host) ∧ BlanksDoNotCount cwd mount.container
  mode : isRuntimeSystemBind rt cwd mount = false → writable mount.mode = true →
    mountMode rt mount = "rw" ∧ ∀ root ∈ roots, root.rootMode rt = "ro" ∨ root.rootMode rt = "rw"

/-- A path within a root is so after both are made absolute. -/
lemma liesWithin_of_isWithin (hcwd : startsWith cwd "/" = true) {path root : String}
    (h : isWithin cwd (abspath cwd path) (abspath cwd root) = true) : LiesWithin cwd path root := by
  unfold isWithin at h
  rw [abspath_abspath hcwd, abspath_abspath hcwd] at h
  exact components_prefix_of_commonpath (by simpa using h)

/-- The prefix that is found is a runtime system path that the path lies within. -/
lemma isRuntimePath_of_startsWith {path : String}
    (h : (runtimeBindPrefix cwd path).isSome = true) (hblanks : BlanksDoNotCount cwd path) :
    IsRuntimePath cwd path := by
  unfold runtimeBindPrefix at h
  rw [hblanks] at h
  dsimp only at h
  split at h
  · obtain ⟨candidate, hcandidate⟩ := Option.isSome_iff_exists.mp h
    obtain ⟨root, hroot, rfl⟩ := List.mem_map.mp (List.mem_of_find?_eq_some hcandidate)
    refine ⟨root, hroot, ?_⟩
    have hfound := List.find?_some hcandidate
    simp only [Bool.or_eq_true, beq_iff_eq] at hfound
    rcases hfound with heq | hstart
    · simp only [LiesWithin, heq, List.prefix_rfl]
    · exact components_prefix_of_startsWith hstart
  · simp at h

/-- A path that is matched lies within a root that is not read-only where the mount writes. -/
lemma matchRoots_true {hostAbs mode : String} (h : matchRoots rt cwd hostAbs mode roots = .ok true) :
    ∃ root ∈ roots, isWithin cwd hostAbs (root.rootPath cwd) = true ∧
      ¬ (root.rootMode rt = "ro" ∧ mode = "rw") := by
  induction roots with
  | nil => simp [matchRoots] at h
  | cons root roots ih =>
    unfold matchRoots at h
    dsimp only at h
    split at h
    · rename_i hwithin
      split at h
      · simp at h
      · rename_i hmode
        exact ⟨root, List.mem_cons_self, hwithin, hmode⟩
    · obtain ⟨other, hother, hrest⟩ := ih h
      exact ⟨other, List.mem_cons_of_mem root hother, hrest⟩

/-- A mount that passes and is not a volume. -/
lemma checkMount_ok {scopeName : String} (h : checkMount rt cwd scopeName roots mount = .ok ())
    (hvolume : mountType rt mount ≠ "volume") :
    isRuntimeSystemBind rt cwd mount = true ∨
      isRuntimeSystemBind rt cwd mount = false ∧
        matchRoots rt cwd (abspath cwd (strip mount.host)) (mountMode rt mount) roots = .ok true := by
  unfold checkMount at h
  rw [if_neg hvolume] at h
  dsimp only at h
  split at h
  · exact .inl ‹_›
  · rename_i hsystem
    split at h
    · simp at h
    · split at h
      · simp at h
      · rename_i hmatched
        exact .inr ⟨by simpa using hsystem, hmatched⟩
      · split at h <;> simp at h

lemma checkMounts_ok {scopeName : String} {mounts : List MountDef}
    (h : (checkMounts rt cwd scopeName roots mounts).1 = true) (hmount : mount ∈ mounts) :
    checkMount rt cwd scopeName roots mount = .ok () := by
  induction mounts with
  | nil => simp at hmount
  | cons first mounts ih =>
    unfold checkMounts at h
    split at h
    · simp at h
    · rename_i hfirst
      rcases List.mem_cons.mp hmount with rfl | hmount
      · exact hfirst
      · exact ih h hmount

/-- Every mount of a blueprint that is accepted passes. -/
lemma validate_ok {scopes : Scopes} {bp : Blueprint}
    (h : (validateBlueprintMounts rt cwd scopes bp).1 = true) (hmount : mount ∈ bp.mounts) :
    checkMount rt cwd (strip bp.storageScope) (scopeRoots cwd scopes bp) mount = .ok () := by
  unfold validateBlueprintMounts at h
  rw [if_neg (List.ne_nil_of_mem hmount)] at h
  unfold scopeRoots
  split at h
  · simp at h
  · rename_i roots hroots
    rw [hroots]
    exact checkMounts_ok h hmount

/-- A mount that passes and is validated as it is mounted is in scope. -/
theorem inScope_of_checkMount (hcwd : startsWith cwd "/" = true) {scopeName : String}
    (hok : checkMount rt cwd scopeName roots mount = .ok ())
    (hread : ReadAsMounted rt cwd writable roots mount) :
    InScope rt cwd writable roots (hostPath rt cwd mount) ⟨mount.container, mount.mode⟩ := by
  have hkey : hostPath rt cwd mount = abspath cwd mount.host := if_neg hread.notVolume
  have hhost : abspath cwd (strip mount.host) = abspath cwd mount.host := hread.host
  rw [hkey]
  rcases checkMount_ok hok hread.notVolume with hsystem | ⟨hsystem, hmatched⟩
  · right
    obtain ⟨hblanks, hcontainer⟩ := hread.system hsystem
    unfold isRuntimeSystemBind at hsystem
    simp only [Bool.and_eq_true, beq_iff_eq] at hsystem
    obtain ⟨⟨-, hpre⟩, hsame⟩ := hsystem
    rw [hhost] at hpre hsame
    refine ⟨isRuntimePath_of_startsWith hpre hblanks, ?_⟩
    have hbind : abspath cwd (strip mount.container) = abspath cwd mount.container := hcontainer
    rw [abspath_abspath hcwd, ← hsame, hbind]
  · left
    obtain ⟨root, hroot, hwithin, hmode⟩ := matchRoots_true hmatched
    rw [hhost] at hwithin
    refine ⟨root, hroot, ?_, fun hwrites => ?_⟩
    · refine liesWithin_of_isWithin hcwd ?_
      rw [abspath_abspath hcwd]
      exact hwithin
    · obtain ⟨hrw, hmodes⟩ := hread.mode hsystem hwrites
      exact (hmodes root hroot).resolve_left fun hro => hmode ⟨hro, hrw⟩

/-! ### The table of volumes -/

/-- What validation does not see of a table would pass by itself: the last mount of each path
that is not validated as it is mounted, and the workspace where no mount takes its place. -/
structure UnseenInScope (rt : PyRuntime) (cwd : String) (writable : String → Bool)
    (roots : List ScopeRoot) (mounts : List MountDef) (workspace : String) : Prop where
  lastMounts : ∀ mount ∈ lastOfKey (hostPath rt cwd) mounts,
    startsWith (hostPath rt cwd mount) "/" = true → ¬ ReadAsMounted rt cwd writable roots mount →
      InScope rt cwd writable roots (hostPath rt cwd mount) ⟨mount.container, mount.mode⟩
  workspace : (∀ mount ∈ mounts, hostPath rt cwd mount ≠ workspace) →
    startsWith workspace "/" = true →
      InScope rt cwd writable roots workspace ⟨"/workspace", "rw"⟩

/-- The table of volumes of a blueprint that is accepted is in scope if and only if what
validation does not see of it is. -/
theorem mounts_in_scope_iff (rt : PyRuntime) (cwd : String) (writable : String → Bool)
    (scopes : Scopes) (bp : Blueprint) (blueprintId uniqueSuffix : String)
    (resumeVolume : Option String) (hcwd : startsWith cwd "/" = true)
    (haccepted : (validateBlueprintMounts rt cwd scopes bp).1 = true) :
    MountsInScope rt cwd writable (scopeRoots cwd scopes bp)
        (startVolumes rt cwd blueprintId uniqueSuffix resumeVolume bp) ↔
      UnseenInScope rt cwd writable (scopeRoots cwd scopes bp) bp.mounts
        (volumeName blueprintId uniqueSuffix resumeVolume) := by
  constructor
  · intro h
    refine ⟨fun mount hmount hstart _ => ?_, fun hnone hstart => ?_⟩
    · exact h _ _ (get?_insertAll_of_mem hmount) hstart
    · refine h _ _ ?_ hstart
      unfold startVolumes
      rw [get?_insertAll_of_forall hnone, get?_cons, if_pos rfl]
  · intro h key entry hentry hstart
    rcases get?_insertAll hentry with ⟨mount, hlast, rfl, rfl⟩ | ⟨hnone, hworkspace⟩
    · by_cases hread : ReadAsMounted rt cwd writable (scopeRoots cwd scopes bp) mount
      · exact inScope_of_checkMount hcwd (validate_ok haccepted (mem_of_mem_lastOfKey hlast)) hread
      · exact h.lastMounts mount hlast hstart hread
    · rw [get?_cons] at hworkspace
      split at hworkspace
      · rename_i hkey
        rw [← Option.some.inj hworkspace]
        subst hkey
        exact h.workspace hnone hstart
      · simp at hworkspace

/-- A blueprint with a directory below `/tmp`. -/
def scratchBlueprint : Blueprint :=
  { id := "box", name := "box", mounts := [{ host := "/tmp/box", container := "/data" }] }

theorem scratchBlueprint_in_scope :
    MountsInScope PyRuntime.ascii "/app" (fun mode => mode != "ro") (scopeRoots "/app" []
        scratchBlueprint) (startVolumes PyRuntime.ascii "/app" "box" "1" none scratchBlueprint) := by
  refine (mounts_in_scope_iff PyRuntime.ascii "/app" (fun mode => mode != "ro") [] scratchBlueprint
    "box" "1" none (by decide) (by decide +kernel)).mpr ⟨fun mount hmount _ _ => ?_, fun _ h => ?_⟩
  · obtain rfl : mount = { host := "/tmp/box", container := "/data" } := by
      simpa [scratchBlueprint, lastOfKey] using hmount
    decide +kernel
  · exact absurd h (by decide +kernel)

/-- A named volume whose name is a path of the host. -/
def volumeBlueprint : Blueprint :=
  { id := "box", name := "box"
    mounts := [{ host := "/etc", container := "/host", type := "volume" }] }

theorem volume_out_of_scope :
    (validateBlueprintMounts PyRuntime.ascii "/app" [] volumeBlueprint).1 = true ∧
      ¬ MountsInScope PyRuntime.ascii "/app" (fun mode => mode != "ro") (scopeRoots "/app" []
        volumeBlueprint) (startVolumes PyRuntime.ascii "/app" "box" "1" none volumeBlueprint) := by
  refine ⟨by decide +kernel, fun h => ?_⟩
  have hscope := h "/etc" ⟨"/host", "rw"⟩ (by decide +kernel) (by decide)
  exact absurd hscope (by decide +kernel)

end Trion.Blueprints
