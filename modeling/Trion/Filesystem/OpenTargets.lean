import Trion.Filesystem.PathPolicy

/-!
# No path leads out of the root

A path that is accepted is a sequence of entry names, and normalising it once more changes
nothing.  Since every component is an entry name and is opened without following links, what is
opened is a descendant of the root, reached through directories only; and every descriptor that
was opened on the way is closed when it fails, as the target is when it is left.
-/

namespace Trion.Filesystem

open Trion.Python OrderedDict FileTree

/-! ### Accepted paths -/

lemma toList_joinSlash (parts : List String) :
    (joinSlash parts).toList = ['/'].intercalate (parts.map String.toList) := by
  unfold joinSlash
  rw [String.toList_ofList]

/-- The names of an accepted path. -/
structure IsRelative (parts : List String) : Prop where
  ne_nil : parts ≠ []
  names : ∀ part ∈ parts, IsEntryName part
  noNul : ∀ part ∈ parts, Char.ofNat 0 ∉ part.toList

/-- A path that does not begin with a slash has no root. -/
lemma splitRoot_of_relative {path : String} (h : path.toList.head? ≠ some '/') :
    splitRoot path = ("", path) := by
  unfold splitRoot
  split
  · rename_i hlist
    simp [hlist] at h
  · rename_i hlist
    simp [hlist] at h
  · rename_i hlist
    simp [hlist] at h
  · rfl

lemma splitRoot_of_not_isAbsolute {path : String} (h : isAbsolute path = false) :
    splitRoot path = ("", path) := by
  unfold isAbsolute splitRoot at h
  unfold splitRoot
  split at h
  · simp at h
  · simp at h
  · simp at h
  · rfl

variable {parts : List String}

/-- An accepted path begins with its first name. -/
lemma IsRelative.head?_joinSlash (h : IsRelative parts) :
    (joinSlash parts).toList.head? ≠ some '/' := by
  obtain ⟨part, rest, rfl⟩ := List.exists_cons_of_ne_nil h.ne_nil
  have hpart := h.names part List.mem_cons_self
  obtain ⟨c, cs, hcs⟩ := List.exists_cons_of_ne_nil
    (show part.toList ≠ [] by simpa using hpart.1)
  have hc : c ≠ '/' := by
    rintro rfl
    exact hpart.2.2.2 (hcs ▸ List.mem_cons_self)
  have hhead : (joinSlash (part :: rest)).toList.head? = some c := by
    rw [toList_joinSlash]
    cases rest with
    | nil => simp [hcs]
    | cons next rest =>
      rw [List.map_cons, List.map_cons, List.intercalate_cons_cons, hcs]
      rfl
  rw [hhead]
  simpa using hc

/-- The names of an accepted path are read off again. -/
lemma IsRelative.splitOn_joinSlash (h : IsRelative parts) :
    splitOn '/' (joinSlash parts) = parts :=
  splitOn_intercalate h.ne_nil fun part hpart => (h.names part hpart).2.2.2

lemma IsRelative.pathParts_joinSlash (h : IsRelative parts) :
    pathParts (joinSlash parts) = parts := by
  unfold pathParts
  rw [splitRoot_of_relative h.head?_joinSlash]
  dsimp only
  rw [if_pos rfl, h.splitOn_joinSlash]
  refine List.filter_eq_self.mpr fun part hpart => ?_
  have hname := h.names part hpart
  simp [hname.1, hname.2.1]

lemma IsRelative.noNul_joinSlash (h : IsRelative parts) :
    Char.ofNat 0 ∉ (joinSlash parts).toList := by
  have hnames := h.noNul
  rw [toList_joinSlash]
  clear h
  induction parts with
  | nil => simp
  | cons part parts ih =>
    have hpart := hnames part List.mem_cons_self
    cases parts with
    | nil => simpa using hpart
    | cons next parts =>
      have hrest := ih fun p hp => hnames p (List.mem_cons_of_mem _ hp)
      rw [List.map_cons, List.map_cons, List.intercalate_cons_cons, List.mem_append,
        List.mem_append, ← List.map_cons]
      rintro ((hmem | hmem) | hmem)
      · exact hpart hmem
      · exact absurd hmem (by decide)
      · exact hrest hmem

lemma IsRelative.joinSlash_ne_empty (h : IsRelative parts) : joinSlash parts ≠ "" := by
  intro hempty
  have hsplit := h.splitOn_joinSlash
  rw [hempty] at hsplit
  have hblank : splitOn '/' "" = [""] := by decide
  exact (h.names "" (by rw [← hsplit, hblank]; exact List.mem_cons_self)).1 rfl

variable {value : PyVal} {allowRoot : Bool} {normalized : String}

/-- What is accepted: the root, or a sequence of names. -/
lemma normalizeRelativePath_ok (h : normalizeRelativePath value allowRoot = .ok normalized) :
    (allowRoot = true ∧ normalized = "") ∨
      ∃ parts, IsRelative parts ∧ normalized = joinSlash parts := by
  unfold normalizeRelativePath at h
  dsimp only at h
  split at h
  · simp at h
  · rename_i raw _
    split at h
    · simp at h
    · rename_i hnul
      split at h
      · simp at h
      · rename_i habsolute
        have hroot := splitRoot_of_not_isAbsolute (by simpa using habsolute)
        have hparts : pathParts raw =
            (splitOn '/' raw).filter fun part => part != "" && part != "." := by
          unfold pathParts
          rw [hroot]
          rfl
        split at h
        · split at h
          · rename_i hallowed
            exact .inl ⟨(Bool.and_eq_true_iff.mp hallowed).1, (Except.ok.inj h).symm⟩
          · simp at h
        · rename_i hdots
          split at h
          · split at h
            · exact .inl ⟨‹_›, (Except.ok.inj h).symm⟩
            · simp at h
          · rename_i hne
            refine .inr ⟨pathParts raw, ⟨hne, fun part hpart => ?_, fun part hpart => ?_⟩,
              (Except.ok.inj h).symm⟩
            · have hnot : part ∉ ["", ".", ".."] := by
                intro hmem
                exact hdots (List.any_eq_true.mpr ⟨part, hpart, by simpa using hmem⟩)
              rw [hparts] at hpart
              have hmem := (List.mem_filter.mp hpart).1
              simp only [List.mem_cons, List.not_mem_nil, or_false, not_or] at hnot
              exact ⟨hnot.1, hnot.2.1, hnot.2.2, sep_notMem_of_mem_splitOn hmem⟩
            · rw [hparts] at hpart
              exact fun hc => hnul (mem_of_mem_splitOn (List.mem_filter.mp hpart).1 hc)

/-- A sequence of names is accepted as it is. -/
lemma IsRelative.normalize_joinSlash (h : IsRelative parts) (allowRoot : Bool) :
    normalizeRelativePath (.str (joinSlash parts)) allowRoot = .ok (joinSlash parts) := by
  have habsolute : isAbsolute (joinSlash parts) = false := by
    unfold isAbsolute
    rw [splitRoot_of_relative h.head?_joinSlash]
    rfl
  have hdots : (parts.any fun part => part ∈ ["", ".", ".."]) = false := by
    refine List.any_eq_false.mpr fun part hpart => ?_
    obtain ⟨hne, hdot, hdotDot, -⟩ := h.names part hpart
    simp [hne, hdot, hdotDot]
  unfold normalizeRelativePath
  dsimp only
  rw [if_neg h.noNul_joinSlash, if_neg (by simp [habsolute]), h.pathParts_joinSlash,
    if_neg (by rw [hdots]; exact Bool.false_ne_true), if_neg h.ne_nil]

/-- Normalising once more changes nothing. -/
lemma normalizeRelativePath_idem (h : normalizeRelativePath value allowRoot = .ok normalized) :
    normalizeRelativePath (.str normalized) allowRoot = .ok normalized := by
  rcases normalizeRelativePath_ok h with ⟨rfl, rfl⟩ | ⟨parts, hparts, rfl⟩
  · rfl
  · exact hparts.normalize_joinSlash allowRoot

example : normalizeRelativePath (.str "./notes//today.md") false = .ok "notes/today.md" := rfl

/-! ### Opened targets -/

variable {ι : Type} {fs : FileSystem ι} {base fds : Descriptors ι} {rootFd currentFd : ℕ} {dir : ι}

/-- The current descriptor is the one of the root, or the only one opened after it. -/
inductive Holding (base : Descriptors ι) (rootFd : ℕ) : ℕ → Descriptors ι → ι → Prop
  | root {dir : ι} : get? base rootFd = some dir → Holding base rootFd rootFd base dir
  | below {currentFd : ℕ} {dir : ι} : currentFd ∉ keys base → currentFd ≠ rootFd →
      Holding base rootFd currentFd (base ++ [(currentFd, dir)]) dir

lemma Holding.get?_current (h : Holding base rootFd currentFd fds dir) :
    get? fds currentFd = some dir := by
  cases h with
  | root hroot => exact hroot
  | below hnew hne => exact get?_append_self hnew dir

/-- The next descriptor, once the current one is closed. -/
lemma Holding.next (h : Holding base rootFd currentFd fds dir) (hroot : rootFd ∈ keys base)
    (fs : FileSystem ι) (i : ι) :
    Holding base rootFd (openDescriptor fs fds i).1
      (if currentFd = rootFd then (openDescriptor fs fds i).2
        else close (openDescriptor fs fds i).2 currentFd) i := by
  have hunused := fs.newDescriptor_notMem (keys fds)
  unfold openDescriptor
  dsimp only
  cases h with
  | root =>
    rw [if_pos rfl]
    exact .below hunused fun heq => hunused (heq ▸ hroot)
  | below hnew hne =>
    rw [if_neg hne]
    generalize fs.newDescriptor (keys (base ++ [(currentFd, dir)])) = nextFd at hunused
    have hkeys : nextFd ∉ keys base ∧ nextFd ≠ currentFd := by
      simpa [keys, not_or] using hunused
    have hclose : close (base ++ [(currentFd, dir)] ++ [(nextFd, i)]) currentFd =
        base ++ [(nextFd, i)] := by
      have hfirst := close_append hnew dir
      unfold close erase at hfirst ⊢
      rw [List.filter_append, hfirst]
      simp [hkeys.2]
    rw [hclose]
    exact .below hkeys.1 fun heq => hkeys.1 (heq ▸ hroot)

/-- The `finally` block closes what was opened. -/
lemma Holding.closeTarget_eq (hroot : rootFd ∉ keys fds) {r : ι} {opened : Descriptors ι}
    (h : Holding (fds ++ [(rootFd, r)]) rootFd currentFd opened dir) :
    closeTarget rootFd currentFd opened = fds := by
  unfold closeTarget
  cases h with
  | root =>
    rw [if_pos rfl]
    exact close_append hroot r
  | below hnew hne =>
    rw [if_neg hne, close_append hnew dir]
    exact close_append hroot r

/-- A component that is opened is an entry of the directory. -/
lemma openComponent_ok {component : String} {flags : OpenFlags} {nextFd : ℕ}
    {opened : Descriptors ι} (hname : IsEntryName component) (hflags : flags.noFollow = true)
    (hdir : get? fds currentFd = some dir)
    (h : openComponent fs component flags currentFd fds = (.ok nextFd, opened)) :
    ∃ i, IsPlainEntry fs dir component i ∧ nextFd = (openDescriptor fs fds i).1 ∧
      opened = (openDescriptor fs fds i).2 := by
  unfold openComponent at h
  rw [hdir] at h
  dsimp only at h
  split at h
  · simp at h
  · rename_i i hopen
    obtain ⟨hfd, hopened⟩ := Prod.mk.inj h
    exact ⟨i, isPlainEntry_of_openAt hname hflags hopen, (Except.ok.inj hfd).symm, hopened.symm⟩

lemma openComponent_error {component : String} {flags : OpenFlags} {failure : FilesystemFailure}
    {opened : Descriptors ι}
    (h : openComponent fs component flags currentFd fds = (.error failure, opened)) :
    opened = fds := by
  unfold openComponent at h
  dsimp only at h
  split at h
  · exact (Prod.mk.inj h).2.symm
  · simp at h

/-- The loop goes down from the root, entry by entry. -/
lemma openComponents_holding {r : ι} {names components : List String}
    (hroot : rootFd ∈ keys base) (h : Holding base rootFd currentFd fds dir)
    (hdescends : Descends fs r names dir) (hnames : ∀ name ∈ components, IsEntryName name)
    {result : Option FilesystemFailure} {currentFd' : ℕ} {fds' : Descriptors ι}
    (hrun : openComponents fs rootFd components currentFd fds = (result, currentFd', fds')) :
    ∃ i, Holding base rootFd currentFd' fds' i ∧
      (result = none → Descends fs r (names ++ components) i) := by
  induction components generalizing names currentFd fds dir with
  | nil =>
    obtain ⟨rfl, hrest⟩ := Prod.mk.inj hrun
    obtain ⟨rfl, rfl⟩ := Prod.mk.inj hrest
    rw [List.append_nil]
    exact ⟨dir, h, fun _ => hdescends⟩
  | cons component components ih =>
    unfold openComponents at hrun
    dsimp only at hrun
    split at hrun
    · rename_i failure opened hopen
      obtain rfl := openComponent_error hopen
      obtain ⟨rfl, hrest⟩ := Prod.mk.inj hrun
      obtain ⟨rfl, rfl⟩ := Prod.mk.inj hrest
      exact ⟨dir, h, by simp⟩
    · rename_i nextFd opened hopen
      obtain ⟨i, hentry, rfl, rfl⟩ := openComponent_ok (hnames component List.mem_cons_self) rfl
        h.get?_current hopen
      obtain ⟨j, hholding, hreached⟩ := ih (h.next hroot fs i) (hdescends.entry hentry)
        (fun name hname => hnames name (List.mem_cons_of_mem _ hname)) hrun
      refine ⟨j, hholding, fun hnone => ?_⟩
      have hpath := hreached hnone
      rwa [List.append_assoc, List.singleton_append] at hpath

lemma openRoot_ok {root : Except Errno ι} {opened : Descriptors ι}
    (h : openRoot fs root fds = (.ok rootFd, opened)) :
    ∃ r, root = .ok r ∧ rootFd = (openDescriptor fs fds r).1 ∧
      opened = (openDescriptor fs fds r).2 := by
  unfold openRoot at h
  dsimp only at h
  split at h
  · simp at h
  · rename_i r hopen
    obtain ⟨hfd, hopened⟩ := Prod.mk.inj h
    cases root with
    | error errno => simp [Except.bind] at hopen
    | ok r' =>
      have hsame : r' = r := by
        simp only [Except.bind] at hopen
        split at hopen
        · exact Except.ok.inj hopen
        · simp at hopen
      subst hsame
      exact ⟨r', rfl, (Except.ok.inj hfd).symm, hopened.symm⟩

lemma openRoot_error {root : Except Errno ι} {failure : FilesystemFailure}
    {opened : Descriptors ι} (h : openRoot fs root fds = (.error failure, opened)) :
    opened = fds := by
  unfold openRoot at h
  dsimp only at h
  split at h
  · exact (Prod.mk.inj h).2.symm
  · simp at h

/-- The components `open_target` goes through. -/
lemma components_of_normalized (h : normalizeRelativePath value allowRoot = .ok normalized) :
    ∃ names, (∀ name ∈ names, IsEntryName name) ∧ normalized = joinSlash names ∧
      (if normalized = "" then [] else splitOn '/' normalized) = names := by
  rcases normalizeRelativePath_ok h with ⟨-, rfl⟩ | ⟨parts, hparts, rfl⟩
  · exact ⟨[], by simp, rfl, rfl⟩
  · refine ⟨parts, hparts.names, rfl, ?_⟩
    rw [if_neg hparts.joinSlash_ne_empty, hparts.splitOn_joinSlash]

/-- `open_target` yields a descendant of the root that is reached without a link, and closes it
on leaving, or raises with no more descriptors open than before. -/
lemma openTarget_holding (value : PyVal) (allowRoot : Bool) (fs : FileSystem ι)
    (root : Except Errno ι) (fds : Descriptors ι) :
    match openTarget fs root value allowRoot fds with
    | .raised _ fds' => fds' = fds
    | .yielded target rootFd fds' => ∃ r names i, root = .ok r ∧ Descends fs r names i ∧
      normalizeRelativePath value allowRoot = .ok target.relativePath ∧
      target.relativePath = joinSlash names ∧ get? fds' target.fd = some i ∧
      target.statResult = some (fs.node i) ∧ closeTarget rootFd target.fd fds' = fds := by
  unfold openTarget
  cases hok : normalizeRelativePath value allowRoot with
  | error failure => rfl
  | ok normalized =>
    obtain ⟨names, hnames, hjoin, hcomponents⟩ := components_of_normalized hok
    dsimp only
    cases hopen : openRoot fs root fds with
    | mk opened fds₁ =>
      cases opened with
      | error failure => exact openRoot_error hopen
      | ok rootFd =>
        obtain ⟨r, hr, rfl, rfl⟩ := openRoot_ok hopen
        have hunused := fs.newDescriptor_notMem (keys fds)
        have hholding : Holding (openDescriptor fs fds r).2 (openDescriptor fs fds r).1
            (openDescriptor fs fds r).1 (openDescriptor fs fds r).2 r :=
          .root (get?_append_self hunused r)
        dsimp only
        rw [hcomponents]
        cases hrun : openComponents fs (openDescriptor fs fds r).1 names
            (openDescriptor fs fds r).1 (openDescriptor fs fds r).2 with
        | mk result rest =>
          obtain ⟨currentFd, fds'⟩ := rest
          obtain ⟨i, hlast, hreached⟩ := openComponents_holding
            (by simp [openDescriptor, keys]) hholding .refl hnames hrun
          cases result with
          | some failure => exact hlast.closeTarget_eq hunused
          | none =>
            exact ⟨r, names, i, hr, hreached rfl, rfl, hjoin, hlast.get?_current,
              by rw [hlast.get?_current]; rfl, hlast.closeTarget_eq hunused⟩

/-- A normalised path is a sequence of entry names joined by slashes, and is normalised to
itself; and `open_target` yields a descendant of the root that is reached without a link, and
closes it on leaving, or raises with no more descriptors open than before. -/
theorem path_policy (value : PyVal) (allowRoot : Bool) (fs : FileSystem ι)
    (root : Except Errno ι) (fds : Descriptors ι) :
    (match normalizeRelativePath value allowRoot with
      | .error _ => True
      | .ok normalized => (∃ names, (∀ name ∈ names, IsEntryName name) ∧
          normalized = joinSlash names) ∧
        normalizeRelativePath (.str normalized) allowRoot = .ok normalized) ∧
    match openTarget fs root value allowRoot fds with
      | .raised _ fds' => fds' = fds
      | .yielded target rootFd fds' => ∃ r names i, root = .ok r ∧ Descends fs r names i ∧
        normalizeRelativePath value allowRoot = .ok target.relativePath ∧
        target.relativePath = joinSlash names ∧ get? fds' target.fd = some i ∧
        target.statResult = some (fs.node i) ∧ closeTarget rootFd target.fd fds' = fds := by
  constructor
  · split
    · trivial
    · rename_i normalized hok
      obtain ⟨names, hnames, hjoin, -⟩ := components_of_normalized hok
      exact ⟨⟨names, hnames, hjoin⟩, normalizeRelativePath_idem hok⟩
  · exact openTarget_holding value allowRoot fs root fds

end Trion.Filesystem
