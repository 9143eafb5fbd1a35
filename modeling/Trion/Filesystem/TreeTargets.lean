import Mathlib.Data.List.Induction
import Mathlib.Data.String.Basic
import Trion.Filesystem.OpenTargets

/-!
# Targets in a tree

A path below a base is normalised to the names of both, and the order of such paths does not
depend on the base.  In a tree every path of names is opened as far as its node allows, and a
link is refused.
-/

namespace Trion.Filesystem

open Trion.Python OrderedDict FileTree

/-! ### Paths below a base -/

/-- A base that `open_target` accepts with the root allowed. -/
structure IsBase (base : String) : Prop where
  noNul : Char.ofNat 0 ∉ base.toList
  relative : isAbsolute base = false
  names : ∀ part ∈ pathParts base, IsEntryName part

/-- The path of some names below a base, as the walk writes it. -/
def childPath (base : String) (names : List String) : String :=
  if base = "" then joinSlash names else base ++ "/" ++ joinSlash names

variable {base normalized : String} {names names' : List String}

/-- A base that is accepted is normalised to its parts. -/
lemma isBase_of_normalize (h : normalizeRelativePath (.str base) true = .ok normalized) :
    IsBase base ∧ normalized = joinSlash (pathParts base) := by
  unfold normalizeRelativePath at h
  dsimp only at h
  split at h
  · simp at h
  · rename_i hnul
    split at h
    · simp at h
    · rename_i habsolute
      have hrelative : isAbsolute base = false := by simpa using habsolute
      split at h
      · rename_i hdots
        split at h
        · rename_i hallowed
          -- the root has no parts, and so none of the forbidden ones
          have hroot : base = "" ∨ base = "." := by simpa using hallowed
          rcases hroot with rfl | rfl <;> exact absurd hdots (by decide)
        · simp at h
      · rename_i hdots
        have hpart : ∀ part ∈ pathParts base, IsEntryName part := by
          intro part hpart
          have hnot : part ∉ ["", ".", ".."] := by
            intro hmem
            exact hdots (List.any_eq_true.mpr ⟨part, hpart, by simpa using hmem⟩)
          simp only [List.mem_cons, List.not_mem_nil, or_false, not_or] at hnot
          refine ⟨hnot.1, hnot.2.1, hnot.2.2, ?_⟩
          unfold pathParts at hpart
          rw [splitRoot_of_not_isAbsolute hrelative] at hpart
          dsimp only at hpart
          rw [if_pos rfl] at hpart
          exact sep_notMem_of_mem_splitOn (List.mem_filter.mp hpart).1
        refine ⟨⟨hnul, hrelative, hpart⟩, ?_⟩
        split at h
        · rename_i hnil
          rw [hnil]
          exact (Except.ok.inj h).symm
        · exact (Except.ok.inj h).symm

lemma head?_of_not_isAbsolute (h : isAbsolute base = false) : base.toList.head? ≠ some '/' := by
  intro hhead
  obtain ⟨rest, hrest⟩ : ∃ rest, base.toList = '/' :: rest := by
    cases hlist : base.toList with
    | nil => simp [hlist] at hhead
    | cons c cs =>
      obtain rfl : c = '/' := by simpa [hlist] using hhead
      exact ⟨cs, rfl⟩
  unfold isAbsolute splitRoot at h
  rw [hrest] at h
  split at h
  · simp at h
  · simp at h
  · simp at h
  · rename_i hno
    exact hno rest rfl

lemma toList_childPath (names : List String) (h : base ≠ "") :
    (childPath base names).toList = base.toList ++ '/' :: (joinSlash names).toList := by
  unfold childPath
  rw [if_neg h, String.toList_append, String.toList_append]
  simp

/-- A path below a base is normalised to the names of both. -/
lemma IsBase.normalize_childPath (h : IsBase base) (hnames : IsRelative names) :
    normalizeRelativePath (.str (childPath base names)) true =
      .ok (joinSlash (pathParts base ++ names)) := by
  by_cases hempty : base = ""
  · subst hempty
    exact hnames.normalize_joinSlash true
  · have hlist := toList_childPath names hempty
    have hhead : (childPath base names).toList.head? ≠ some '/' := by
      rw [hlist]
      have hbase := head?_of_not_isAbsolute h.relative
      cases hchars : base.toList with
      | nil => exact absurd (by simpa using hchars) hempty
      | cons c cs => simpa [hchars] using hbase
    have hroot := splitRoot_of_relative hhead
    have hsplit : splitOn '/' (childPath base names) = splitOn '/' base ++ names := by
      have hown := hnames.splitOn_joinSlash
      unfold splitOn at hown ⊢
      rw [hlist, List.splitOn_append_cons_self, List.map_append, hown]
    have hparts : pathParts (childPath base names) = pathParts base ++ names := by
      unfold pathParts
      rw [hroot, splitRoot_of_not_isAbsolute h.relative]
      dsimp only
      rw [if_pos rfl, if_pos rfl, hsplit, List.filter_append]
      congr 1
      refine List.filter_eq_self.mpr fun part hpart => ?_
      have hname := hnames.names part hpart
      simp [hname.1, hname.2.1]
    have hall : ∀ part ∈ pathParts base ++ names, IsEntryName part := by
      intro part hpart
      rcases List.mem_append.mp hpart with hpart | hpart
      · exact h.names part hpart
      · exact hnames.names part hpart
    have hdots : ((pathParts base ++ names).any fun part => part ∈ ["", ".", ".."]) = false := by
      refine List.any_eq_false.mpr fun part hpart => ?_
      obtain ⟨hne, hdot, hdotDot, -⟩ := hall part hpart
      simp [hne, hdot, hdotDot]
    have hnul : Char.ofNat 0 ∉ (childPath base names).toList := by
      rw [hlist, List.mem_append, List.mem_cons]
      rintro (hmem | hmem | hmem)
      · exact h.noNul hmem
      · exact absurd hmem (by decide)
      · exact hnames.noNul_joinSlash hmem
    have habsolute : isAbsolute (childPath base names) = false := by
      unfold isAbsolute
      rw [hroot]
      rfl
    unfold normalizeRelativePath
    dsimp only
    rw [if_neg hnul, if_neg (by simp [habsolute]), hparts,
      if_neg (by rw [hdots]; exact Bool.false_ne_true),
      if_neg (by simp [hnames.ne_nil])]

/-! ### Order of the paths -/

lemma string_append_lt_append_left {p s t : String} : p ++ s < p ++ t ↔ s < t := by
  simp only [String.lt_iff_toList_lt, String.toList_append]
  constructor
  · intro h
    rcases lt_trichotomy s.toList t.toList with hlt | heq | hgt
    · exact hlt
    · rw [heq] at h
      exact absurd h (lt_irrefl _)
    · exact absurd h (lt_asymm (List.append_left_lt hgt))
  · exact List.append_left_lt

lemma string_lt_append {s t : String} (h : t ≠ "") : s < s ++ t := by
  have hnil : s = s ++ "" := by simp
  conv_lhs => rw [hnil]
  rw [string_append_lt_append_left, String.lt_iff_toList_lt]
  cases hlist : t.toList with
  | nil => exact absurd (by simpa using hlist) h
  | cons c cs => exact List.nil_lt_cons c cs

/-- Names below a base are in the order of their paths. -/
lemma childPath_lt : childPath base names < childPath base names' ↔
    joinSlash names < joinSlash names' := by
  unfold childPath
  split
  · exact Iff.rfl
  · exact string_append_lt_append_left

lemma joinSlash_append (hnames : names ≠ []) (hnames' : names' ≠ []) :
    joinSlash (names ++ names') = joinSlash names ++ "/" ++ joinSlash names' := by
  refine String.toList_inj.mp ?_
  rw [String.toList_append, String.toList_append, toList_joinSlash, toList_joinSlash,
    toList_joinSlash, List.map_append]
  induction names with
  | nil => exact absurd rfl hnames
  | cons name names ih =>
    cases names with
    | nil =>
      obtain ⟨first, rest, rfl⟩ := List.exists_cons_of_ne_nil hnames'
      simp [List.intercalate_cons_cons]
    | cons next names =>
      have hrest := ih (List.cons_ne_nil _ _)
      simp only [List.map_cons, List.cons_append, List.intercalate_cons_cons] at hrest ⊢
      rw [hrest]
      simp

lemma joinSlash_append_lt (parts : List String) (hnames : names ≠ []) (hnames' : names' ≠ []) :
    joinSlash (parts ++ names) < joinSlash (parts ++ names') ↔
      joinSlash names < joinSlash names' := by
  by_cases hparts : parts = []
  · rw [hparts, List.nil_append, List.nil_append]
  · rw [joinSlash_append hparts hnames, joinSlash_append hparts hnames',
      string_append_lt_append_left]

lemma IsRelative.eq_of_childPath (h : IsRelative names) (h' : IsRelative names')
    (heq : childPath base names = childPath base names') : names = names' := by
  have hjoin : joinSlash names = joinSlash names' := by
    unfold childPath at heq
    split at heq
    · exact heq
    · exact String.toList_inj.mp (by simpa using congrArg String.toList heq)
  rw [← h.splitOn_joinSlash, ← h'.splitOn_joinSlash, hjoin]

/-- A path is continued by one more name. -/
lemma childPath_concat (h : names ≠ []) (name : String) :
    childPath base (names ++ [name]) = childPath base names ++ "/" ++ name := by
  have hone : joinSlash [name] = name := by
    unfold joinSlash
    simp
  unfold childPath
  rw [joinSlash_append h (List.cons_ne_nil name []), hone]
  split
  · rfl
  · simp only [String.append_assoc]

/-! ### Opening a path of a tree -/

variable {ι : Type} {fs : FileSystem ι} {r dir i : ι} {fds : Descriptors ι}

/-- A link is refused. -/
lemma openComponent_link {component target : String} {flags : OpenFlags} {currentFd : ℕ}
    (hname : IsEntryName component) (hflags : flags.noFollow = true)
    (hrefuse : fs.refuse dir component = none) (hdir : get? fds currentFd = some dir)
    (hentry : entryAt fs dir component = some i) (hlink : fs.node i = .symlink target) :
    openComponent fs component flags currentFd fds =
      (.error ⟨"SYMLINK_ESCAPE", "symlinks are forbidden: " ++ component, false⟩, fds) := by
  have hsymlink : isSymlink fs component currentFd fds = true := by
    unfold isSymlink
    rw [hdir, Option.map_some, isLink_of_entryAt hentry hlink]
    rfl
  unfold openComponent
  rw [hdir]
  dsimp only
  rw [openAt_of_entryAt hname hrefuse hentry, hlink]
  dsimp only
  rw [if_pos hflags, hsymlink]
  rfl

/-- A directory is opened, and a regular file where no directory is asked for. -/
lemma openComponent_entry {component : String} {flags : OpenFlags} {currentFd : ℕ}
    (hname : IsEntryName component) (hrefuse : fs.refuse dir component = none)
    (hdir : get? fds currentFd = some dir) (hentry : entryAt fs dir component = some i)
    (hnode : (∃ entries, fs.node i = .directory entries) ∨
      flags.directory = false ∧ ∃ size, fs.node i = .regular size) :
    openComponent fs component flags currentFd fds =
      (.ok (openDescriptor fs fds i).1, (openDescriptor fs fds i).2) := by
  have hopen : openAt fs dir component flags = .ok i := by
    rw [openAt_of_entryAt hname hrefuse hentry]
    rcases hnode with ⟨entries, hnode⟩ | ⟨hflags, size, hnode⟩
    · rw [hnode]
    · rw [hnode]
      dsimp only
      rw [hflags]
      rfl
  unfold openComponent
  rw [hdir]
  dsimp only
  rw [hopen]

/-- A node that has something below it is a directory. -/
lemma directory_of_nodeAt {name : String} (h : nodeAt fs dir (name :: names) = some i) :
    ∃ entries, fs.node dir = .directory entries := by
  obtain ⟨j, hj, -⟩ := Option.bind_eq_some_iff.mp h
  obtain ⟨entries, hdir, -⟩ := entryAt_eq_some.mp hj
  exact ⟨entries, hdir⟩

/-- What the loop of `open_target` does along a path of a tree. -/
lemma openComponents_of_nodeAt {opened : Descriptors ι} {rootFd currentFd : ℕ}
    (htree : IsTree fs dir) (hi : nodeAt fs dir names = some i) (hroot : rootFd ∈ keys opened)
    (h : Holding opened rootFd currentFd fds dir) :
    ∃ failure? currentFd' fds' dir', Holding opened rootFd currentFd' fds' dir' ∧
      openComponents fs rootFd names currentFd fds = (failure?, currentFd', fds') ∧
      ((∀ target, fs.node i ≠ .symlink target) → failure? = none ∧ dir' = i) ∧
      (names ≠ [] → ∀ target, fs.node i = .symlink target →
        ∃ message, failure? = some ⟨"SYMLINK_ESCAPE", message, false⟩) := by
  -- by induction on the names: all but the last are names of directories
  induction names generalizing dir currentFd fds with
  | nil =>
    obtain rfl : dir = i := Option.some.inj hi
    exact ⟨none, currentFd, fds, dir, h, rfl, fun _ => ⟨rfl, rfl⟩, fun hne => absurd rfl hne⟩
  | cons component components ih =>
    obtain ⟨j, hj, hrest⟩ := Option.bind_eq_some_iff.mp hi
    have hname := (htree.names_of_nodeAt hi component List.mem_cons_self).1
    have hrefuse := htree.readable component nodeAt_nil
    have hbelow : nodeAt fs dir [component] = some j := by
      have hone : nodeAt fs dir [component] = (entryAt fs dir component).bind some := rfl
      rw [hone, hj, Option.bind_some]
    unfold openComponents
    dsimp only
    by_cases hlink : ∃ target, fs.node j = .symlink target
    · obtain ⟨target, hlink⟩ := hlink
      obtain rfl : components = [] := by
        cases components with
        | nil => rfl
        | cons name components =>
          obtain ⟨entries, hdirectory⟩ := directory_of_nodeAt hrest
          rw [hlink] at hdirectory
          cases hdirectory
      obtain rfl : j = i := Option.some.inj hrest
      rw [openComponent_link hname rfl hrefuse h.get?_current hj hlink]
      exact ⟨_, currentFd, fds, dir, h, rfl, fun hno => absurd hlink (hno target),
        fun _ _ _ => ⟨_, rfl⟩⟩
    · have hnode : (∃ entries, fs.node j = .directory entries) ∨
          (!components.isEmpty) = false ∧ ∃ size, fs.node j = .regular size := by
        cases components with
        | cons name components => exact .inl (directory_of_nodeAt hrest)
        | nil =>
          cases hcase : fs.node j with
          | directory entries => exact .inl ⟨entries, rfl⟩
          | regular size => exact .inr ⟨rfl, size, rfl⟩
          | symlink target => exact absurd ⟨target, hcase⟩ hlink
          | special => exact absurd hcase (htree.noSpecial hbelow)
      rw [openComponent_entry hname hrefuse h.get?_current hj hnode]
      obtain ⟨failure?, currentFd', fds', dir', hholding, hrun, hplain, hlinked⟩ :=
        ih (htree.below hbelow) hrest (h.next hroot fs j)
      refine ⟨failure?, currentFd', fds', dir', hholding, hrun, hplain, fun _ target htarget => ?_⟩
      refine hlinked ?_ target htarget
      rintro rfl
      obtain rfl : j = i := Option.some.inj hrest
      exact hlink ⟨target, htarget⟩

/-- The names of a path are read off it. -/
lemma components_joinSlash (h : names = [] ∨ IsRelative names) :
    (if joinSlash names = "" then [] else splitOn '/' (joinSlash names)) = names := by
  rcases h with rfl | h
  · rfl
  · rw [if_neg h.joinSlash_ne_empty, h.splitOn_joinSlash]

/-- What `open_target` does with a path of a tree. -/
lemma openTarget_of_nodeAt {path : PyVal} {allowRoot : Bool} (htree : IsTree fs r)
    (hr : ∃ entries, fs.node r = .directory entries) (hnames : names = [] ∨ IsRelative names)
    (hpath : normalizeRelativePath path allowRoot = .ok (joinSlash names))
    (hi : nodeAt fs r names = some i) (fds : Descriptors ι) :
    ((∀ target, fs.node i ≠ .symlink target) → ∃ target rootFd fds',
      openTarget fs (.ok r) path allowRoot fds = .yielded target rootFd fds' ∧
        target.relativePath = joinSlash names ∧ target.statResult = some (fs.node i) ∧
        get? fds' target.fd = some i ∧ closeTarget rootFd target.fd fds' = fds) ∧
    (names ≠ [] → ∀ target, fs.node i = .symlink target → ∃ message,
      openTarget fs (.ok r) path allowRoot fds =
        .raised ⟨"SYMLINK_ESCAPE", message, false⟩ fds) := by
  obtain ⟨entries, hr⟩ := hr
  have hopen : openRoot fs (.ok r) fds =
      (.ok (openDescriptor fs fds r).1, (openDescriptor fs fds r).2) := by
    unfold openRoot
    dsimp only [Except.bind]
    rw [hr]
  have hunused := fs.newDescriptor_notMem (keys fds)
  have hholding : Holding (openDescriptor fs fds r).2 (openDescriptor fs fds r).1
      (openDescriptor fs fds r).1 (openDescriptor fs fds r).2 r :=
    .root (get?_append_self hunused r)
  obtain ⟨failure?, currentFd, fds', last, hlast, hrun, hplain, hlinked⟩ :=
    openComponents_of_nodeAt htree hi (by simp [openDescriptor, keys]) hholding
  unfold openTarget
  rw [hpath]
  dsimp only
  rw [hopen]
  dsimp only
  rw [components_joinSlash hnames, hrun]
  constructor
  · intro hno
    obtain ⟨rfl, rfl⟩ := hplain hno
    exact ⟨_, _, _, rfl, rfl, by rw [hlast.get?_current]; rfl, hlast.get?_current,
      hlast.closeTarget_eq hunused⟩
  · intro hne target hlink
    obtain ⟨message, rfl⟩ := hlinked hne target hlink
    exact ⟨message, congrArg _ (hlast.closeTarget_eq hunused)⟩

end Trion.Filesystem
