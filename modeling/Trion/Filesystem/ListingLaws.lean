import Mathlib.Algebra.GroupWithZero.Nat
import Mathlib.Algebra.Order.BigOperators.Group.List
import Trion.Filesystem.Listing
import Trion.Filesystem.TreeTargets

/-!
# What a listing says

The walk below a directory visits paths in increasing order, each once; what it lists are the
files and directories it visits; and where no flag says that something was cut, it has visited
every path of the tree.
-/

namespace Trion.Filesystem

open Trion.Python OrderedDict FileTree OrderedWalk

variable {base : String} {names names' : List String} {ι : Type} {fs : FileSystem ι} {r dir i : ι}
  {fds : Descriptors ι}

/-! ### One turn -/

/-- What is taken from a directory are distinct names of it; where more stand there, it is
said. -/
lemma boundedNames_ok {names taken : List String} {limit : ℤ} {limited : Bool}
    (h : boundedNames names limit = .ok (taken, limited)) :
    (names.Nodup → taken.Nodup) ∧ (∀ name ∈ taken, name ∈ names) ∧
      (limited = false → ∀ name ∈ names, name ∈ taken) := by
  unfold boundedNames at h
  split at h
  · cases h
  · obtain ⟨rfl, rfl⟩ := Prod.mk.inj (Except.ok.inj h)
    refine ⟨fun hnodup => ?_, fun name hname => ?_, fun hlimited name hname => ?_⟩
    · exact ((List.perm_insertionSort _ _).nodup_iff.mpr
        (hnodup.sublist (List.take_sublist ..))).sublist (List.take_sublist ..)
    · exact List.mem_of_mem_take ((List.mem_insertionSort _).mp (List.mem_of_mem_take hname))
    · have hlength := of_decide_eq_false hlimited
      rw [List.length_insertionSort, List.length_take] at hlength
      rw [List.take_of_length_le (l := names) (by omega), List.take_of_length_le
        (by rw [List.length_insertionSort]; omega)]
      exact (List.mem_insertionSort _).mpr hname

/-- The names taken from a directory. -/
def takenNames (names : List String) (limit : ℕ) : List String :=
  ((names.take (limit + 1)).insertionSort (· ≤ ·)).take limit

lemma boundedNames_natCast (names : List String) (limit : ℕ) :
    boundedNames names limit = .ok (takenNames names limit, decide (limit < names.length)) := by
  have hlength : (limit : ℤ) < (min (limit + 1) names.length : ℕ) ↔ limit < names.length := by
    omega
  have hnat : ((limit : ℤ) + 1).toNat = limit + 1 := by omega
  unfold boundedNames
  rw [if_neg (by omega), hnat]
  simp only [List.length_insertionSort, List.length_take, Int.toNat_natCast, hlength]
  rfl

/-- What a turn takes from a directory. -/
lemma takenNames_ok (names : List String) (limit : ℕ) :
    (names.Nodup → (takenNames names limit).Nodup) ∧
      (∀ name ∈ takenNames names limit, name ∈ names) ∧
      (decide (limit < names.length) = false → ∀ name ∈ names, name ∈ takenNames names limit) :=
  boundedNames_ok (boundedNames_natCast names limit)

/-- What a listing says of a node. -/
def entryOf (fs : FileSystem ι) (path : String) (i : ι) : Option FileEntry :=
  match fs.node i with
  | .directory _ => some ⟨path, .directory, none⟩
  | .regular size => some ⟨path, .file, some size⟩
  | _ => none

lemma relativePath_of_entryOf {path : String} {entry : FileEntry}
    (h : entryOf fs path i = some entry) : entry.relativePath = path := by
  unfold entryOf at h
  split at h
  · exact (Option.some.inj h) ▸ rfl
  · exact (Option.some.inj h) ▸ rfl
  · cases h

/-- A tree with a root that can be opened, and the directory at a base. -/
structure BaseDirectory (fs : FileSystem ι) (r : ι) (base : String) (dir : ι) : Prop where
  tree : IsTree fs r
  root : ∃ entries, fs.node r = .directory entries
  isBase : IsBase base
  at_base : nodeAt fs r (pathParts base) = some dir
  directory : ∃ entries, fs.node dir = .directory entries

section Turns

variable (hbase : BaseDirectory fs r base dir)
include hbase

lemma BaseDirectory.below : IsTree fs dir := hbase.tree.below hbase.at_base

lemma BaseDirectory.nodeAt_append (names : List String) :
    nodeAt fs r (pathParts base ++ names) = nodeAt fs dir names := by
  rw [FileTree.nodeAt_append, hbase.at_base, Option.bind_some]

lemma BaseDirectory.isRelative (hi : nodeAt fs dir names = some i) (hne : names ≠ []) :
    IsRelative (pathParts base ++ names) := by
  have hnames := hbase.tree.names_of_nodeAt ((hbase.nodeAt_append names).trans hi)
  exact ⟨by simp [hne], fun part hpart => (hnames part hpart).1,
    fun part hpart => (hnames part hpart).2⟩

lemma BaseDirectory.isRelative_names (hi : nodeAt fs dir names = some i) (hne : names ≠ []) :
    IsRelative names := by
  have hnames := hbase.below.names_of_nodeAt hi
  exact ⟨hne, fun part hpart => (hnames part hpart).1, fun part hpart => (hnames part hpart).2⟩

variable (hi : nodeAt fs dir names = some i) (hne : names ≠ []) (maxDepth : ℤ)
  (remaining depth : ℕ) (s : Scan ι)
include hi hne

/-- What the policy makes of a path of the walk. -/
lemma BaseDirectory.normalize_childPath : normalizeRelativePath (.str (childPath base names)) true =
    .ok (joinSlash (pathParts base ++ names)) :=
  hbase.isBase.normalize_childPath (hbase.isRelative_names hi hne)

/-- A link is passed over. -/
lemma walkTurn_link {target : String} (hnode : fs.node i = .symlink target) :
    walkTurn fs (.ok r) maxDepth remaining (toLex (childPath base names, depth)) s =
      .ok ([], s) := by
  obtain ⟨message, hraised⟩ := (openTarget_of_nodeAt hbase.tree hbase.root
    (.inr (hbase.isRelative hi hne)) (hbase.normalize_childPath hi hne)
    ((hbase.nodeAt_append names).trans hi) s.fds).2 (by simp [hne]) target hnode
  unfold walkTurn withTarget
  dsimp only [ofLex_toLex]
  rw [hraised]
  rfl

/-- The target of a path that is no link, and the descriptors after it. -/
lemma withTarget_childPath {α : Type} (hnode : ∀ target, fs.node i ≠ .symlink target)
    (body : OpenTarget ι → Descriptors ι → Except ListingError α) (fds : Descriptors ι) :
    ∃ target fds', withTarget fs (.ok r) (.str (childPath base names)) true fds body =
        (body target fds', fds) ∧
      target.relativePath = joinSlash (pathParts base ++ names) ∧
      target.statResult = some (fs.node i) ∧ get? fds' target.fd = some i := by
  obtain ⟨target, rootFd, fds', hyielded, hrelative, hstat, hfd, hclose⟩ :=
    (openTarget_of_nodeAt hbase.tree hbase.root (.inr (hbase.isRelative hi hne))
      (hbase.normalize_childPath hi hne) ((hbase.nodeAt_append names).trans hi) fds).1 hnode
  refine ⟨target, fds', ?_, hrelative, hstat, hfd⟩
  unfold withTarget
  rw [hyielded]
  dsimp only
  rw [hclose]

/-- A regular file is listed. -/
lemma walkTurn_regular {size : ℕ} (hnode : fs.node i = .regular size) :
    walkTurn fs (.ok r) maxDepth remaining (toLex (childPath base names, depth)) s =
      .ok ([], { s with
        entries := s.entries ++ [⟨joinSlash (pathParts base ++ names), .file, some size⟩] }) := by
  obtain ⟨target, fds', hwith, hrelative, hstat, -⟩ := withTarget_childPath hbase hi hne
    (by simp [hnode]) (visitTarget fs maxDepth remaining (childPath base names) depth s) s.fds
  unfold walkTurn
  dsimp only [ofLex_toLex]
  rw [hwith]
  unfold visitTarget entryFromTarget
  rw [hstat, hnode, hrelative]
  rfl

/-- A directory is listed; above the depth its names are taken, and at the depth the walk says
that it was cut. -/
lemma walkTurn_directory {entries : List (String × ι)} (hnode : fs.node i = .directory entries) :
    walkTurn fs (.ok r) maxDepth remaining (toLex (childPath base names, depth)) s =
      .ok (if (depth : ℤ) + 1 < maxDepth then
        ((takenNames (keys entries) remaining).map fun name =>
            toLex (childPath base (names ++ [name]), depth + 1),
          { s with
            entries := s.entries ++ [⟨joinSlash (pathParts base ++ names), .directory, none⟩],
            scanLimited := s.scanLimited || decide (remaining < (keys entries).length) })
        else ([], { s with
          entries := s.entries ++ [⟨joinSlash (pathParts base ++ names), .directory, none⟩],
          depthLimited := true })) := by
  obtain ⟨target, fds', hwith, hrelative, hstat, hfd⟩ := withTarget_childPath hbase hi hne
    (by simp [hnode]) (visitTarget fs maxDepth remaining (childPath base names) depth s) s.fds
  have hscandir : scandir fs fds' target.fd = keys entries := by
    unfold scandir
    rw [hfd, Option.map_some, hnode]
  have hchildren : (fun name => toLex (childPath base (names ++ [name]), depth + 1)) =
      fun name => toLex (childPath base names ++ "/" ++ name, depth + 1) :=
    funext fun name => by rw [childPath_concat hne]
  unfold walkTurn
  dsimp only [ofLex_toLex]
  rw [hwith, hchildren]
  unfold visitTarget entryFromTarget
  rw [hstat, hnode, hrelative, hscandir, boundedNames_natCast]
  dsimp only
  rw [if_pos rfl]
  by_cases hdepth : (depth : ℤ) + 1 < maxDepth
  · rw [if_pos hdepth, if_pos hdepth]
    rfl
  · rw [if_neg hdepth, if_neg hdepth]
    rfl

end Turns

/-! ### The walk -/

/-- What is met in a walk: a path of the tree below the base, within the depth. -/
def Met (fs : FileSystem ι) (base : String) (dir : ι) (maxDepth : ℤ) (e : Pending) : Prop :=
  ∃ names i, names ≠ [] ∧ nodeAt fs dir names = some i ∧ (names.length : ℤ) ≤ max 1 maxDepth ∧
    e = toLex (childPath base names, names.length - 1)

/-- A path in the heap is continued by a name. -/
def Continues (e e' : Pending) : Prop :=
  ∃ name, '/' ∉ name.toList ∧ (ofLex e').1 = (ofLex e).1 ++ "/" ++ name ∧
    (ofLex e').2 = (ofLex e).2 + 1

lemma grows_continues : Grows Continues := by
  constructor
  · rintro e e' ⟨name, -, hpath, -⟩
    refine Prod.Lex.lt_iff.mpr (.inl ?_)
    rw [hpath, String.append_assoc]
    exact string_lt_append (by simp)
  · rintro a b c ⟨name, hname, hpath, hdepth⟩ ⟨name', hname', hpath', hdepth'⟩
    have hslash : ("/" : String).toList = ['/'] := rfl
    -- read from the end, the paths have the name up to the last slash in common
    have hrev : name.toList.reverse ++ '/' :: (ofLex a).1.toList.reverse =
        name'.toList.reverse ++ '/' :: (ofLex b).1.toList.reverse := by
      have hlist := congrArg (List.reverse ∘ String.toList) (hpath.symm.trans hpath')
      simpa [hslash] using hlist
    have hdrop : ∀ name : String, '/' ∉ name.toList → ∀ rest : List Char,
        (name.toList.reverse ++ '/' :: rest).dropWhile (· != '/') = '/' :: rest := by
      intro name hname rest
      rw [List.dropWhile_append_of_pos]
      · rfl
      · rintro c hc
        refine bne_iff_ne.mpr ?_
        rintro rfl
        exact hname (List.mem_reverse.mp hc)
    have hprefix := congrArg (List.dropWhile (· != '/')) hrev
    rw [hdrop name hname, hdrop name' hname'] at hprefix
    have hsame : (ofLex a).1 = (ofLex b).1 :=
      String.toList_inj.mp (List.reverse_injective (List.cons.inj hprefix).2)
    have hdepths : (ofLex a).2 = (ofLex b).2 := Nat.add_right_cancel (hdepth.symm.trans hdepth')
    exact ofLex.injective (Prod.ext hsame hdepths)

/-- What a listing says of a path in the heap. -/
def listedAt (fs : FileSystem ι) (r : ι) (e : Pending) : Option FileEntry :=
  match normalizeRelativePath (.str (ofLex e).1) true with
  | .error _ => none
  | .ok normalized =>
    (nodeAt fs r (if normalized = "" then [] else splitOn '/' normalized)).bind
      (entryOf fs normalized)

section Walk

variable (hbase : BaseDirectory fs r base dir) {maxDepth : ℤ} {remaining : ℕ} {s s' t : Scan ι}
  {e : Pending} {children visited rest pending : List Pending}
include hbase

/-- A turn meets paths of the tree only, and its children are new. -/
lemma walkTurn_children (he : Met fs base dir maxDepth e)
    (h : walkTurn fs (.ok r) maxDepth remaining e s = .ok (children, s')) :
    children.Nodup ∧ ∀ c ∈ children, Continues e c ∧ Met fs base dir maxDepth c := by
  obtain ⟨names, i, hne, hi, hlength, rfl⟩ := he
  cases hnode : fs.node i with
  | symlink target =>
    rw [walkTurn_link hbase hi hne _ _ _ _ hnode] at h
    obtain ⟨rfl, rfl⟩ := Prod.mk.inj (Except.ok.inj h)
    exact ⟨.nil, fun c hc => absurd hc List.not_mem_nil⟩
  | regular size =>
    rw [walkTurn_regular hbase hi hne _ _ _ _ hnode] at h
    obtain ⟨rfl, rfl⟩ := Prod.mk.inj (Except.ok.inj h)
    exact ⟨.nil, fun c hc => absurd hc List.not_mem_nil⟩
  | special => exact absurd hnode (hbase.below.noSpecial hi)
  | directory entries =>
    rw [walkTurn_directory hbase hi hne _ _ _ _ hnode] at h
    by_cases hdepth : ((names.length - 1 : ℕ) : ℤ) + 1 < maxDepth
    · rw [if_pos hdepth] at h
      obtain ⟨rfl, -⟩ := Prod.mk.inj (Except.ok.inj h)
      have hpositive := List.length_pos_iff.mpr hne
      constructor
      · refine ((takenNames_ok (keys entries) remaining).1 (hbase.below.nodup hi hnode)).map_on ?_
        intro name hname name' hname' heq
        have hpath := congrArg Prod.fst (congrArg ofLex heq)
        simp only [ofLex_toLex, childPath_concat hne] at hpath
        exact String.toList_inj.mp (by simpa using congrArg String.toList hpath)
      · intro c hc
        obtain ⟨name, hname, rfl⟩ := List.mem_map.mp hc
        have hmem := (takenNames_ok (keys entries) remaining).2.1 name hname
        obtain ⟨j, hj⟩ := Option.isSome_iff_exists.mp (mem_keys_iff.mp hmem)
        refine ⟨⟨name, (hbase.below.isEntryName hi hnode hmem).1.2.2.2, ?_, rfl⟩,
          names ++ [name], j, by simp, ?_, ?_, ?_⟩
        · simp only [ofLex_toLex, childPath_concat hne]
        · rw [nodeAt_concat, hi, Option.bind_some]
          exact entryAt_eq_some.mpr ⟨entries, hnode, hj⟩
        · rw [List.length_append, List.length_singleton]
          omega
        · rw [List.length_append, List.length_singleton]
          congr 2
          omega
    · rw [if_neg hdepth] at h
      obtain ⟨rfl, -⟩ := Prod.mk.inj (Except.ok.inj h)
      exact ⟨.nil, fun c hc => absurd hc List.not_mem_nil⟩

/-- The entry of a path of the walk. -/
lemma listedAt_childPath (hi : nodeAt fs dir names = some i) (hne : names ≠ []) (depth : ℕ) :
    listedAt fs r (toLex (childPath base names, depth)) =
      entryOf fs (joinSlash (pathParts base ++ names)) i := by
  unfold listedAt
  dsimp only [ofLex_toLex]
  rw [hbase.normalize_childPath hi hne]
  dsimp only
  rw [components_joinSlash (.inr (hbase.isRelative hi hne)), hbase.nodeAt_append, hi]
  rfl

/-- A turn adds the entry of its path. -/
lemma walkTurn_entries (he : Met fs base dir maxDepth e)
    (h : walkTurn fs (.ok r) maxDepth remaining e s = .ok (children, s')) :
    s'.entries = s.entries ++ (listedAt fs r e).toList := by
  obtain ⟨names, i, hne, hi, -, rfl⟩ := he
  rw [listedAt_childPath hbase hi hne]
  unfold entryOf
  cases hnode : fs.node i with
  | symlink target =>
    rw [walkTurn_link hbase hi hne _ _ _ _ hnode] at h
    obtain ⟨-, rfl⟩ := Prod.mk.inj (Except.ok.inj h)
    exact (List.append_nil _).symm
  | regular size =>
    rw [walkTurn_regular hbase hi hne _ _ _ _ hnode] at h
    obtain ⟨-, rfl⟩ := Prod.mk.inj (Except.ok.inj h)
    rfl
  | special => exact absurd hnode (hbase.below.noSpecial hi)
  | directory entries =>
    rw [walkTurn_directory hbase hi hne _ _ _ _ hnode] at h
    split at h
    · obtain ⟨-, rfl⟩ := Prod.mk.inj (Except.ok.inj h)
      rfl
    · obtain ⟨-, rfl⟩ := Prod.mk.inj (Except.ok.inj h)
      rfl

/-- A turn that cuts nothing takes all the names of its directory, and no turn lowers a flag. -/
lemma walkTurn_complete (he : Met fs base dir maxDepth e)
    (h : walkTurn fs (.ok r) maxDepth remaining e s = .ok (children, s'))
    (hdepth : s'.depthLimited = false) (hscan : s'.scanLimited = false) :
    s.depthLimited = false ∧ s.scanLimited = false ∧
      ∀ names i entries name, names ≠ [] → nodeAt fs dir names = some i →
        fs.node i = .directory entries → name ∈ keys entries →
        e = toLex (childPath base names, names.length - 1) →
        toLex (childPath base (names ++ [name]), names.length) ∈ children := by
  obtain ⟨names, i, hne, hi, -, rfl⟩ := he
  -- the path has one list of names only
  have hsame : ∀ names' i', names' ≠ [] → nodeAt fs dir names' = some i' →
      toLex (childPath base names, names.length - 1) =
        toLex (childPath base names', names'.length - 1) → names = names' ∧ i = i' := by
    intro names' i' hne' hi' heq
    have hpath : childPath base names = childPath base names' := congrArg Prod.fst heq
    obtain rfl := (hbase.isRelative_names hi hne).eq_of_childPath
      (hbase.isRelative_names hi' hne') hpath
    exact ⟨rfl, Option.some.inj (hi.symm.trans hi')⟩
  cases hnode : fs.node i with
  | symlink target =>
    rw [walkTurn_link hbase hi hne _ _ _ _ hnode] at h
    obtain ⟨-, rfl⟩ := Prod.mk.inj (Except.ok.inj h)
    refine ⟨hdepth, hscan, fun names' i' entries name hne' hi' hdirectory _ heq => ?_⟩
    obtain ⟨rfl, rfl⟩ := hsame names' i' hne' hi' heq
    simp [hnode] at hdirectory
  | regular size =>
    rw [walkTurn_regular hbase hi hne _ _ _ _ hnode] at h
    obtain ⟨-, rfl⟩ := Prod.mk.inj (Except.ok.inj h)
    refine ⟨hdepth, hscan, fun names' i' entries name hne' hi' hdirectory _ heq => ?_⟩
    obtain ⟨rfl, rfl⟩ := hsame names' i' hne' hi' heq
    simp [hnode] at hdirectory
  | special => exact absurd hnode (hbase.below.noSpecial hi)
  | directory entries =>
    rw [walkTurn_directory hbase hi hne _ _ _ _ hnode] at h
    split at h
    · obtain ⟨rfl, rfl⟩ := Prod.mk.inj (Except.ok.inj h)
      obtain ⟨hscan, hall⟩ := Bool.or_eq_false_iff.mp hscan
      refine ⟨hdepth, hscan, fun names' i' entries' name hne' hi' hdirectory hname heq => ?_⟩
      obtain ⟨rfl, rfl⟩ := hsame names' i' hne' hi' heq
      obtain rfl : entries = entries' := by
        rw [hnode] at hdirectory
        exact Node.directory.inj hdirectory
      have hpositive := List.length_pos_iff.mpr hne
      refine List.mem_map.mpr
        ⟨name, (takenNames_ok (keys entries) remaining).2.2 hall name hname, ?_⟩
      congr 2
      omega
    · obtain ⟨-, rfl⟩ := Prod.mk.inj (Except.ok.inj h)
      cases hdepth

/-- No turn fails. -/
lemma exists_walkTurn (he : Met fs base dir maxDepth e) (remaining : ℕ) (s : Scan ι) :
    ∃ children s', walkTurn fs (.ok r) maxDepth remaining e s = .ok (children, s') := by
  obtain ⟨names, i, hne, hi, -, rfl⟩ := he
  cases hnode : fs.node i with
  | symlink target => exact ⟨_, _, walkTurn_link hbase hi hne _ _ _ _ hnode⟩
  | regular size => exact ⟨_, _, walkTurn_regular hbase hi hne _ _ _ _ hnode⟩
  | special => exact absurd hnode (hbase.below.noSpecial hi)
  | directory entries => exact ⟨_, _, walkTurn_directory hbase hi hne _ _ _ _ hnode⟩

/-- What is known while the walk goes on: the entries are those of the visited paths, and where
no flag is up, every name of a visited directory is visited or waits in the heap. -/
structure Walked (fs : FileSystem ι) (r : ι) (base : String) (dir : ι)
    (before pending : List Pending) (s : Scan ι) : Prop where
  entries : s.entries = before.filterMap (listedAt fs r)
  complete : s.depthLimited = false → s.scanLimited = false →
    ∀ names i entries name, names = [] ∨ toLex (childPath base names, names.length - 1) ∈ before →
      nodeAt fs dir names = some i → fs.node i = .directory entries → name ∈ keys entries →
      toLex (childPath base (names ++ [name]), names.length) ∈ before ∨
        toLex (childPath base (names ++ [name]), names.length) ∈ pending

/-- A turn keeps what is known. -/
lemma Walked.turn {before : List Pending} (hwalked : Walked fs r base dir before (e :: pending) s)
    (he : Met fs base dir maxDepth e)
    (h : walkTurn fs (.ok r) maxDepth remaining e s = .ok (children, s')) :
    Walked fs r base dir (before ++ [e]) (enqueue pending children) s' := by
  constructor
  · rw [walkTurn_entries hbase he h, hwalked.entries, List.filterMap_append]
    cases hlisted : listedAt fs r e <;> simp [hlisted]
  · intro hdepth hscan names i entries name hvisited hi hdirectory hname
    obtain ⟨hdepth', hscan', hchildren⟩ := walkTurn_complete hbase he h hdepth hscan
    have hknown := hwalked.complete hdepth' hscan' names i entries name
    simp only [mem_enqueue, List.mem_append, List.mem_cons, List.not_mem_nil, or_false]
      at hknown ⊢
    by_cases hself : names ≠ [] ∧ e = toLex (childPath base names, names.length - 1)
    · exact .inr (.inl (hchildren names i entries name hself.1 hi hdirectory hname hself.2))
    · have hbefore : names = [] ∨ toLex (childPath base names, names.length - 1) ∈ before := by
        rcases hvisited with hnil | hvisited
        · exact .inl hnil
        · rcases List.mem_append.mp hvisited with hmem | hmem
          · exact .inr hmem
          · by_cases hnil : names = []
            · exact .inl hnil
            · exact absurd ⟨hnil, (List.mem_singleton.mp hmem).symm⟩ hself
      rcases hknown hbefore hi hdirectory hname with hmem | hmem | hmem
      · exact .inl (.inl hmem)
      · exact .inl (.inr hmem)
      · exact .inr (.inr hmem)

/-! ### Where a walk starts -/

lemma BaseDirectory.normalize : normalizeRelativePath (.str base) true =
    .ok (joinSlash (pathParts base)) := by
  have hdots : ((pathParts base).any fun part => part ∈ ["", ".", ".."]) = false := by
    refine List.any_eq_false.mpr fun part hpart => ?_
    obtain ⟨hne, hdot, hdotDot, -⟩ := hbase.isBase.names part hpart
    simp [hne, hdot, hdotDot]
  unfold normalizeRelativePath
  dsimp only
  rw [if_neg hbase.isBase.noNul, if_neg (by simp [hbase.isBase.relative]),
    if_neg (by rw [hdots]; exact Bool.false_ne_true)]
  split
  next hnil => rw [hnil]; rfl
  next => rfl

lemma BaseDirectory.parts : pathParts base = [] ∨ IsRelative (pathParts base) := by
  by_cases hnil : pathParts base = []
  · exact .inl hnil
  · have hnames := hbase.tree.names_of_nodeAt hbase.at_base
    exact .inr ⟨hnil, fun part hpart => (hnames part hpart).1,
      fun part hpart => (hnames part hpart).2⟩

/-- The names of the directory a walk starts from. -/
lemma withTarget_base {entries : List (String × ι)} (hdirectory : fs.node dir = .directory entries)
    (scanLimit : ℤ) (fds : Descriptors ι) :
    withTarget fs (.ok r) (.str base) true fds (baseNames fs scanLimit) =
      (boundedNames (keys entries) scanLimit, fds) := by
  obtain ⟨target, rootFd, fds', hyielded, -, hstat, hfd, hclose⟩ :=
    (openTarget_of_nodeAt hbase.tree hbase.root hbase.parts hbase.normalize hbase.at_base fds).1
      (by simp [hdirectory])
  have hscandir : scandir fs fds' target.fd = keys entries := by
    unfold scandir
    rw [hfd, Option.map_some, hdirectory]
  unfold withTarget
  rw [hyielded]
  dsimp only
  rw [hclose]
  unfold baseNames
  rw [hstat, hdirectory, hscandir]

omit hbase in
lemma mem_startPending {names : List String} : e ∈ startPending base names ↔
    ∃ name ∈ names, e = toLex (childPath base [name], 0) := by
  have hone : ∀ name, childPath base [name] = if base = "" then name else base ++ "/" ++ name := by
    intro name
    have hjoin : joinSlash [name] = name := by
      unfold joinSlash
      simp
    unfold childPath
    rw [hjoin]
  unfold startPending
  rw [mem_enqueue, List.mem_map]
  simp only [hone, List.not_mem_nil, or_false, eq_comm (a := e)]

omit hbase in
/-- The heap a walk starts with is in order. -/
lemma ascending_startPending {names : List String} (hnodup : names.Nodup) :
    Ascending Continues (startPending base names) := by
  have hlevel : ∀ e ∈ startPending base names, (ofLex e).2 = 0 := by
    intro e he
    obtain ⟨name, -, rfl⟩ := mem_startPending.mp he
    rfl
  have hsorted : (startPending base names).Pairwise (· ≤ ·) := pairwise_enqueue .nil
  have hdistinct : (startPending base names).Nodup := by
    unfold startPending
    rw [(enqueue_perm _ _).nodup_iff, List.append_nil]
    refine hnodup.map_on ?_
    intro name _ name' _ heq
    have hpath := congrArg Prod.fst (congrArg ofLex heq)
    simp only [ofLex_toLex] at hpath
    split at hpath
    · exact hpath
    · exact String.toList_inj.mp (by simpa using congrArg String.toList hpath)
  refine ⟨(hsorted.and hdistinct).imp fun hboth => lt_of_le_of_ne hboth.1 hboth.2, ?_⟩
  rintro a b c hc ⟨name, -, -, hdepth⟩ -
  rw [hlevel c hc] at hdepth
  omega

omit hbase in
/-- The paths a walk starts with are met in it. -/
lemma met_startPending {entries : List (String × ι)} (hdirectory : fs.node dir = .directory entries)
    {names : List String} (hnames : ∀ name ∈ names, name ∈ keys entries) (maxDepth : ℤ) :
    ∀ e ∈ startPending base names, Met fs base dir maxDepth e := by
  intro e he
  obtain ⟨name, hname, rfl⟩ := mem_startPending.mp he
  obtain ⟨i, hi⟩ := Option.isSome_iff_exists.mp (mem_keys_iff.mp (hnames name hname))
  refine ⟨[name], i, List.cons_ne_nil _ _, ?_, by simp, rfl⟩
  have hone : nodeAt fs dir [name] = (entryAt fs dir name).bind some := rfl
  rw [hone, entryAt_eq_some.mpr ⟨entries, hdirectory, hi⟩, Option.bind_some]

/-- Two paths that are met are in the order of their entries. -/
lemma listedAt_lt {e e' : Pending} {entry entry' : FileEntry} (hlt : e < e')
    (he : Met fs base dir maxDepth e) (he' : Met fs base dir maxDepth e')
    (hentry : listedAt fs r e = some entry) (hentry' : listedAt fs r e' = some entry') :
    entry.relativePath < entry'.relativePath := by
  obtain ⟨names, i, hne, hi, -, rfl⟩ := he
  obtain ⟨names', i', hne', hi', -, rfl⟩ := he'
  rw [listedAt_childPath hbase hi hne] at hentry
  rw [listedAt_childPath hbase hi' hne'] at hentry'
  rw [relativePath_of_entryOf hentry, relativePath_of_entryOf hentry',
    joinSlash_append_lt _ hne hne', ← @childPath_lt base]
  rcases Prod.Lex.lt_iff.mp hlt with hpath | ⟨hpath, hdepth⟩
  · exact hpath
  · obtain rfl := (hbase.isRelative_names hi hne).eq_of_childPath
      (hbase.isRelative_names hi' hne') hpath
    exact absurd hdepth (lt_irrefl _)

end Walk

/-! ### Exact listings -/

/-- Entries that are strictly increasing by path, each of a file or directory in scope. -/
structure IsListing (fs : FileSystem ι) (r : ι) (InScope : List String → Prop)
    (entries : List FileEntry) : Prop where
  increasing : entries.Pairwise fun a b => a.relativePath < b.relativePath
  sound : ∀ entry ∈ entries, ∃ names i, InScope names ∧ nodeAt fs r names = some i ∧
    entryOf fs (joinSlash names) i = some entry

/-- No file and no directory in scope is left out. -/
def ListsAll (fs : FileSystem ι) (r : ι) (InScope : List String → Prop)
    (entries : List FileEntry) : Prop :=
  ∀ names i entry, InScope names → nodeAt fs r names = some i →
    entryOf fs (joinSlash names) i = some entry → entry ∈ entries

/-- The paths below a directory. -/
def Below (parts names : List String) : Prop := ∃ rest, rest ≠ [] ∧ names = parts ++ rest

/-- The paths below a directory within a depth. -/
def BelowWithin (parts : List String) (depth : ℤ) (names : List String) : Prop :=
  ∃ rest, rest ≠ [] ∧ (rest.length : ℤ) ≤ depth ∧ names = parts ++ rest

section Exact

variable (hbase : BaseDirectory fs r base dir) {maxDepth scanLimit : ℤ}
  {entries : List FileEntry} {depthLimited scanLimited : Bool}
include hbase

/-- A walk below a directory is exact. -/
lemma walkEntries_of_base
    (h : walkEntries fs (.ok r) base maxDepth scanLimit fds =
      .ok (entries, depthLimited, scanLimited)) :
    IsListing fs r (BelowWithin (pathParts base) (max 1 maxDepth)) entries ∧
      (depthLimited = false → scanLimited = false →
        ListsAll fs r (Below (pathParts base)) entries) := by
  obtain ⟨baseEntries, hdirectory⟩ := hbase.directory
  unfold walkEntries at h
  rw [withTarget_base hbase hdirectory] at h
  cases htaken : boundedNames (keys baseEntries) scanLimit with
  | error e =>
    rw [htaken] at h
    cases h
  | ok taken =>
    obtain ⟨names, limited⟩ := taken
    rw [htaken] at h
    obtain ⟨⟨pending, t⟩, hwalk, hreturn⟩ := ok_of_bind h
    obtain ⟨rfl, hflags⟩ := Prod.mk.inj (Except.ok.inj hreturn)
    obtain ⟨rfl, rfl⟩ := Prod.mk.inj hflags
    obtain ⟨hnodup, hsub, hall⟩ := boundedNames_ok htaken
    obtain ⟨visited, m, hvisits, hend⟩ := visits_of_walk hwalk
    have hmet : ∀ e ∈ startPending base names, Met fs base dir maxDepth e :=
      met_startPending hdirectory hsub maxDepth
    have hturn : ∀ n e s children s', Met fs base dir maxDepth e →
        walkTurn fs (.ok r) maxDepth n e s = .ok (children, s') →
        children.Nodup ∧ ∀ c ∈ children, Continues e c ∧ Met fs base dir maxDepth c :=
      fun n e s children s' he hok => walkTurn_children hbase he hok
    have hvisited := hvisits.forall_mem (Met fs base dir maxDepth) hmet
      fun n e s children s' he hok c hc => ((hturn n e s children s' he hok).2 c hc).2
    have hstart : Walked fs r base dir [] (startPending base names)
        { scanLimited := limited, fds } := by
      refine ⟨rfl, fun _ hlimited names' i entries name hstarted hi hnode hname => ?_⟩
      rcases hstarted with rfl | hstarted
      · obtain rfl : dir = i := Option.some.inj hi
        obtain rfl : baseEntries = entries := by
          rw [hdirectory] at hnode
          exact Node.directory.inj hnode
        exact .inr (mem_startPending.mpr ⟨name, hall hlimited name hname, rfl⟩)
      · exact absurd hstarted List.not_mem_nil
    have hwalked : Walked fs r base dir visited pending t := by
      have hrun := hvisits.invariant (Walked fs r base dir) (Met fs base dir maxDepth) hmet
        (fun n e s children s' he hok =>
          ⟨fun c hc => ((hturn n e s children s' he hok).2 c hc).2,
            fun before pending hwalked => hwalked.turn hbase he hok⟩) hstart
      rwa [List.nil_append] at hrun
    obtain ⟨hincreasing, -⟩ := hvisits.increasing grows_continues
      (ascending_startPending (hnodup (hbase.below.nodup nodeAt_nil hdirectory)))
      (Met fs base dir maxDepth) hmet hturn
    refine ⟨⟨?_, ?_⟩, ?_⟩
    · rw [hwalked.entries, List.pairwise_filterMap]
      refine hincreasing.imp_of_mem fun he he' hlt entry hentry entry' hentry' => ?_
      exact listedAt_lt hbase hlt (hvisited _ (.inl he)) (hvisited _ (.inl he')) hentry hentry'
    · intro entry hentry
      rw [hwalked.entries] at hentry
      obtain ⟨e, he, hlisted⟩ := List.mem_filterMap.mp hentry
      obtain ⟨names, i, hne, hi, hlength, rfl⟩ := hvisited e (.inl he)
      rw [listedAt_childPath hbase hi hne] at hlisted
      exact ⟨pathParts base ++ names, i, ⟨names, hne, hlength, rfl⟩,
        (hbase.nodeAt_append names).trans hi, hlisted⟩
    · rintro hdepth hscan _ i entry ⟨rest, hne, rfl⟩ hi hentry
      obtain ⟨hscanned, hpending⟩ := Bool.or_eq_false_iff.mp hscan
      obtain rfl : pending = [] := by simpa using hpending
      rw [hbase.nodeAt_append] at hi
      -- every path is visited, by induction on its names
      have hreach : ∀ (rest : List String) (i : ι), rest ≠ [] → nodeAt fs dir rest = some i →
          toLex (childPath base rest, rest.length - 1) ∈ visited := by
        intro rest
        induction rest using List.reverseRecOn with
        | nil => exact fun i hne => absurd rfl hne
        | append_singleton rest name ih =>
          intro i _ hi
          rw [nodeAt_concat] at hi
          obtain ⟨j, hj, hname⟩ := Option.bind_eq_some_iff.mp hi
          obtain ⟨entries, hnode, hget⟩ := entryAt_eq_some.mp hname
          have hparent : rest = [] ∨ toLex (childPath base rest, rest.length - 1) ∈ visited := by
            by_cases hnil : rest = []
            · exact .inl hnil
            · exact .inr (ih j hnil hj)
          have hmem := hwalked.complete hdepth hscanned rest j entries name hparent hj hnode
            (mem_keys_iff.mpr (Option.isSome_iff_exists.mpr ⟨i, hget⟩))
          rw [List.length_append, List.length_singleton, Nat.add_sub_cancel]
          exact hmem.resolve_right List.not_mem_nil
      rw [hwalked.entries]
      refine List.mem_filterMap.mpr ⟨_, hreach rest i hne hi, ?_⟩
      rw [listedAt_childPath hbase hi hne]
      exact hentry

/-- A walk below a directory returns. -/
lemma exists_walkEntries (hlimit : -1 ≤ scanLimit) (maxDepth : ℤ) (fds : Descriptors ι) :
    ∃ result, walkEntries fs (.ok r) base maxDepth scanLimit fds = .ok result := by
  obtain ⟨baseEntries, hdirectory⟩ := hbase.directory
  unfold walkEntries
  rw [withTarget_base hbase hdirectory]
  cases htaken : boundedNames (keys baseEntries) scanLimit with
  | error e =>
    unfold boundedNames at htaken
    rw [if_neg (by omega)] at htaken
    cases htaken
  | ok taken =>
    obtain ⟨names, limited⟩ := taken
    obtain ⟨-, hsub, -⟩ := boundedNames_ok htaken
    have hturn : ∀ n e s, Met fs base dir maxDepth e → ∃ children s',
        walkTurn fs (.ok r) maxDepth n e s = .ok (children, s') ∧
          ∀ c ∈ children, Met fs base dir maxDepth c := by
      intro n e s he
      obtain ⟨children, s', hok⟩ := exists_walkTurn hbase he n s
      exact ⟨children, s', hok, fun c hc => ((walkTurn_children hbase he hok).2 c hc).2⟩
    obtain ⟨pending, t, hwalk⟩ : ∃ pending t, walk (walkTurn fs (.ok r) maxDepth) scanLimit.toNat
        (startPending base names) { scanLimited := limited, fds } = .ok (pending, t) :=
      exists_walk (Met fs base dir maxDepth) hturn (met_startPending hdirectory hsub maxDepth)
    dsimp only
    rw [hwalk]
    exact ⟨_, rfl⟩

end Exact

/-- A path has one list of names. -/
lemma joinSlash_inj (h : names = [] ∨ IsRelative names) (h' : names' = [] ∨ IsRelative names')
    (heq : joinSlash names = joinSlash names') : names = names' := by
  rw [← components_joinSlash h, ← components_joinSlash h', heq]

/-- What `open_target` yields in a tree. -/
lemma nodeAt_of_openTarget {path : PyVal} {allowRoot : Bool} {target : OpenTarget ι} {rootFd : ℕ}
    {fds' : Descriptors ι} (htree : IsTree fs r)
    (h : openTarget fs (.ok r) path allowRoot fds = .yielded target rootFd fds') :
    ∃ names i, (names = [] ∨ IsRelative names) ∧ nodeAt fs r names = some i ∧
      (∀ link, names ≠ [] → fs.node i ≠ .symlink link) ∧
      normalizeRelativePath path allowRoot = .ok (joinSlash names) ∧
      target.relativePath = joinSlash names ∧ target.statResult = some (fs.node i) := by
  have hopen := openTarget_holding path allowRoot fs (.ok r) fds
  rw [h] at hopen
  obtain ⟨_, names, i, hr, hdescends, hnormal, hrelative, -, hstat, -⟩ := hopen
  obtain rfl := Except.ok.inj hr
  have hi := hdescends.nodeAt_eq
  have hnames := htree.names_of_nodeAt hi
  refine ⟨names, i, ?_, hi, ?_, hrelative ▸ hnormal, hrelative, hstat⟩
  · by_cases hnil : names = []
    · exact .inl hnil
    · exact .inr ⟨hnil, fun part hpart => (hnames part hpart).1,
        fun part hpart => (hnames part hpart).2⟩
  · intro link hne
    cases hdescends with
    | refl => exact absurd rfl hne
    | entry _ hplain => exact hplain.noLink link

/-- A walk that returns has started from a directory. -/
lemma exists_baseDirectory {maxDepth scanLimit : ℤ} {result : List FileEntry × Bool × Bool}
    (htree : IsTree fs r)
    (h : walkEntries fs (.ok r) base maxDepth scanLimit fds = .ok result) :
    ∃ dir, BaseDirectory fs r base dir := by
  unfold walkEntries withTarget at h
  cases hopen : openTarget fs (.ok r) (.str base) true fds with
  | raised failure fds' =>
    rw [hopen] at h
    cases h
  | yielded target rootFd fds' =>
    rw [hopen] at h
    obtain ⟨names, i, hnames, hi, -, hnormal, -, hstat⟩ := nodeAt_of_openTarget htree hopen
    obtain ⟨hisBase, hjoin⟩ := isBase_of_normalize hnormal
    have hdirectory : ∃ entries, fs.node i = .directory entries := by
      dsimp only at h
      unfold baseNames at h
      rw [hstat] at h
      cases hnode : fs.node i with
      | directory entries => exact ⟨entries, rfl⟩
      | _ =>
        rw [hnode] at h
        cases h
    have hparts : pathParts base = names := by
      rcases hnames with rfl | hrelative
      · by_contra hne
        obtain ⟨part, rest, hcons⟩ := List.exists_cons_of_ne_nil hne
        have hpart := hisBase.names part (hcons ▸ List.mem_cons_self)
        have hempty := congrArg String.toList hjoin
        rw [hcons] at hempty
        cases rest with
        | nil =>
          have : part = "" := by simpa [joinSlash] using hempty.symm
          exact hpart.1 this
        | cons next rest =>
          rw [toList_joinSlash, toList_joinSlash, List.map_cons, List.map_cons,
            List.intercalate_cons_cons] at hempty
          simp at hempty
      · have hsplit := hrelative.splitOn_joinSlash
        rw [hjoin] at hsplit
        by_cases hne : pathParts base = []
        · rw [hne] at hjoin
          exact absurd hjoin hrelative.joinSlash_ne_empty
        · rw [← hsplit]
          exact (splitOn_intercalate hne fun part hpart => (hisBase.names part hpart).2.2.2).symm
    have hroot : ∃ entries, fs.node r = .directory entries := by
      cases names with
      | nil =>
        obtain rfl : r = i := Option.some.inj hi
        exact hdirectory
      | cons name rest => exact directory_of_nodeAt hi
    exact ⟨i, htree, hroot, hisBase, hparts.symm ▸ hi, hdirectory⟩

/-- Where a path of a tree leads to no link, `entry_from_target` says what stands there. -/
lemma entryFromTarget_ok {target : OpenTarget ι} {path : String} {entry : FileEntry}
    (hrelative : target.relativePath = path) (hstat : target.statResult = some (fs.node i)) :
    entryFromTarget target = .ok entry ↔ entryOf fs path i = some entry := by
  unfold entryFromTarget entryOf
  rw [hstat, hrelative]
  cases fs.node i <;> simp

/-- A listing of a given path is exact. -/
lemma listTarget_exact {path : PyVal} {listing : Listing} (htree : IsTree fs r)
    (h : listTarget fs (.ok r) path fds = .ok listing) :
    listing.complete = true ∧
      IsListing fs r (fun names => normalizeRelativePath path false = .ok (joinSlash names))
        listing.entries ∧
      ListsAll fs r (fun names => normalizeRelativePath path false = .ok (joinSlash names))
        listing.entries := by
  unfold listTarget at h
  cases hnormal : normalizeRelativePath path false with
  | error failure =>
    rw [hnormal] at h
    cases h
  | ok normalized =>
    rw [hnormal] at h
    dsimp only at h
    have hagain := normalizeRelativePath_idem hnormal
    unfold withTarget at h
    cases hopen : openTarget fs (.ok r) (.str normalized) false fds with
    | yielded target rootFd fds' =>
      obtain ⟨names, i, hnames, hi, hlink, hsame, hrelative, hstat⟩ :=
        nodeAt_of_openTarget htree hopen
      obtain rfl : normalized = joinSlash names := Except.ok.inj (hagain.symm.trans hsame)
      rw [hopen] at h
      dsimp only at h
      cases hentry : entryFromTarget target with
      | error failure =>
        have hcode : failure.code = "NOT_A_FILE" := by
          unfold entryFromTarget at hentry
          split at hentry
          · cases hentry
          · cases hentry
          · obtain rfl := Except.error.inj hentry
            rfl
        simp [hentry, Except.mapError, hcode] at h
      | ok entry =>
        rw [hentry] at h
        obtain rfl := Except.ok.inj h
        have hlisted := (entryFromTarget_ok hrelative hstat).mp hentry
        refine ⟨rfl, ⟨List.pairwise_singleton _ _, ?_⟩, ?_⟩
        · intro entry' hmem
          obtain rfl := List.mem_singleton.mp hmem
          exact ⟨names, i, rfl, hi, hlisted⟩
        · intro names' i' entry' hscope hi' hentry'
          have hnames' : names' = [] ∨ IsRelative names' := by
            have hall := htree.names_of_nodeAt hi'
            by_cases hnil : names' = []
            · exact .inl hnil
            · exact .inr ⟨hnil, fun part hpart => (hall part hpart).1,
                fun part hpart => (hall part hpart).2⟩
          obtain rfl := joinSlash_inj hnames hnames' (Except.ok.inj hscope)
          obtain rfl := Option.some.inj (hi.symm.trans hi')
          exact List.mem_singleton.mpr (Option.some.inj (hentry'.symm.trans hlisted))
    | raised failure fds' =>
      rw [hopen] at h
      dsimp only at h
      split at h
      next hcode =>
        obtain rfl := Except.ok.inj h
        refine ⟨rfl, ⟨.nil, fun entry hmem => absurd hmem List.not_mem_nil⟩, ?_⟩
        -- a node at the path would have been opened, or refused as a link
        intro names i entry hscope hi hentry
        obtain rfl : normalized = joinSlash names := Except.ok.inj hscope
        have hnames : names = [] ∨ IsRelative names := by
          have hall := htree.names_of_nodeAt hi
          by_cases hnil : names = []
          · exact .inl hnil
          · exact .inr ⟨hnil, fun part hpart => (hall part hpart).1,
              fun part hpart => (hall part hpart).2⟩
        have hr : ∃ entries, fs.node r = .directory entries := by
          cases names with
          | nil =>
            rcases normalizeRelativePath_ok hnormal with ⟨hallowed, -⟩ | ⟨parts, hparts, heq⟩
            · cases hallowed
            · exact absurd heq.symm hparts.joinSlash_ne_empty
          | cons name rest => exact directory_of_nodeAt hi
        have hplain : ∀ link, fs.node i ≠ .symlink link := by
          intro link hnode
          unfold entryOf at hentry
          rw [hnode] at hentry
          cases hentry
        obtain ⟨target, rootFd, fds'', hyielded, -⟩ :=
          (openTarget_of_nodeAt htree hr hnames hagain hi fds).1 hplain
        rw [hopen] at hyielded
        cases hyielded
      next => cases h

lemma one_le_boundedValue {value : PyVal} {default hardCap n : ℤ} {field : String}
    (hdefault : 1 ≤ default) (h : boundedValue value default hardCap field = .ok n) : 1 ≤ n := by
  unfold boundedValue at h
  split at h
  · exact Except.ok.inj h ▸ hdefault
  · split at h
    · cases h
    · split at h
      · cases h
      · obtain rfl := Except.ok.inj h
        omega
  · cases h

/-- The first entries of a listing. -/
lemma IsListing.take {InScope : List String → Prop} {entries : List FileEntry}
    (h : IsListing fs r InScope entries) (n : ℕ) : IsListing fs r InScope (entries.take n) :=
  ⟨h.increasing.sublist (List.take_sublist ..),
    fun entry hmem => h.sound entry (List.mem_of_mem_take hmem)⟩

/-- A listing of the root is exact. -/
lemma listEntries_root {maxEntries maxDepth : PyVal} {depthCap : ℤ} {listing : Listing}
    (htree : IsTree fs r)
    (hdepth : boundedValue maxDepth listDefaultDepth listMaxDepth "max_depth" = .ok depthCap)
    (h : listEntries fs (.ok r) .none maxEntries maxDepth fds = .ok listing) :
    IsListing fs r (BelowWithin [] depthCap) listing.entries ∧
      (listing.complete = true → ListsAll fs r (Below []) listing.entries) := by
  unfold listEntries at h
  cases hentries : boundedValue maxEntries listDefaultEntries listMaxEntries "max_entries" with
  | error failure =>
    rw [hentries] at h
    cases h
  | ok entryCap =>
    rw [hentries, hdepth] at h
    obtain ⟨⟨entries, depthLimited, scanLimited⟩, hwalk, hreturn⟩ := ok_of_bind h
    obtain rfl := Except.ok.inj hreturn
    obtain ⟨dir, hbase⟩ := exists_baseDirectory htree hwalk
    obtain ⟨hlisting, hall⟩ := walkEntries_of_base hbase hwalk
    have hdepthCap := one_le_boundedValue (by decide) hdepth
    have hroot : pathParts "" = [] := rfl
    rw [hroot, max_eq_right hdepthCap] at hlisting
    rw [hroot] at hall
    refine ⟨hlisting.take _, fun hcomplete => ?_⟩
    dsimp only at hcomplete ⊢
    simp only [Bool.and_eq_true, Bool.not_eq_true', decide_eq_false_iff_not, not_lt] at hcomplete
    obtain ⟨⟨hlength, hdepthLimited⟩, hscanLimited⟩ := hcomplete
    rw [List.take_of_length_le (by omega)]
    exact hall hdepthLimited hscanLimited

/-- A listing of a given path is what is listed there. -/
lemma listEntries_target {path maxEntries maxDepth : PyVal} {root : Except Errno ι}
    {listing : Listing} (hpath : path ≠ .none)
    (h : listEntries fs root path maxEntries maxDepth fds = .ok listing) :
    listTarget fs root path fds = .ok listing := by
  unfold listEntries at h
  split at h
  · cases h
  · split at h
    · cases h
    · split at h
      · exact absurd rfl hpath
      · exact h

/-- Listings are exact.  What `walk_entries` returns for a base is strictly increasing, lies
within the depth, and where no flag is up it is everything below the base; a listing of
`list_entries` is strictly increasing, lies within the depth or is the given path, and is
everything there where it says that it is complete.  Below a directory a walk returns. -/
theorem listing_exact (fs : FileSystem ι) (r : ι) (htree : IsTree fs r) :
    (∀ base maxDepth scanLimit fds entries depthLimited scanLimited,
      walkEntries fs (.ok r) base maxDepth scanLimit fds =
          .ok (entries, depthLimited, scanLimited) →
        IsListing fs r (BelowWithin (pathParts base) (max 1 maxDepth)) entries ∧
          (depthLimited = false → scanLimited = false →
            ListsAll fs r (Below (pathParts base)) entries)) ∧
    (∀ base dir maxDepth scanLimit fds, BaseDirectory fs r base dir → -1 ≤ scanLimit →
      ∃ result, walkEntries fs (.ok r) base maxDepth scanLimit fds = .ok result) ∧
    (∀ maxEntries maxDepth depthCap fds listing,
      boundedValue maxDepth listDefaultDepth listMaxDepth "max_depth" = .ok depthCap →
      listEntries fs (.ok r) .none maxEntries maxDepth fds = .ok listing →
        IsListing fs r (BelowWithin [] depthCap) listing.entries ∧
          (listing.complete = true → ListsAll fs r (Below []) listing.entries)) ∧
    ∀ path maxEntries maxDepth fds listing, path ≠ .none →
      listEntries fs (.ok r) path maxEntries maxDepth fds = .ok listing →
        listing.complete = true ∧
          IsListing fs r (fun names => normalizeRelativePath path false = .ok (joinSlash names))
            listing.entries ∧
          ListsAll fs r (fun names => normalizeRelativePath path false = .ok (joinSlash names))
            listing.entries := by
  refine ⟨?_, ?_, ?_, ?_⟩
  · intro base maxDepth scanLimit fds entries depthLimited scanLimited h
    obtain ⟨dir, hbase⟩ := exists_baseDirectory htree h
    exact walkEntries_of_base hbase h
  · intro base dir maxDepth scanLimit fds hbase hlimit
    exact exists_walkEntries hbase hlimit maxDepth fds
  · intro maxEntries maxDepth depthCap fds listing hdepth h
    exact listEntries_root htree hdepth h
  · intro path maxEntries maxDepth fds listing hpath h
    exact listTarget_exact htree (listEntries_target hpath h)

/-- A directory with a file, a directory that holds another file, and a link. -/
def smallTree : FileSystem ℕ where
  node
    | 0 => .directory [("notes", 1), ("docs", 2), ("link", 3)]
    | 1 => .regular 5
    | 2 => .directory [("status", 4)]
    | 3 => .symlink "notes"
    | _ => .regular 7
  parent _ := 0
  resolve _ _ := .error .noEntry
  refuse _ _ := none
  newDescriptor used := used.sum + 1
  newDescriptor_notMem used h := by
    have hle := List.single_le_sum (fun n _ => Nat.zero_le n) _ h
    omega

lemma isTree_smallTree : IsTree smallTree 0 := by
  have hdirectory : ∀ dir entries, smallTree.node dir = .directory entries →
      entries = [("notes", 1), ("docs", 2), ("link", 3)] ∨ entries = [("status", 4)] := by
    intro dir entries h
    unfold smallTree at h
    dsimp only at h
    split at h
    · exact .inl (Node.directory.inj h).symm
    · cases h
    · exact .inr (Node.directory.inj h).symm
    · cases h
    · cases h
  refine ⟨fun _ h => ?_, fun _ h hname => ?_, fun {_ i} _ h => ?_, fun _ _ => rfl⟩
  · rcases hdirectory _ _ h with rfl | rfl <;> decide +kernel
  · rcases hdirectory _ _ h with rfl | rfl
    · simp only [keys, List.map_cons, List.map_nil, List.mem_cons, List.not_mem_nil,
        or_false] at hname
      rcases hname with rfl | rfl | rfl <;>
        exact ⟨⟨by decide, by decide, by decide, by decide⟩, by decide⟩
    · obtain rfl := List.mem_singleton.mp hname
      exact ⟨⟨by decide, by decide, by decide, by decide⟩, by decide⟩
  · unfold smallTree at h
    dsimp only at h
    split at h <;> cases h

/-- `list_entries` lists two levels, and says that the listing is complete. -/
theorem listing_exact_small : ∃ listing,
    listEntries smallTree (.ok 0) .none .none (.int 2) [] = .ok listing ∧
      listing.entries = [⟨"docs", .directory, none⟩, ⟨"docs/status", .file, some 7⟩,
        ⟨"notes", .file, some 5⟩] ∧
      listing.entries.Pairwise (fun a b => a.relativePath < b.relativePath) ∧
      ListsAll smallTree 0 (Below []) listing.entries := by
  have hlists : listEntries smallTree (.ok 0) .none .none (.int 2) [] =
      .ok ⟨none, none, [⟨"docs", .directory, none⟩, ⟨"docs/status", .file, some 7⟩,
        ⟨"notes", .file, some 5⟩], true, false⟩ := by decide +kernel
  obtain ⟨hlisting, hall⟩ :=
    (listing_exact smallTree 0 isTree_smallTree).2.2.1 .none (.int 2) 2 [] _ rfl hlists
  exact ⟨_, hlists, rfl, hlisting.increasing, hall rfl⟩

end Trion.Filesystem
