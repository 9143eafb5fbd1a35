import Trion.Filesystem.ListingLaws

/-!
# Listings and the order of a directory

The system gives the names of a directory in any order.  The listing cuts the names before it
sorts them, so what it says of a directory with many names depends on that order; where no
directory it reads holds more than one name above the limit it is read with, it does not.
-/

namespace Trion.Filesystem

open Trion.Python OrderedDict FileTree OrderedWalk

variable {ι : Type}

/-- Nodes that differ in the order of their entries only. -/
inductive SameNode : Node ι → Node ι → Prop
  | directory {entries entries' : List (String × ι)} : (keys entries).Nodup →
      entries.Perm entries' → SameNode (.directory entries) (.directory entries')
  | regular (size : ℕ) : SameNode (.regular size) (.regular size)
  | symlink (target : String) : SameNode (.symlink target) (.symlink target)
  | special : SameNode .special .special

/-- One file system, whose directories are given in two orders. -/
structure SameUpToOrder (fs fs' : FileSystem ι) : Prop where
  node : ∀ i, SameNode (fs.node i) (fs'.node i)
  parent : fs.parent = fs'.parent
  resolve : fs.resolve = fs'.resolve
  refuse : fs.refuse = fs'.refuse
  newDescriptor : fs.newDescriptor = fs'.newDescriptor

/-! ### Opening -/

lemma get?_perm {α β : Type} [DecidableEq α] {d d' : List (α × β)} (hnodup : (keys d).Nodup)
    (h : d.Perm d') (key : α) : get? d key = get? d' key := by
  have hnodup' : (keys d').Nodup := (h.map Prod.fst).nodup_iff.mp hnodup
  cases hget : get? d key with
  | some value => exact (get?_of_mem hnodup' (h.mem_iff.mp (mem_of_get? hget))).symm
  | none =>
    cases hget' : get? d' key with
    | none => rfl
    | some value =>
      have hfound := get?_of_mem hnodup (h.mem_iff.mpr (mem_of_get? hget'))
      rw [hget] at hfound
      cases hfound

variable {fs fs' : FileSystem ι} {root : Except Errno ι} {fds : Descriptors ι}

section Same

variable (h : SameUpToOrder fs fs')
include h

lemma SameUpToOrder.openAt_eq (dir : ι) (name : String) (flags : OpenFlags) :
    openAt fs dir name flags = openAt fs' dir name flags := by
  unfold openAt
  rw [h.refuse, h.resolve, h.parent]
  generalize fs'.refuse dir name = refused
  cases refused with
  | some errno => rfl
  | none =>
    dsimp only
    split
    · rfl
    · have hdir := h.node dir
      generalize fs.node dir = node, fs'.node dir = node' at hdir
      cases hdir with
      | directory hnodup hperm =>
        dsimp only
        rw [get?_perm hnodup hperm name]
        split
        · rfl
        · split
          · rfl
          · split
            · rfl
            · rename_i i _
              have hnode := h.node i
              generalize fs.node i = node, fs'.node i = node' at hnode
              cases hnode <;> rfl
      | _ => rfl

lemma SameUpToOrder.isLink_eq (dir : ι) (name : String) :
    isLink fs dir name = isLink fs' dir name := by
  unfold isLink
  have hdir := h.node dir
  generalize fs.node dir = node, fs'.node dir = node' at hdir
  cases hdir with
  | directory hnodup hperm =>
    dsimp only
    rw [get?_perm hnodup hperm name]
    cases get? _ name with
    | none => rfl
    | some i =>
      rw [Option.map_some, Option.map_some]
      have hnode := h.node i
      generalize fs.node i = node, fs'.node i = node' at hnode
      cases hnode <;> rfl
  | _ => rfl

lemma SameUpToOrder.openDescriptor_eq (fds : Descriptors ι) (i : ι) :
    openDescriptor fs fds i = openDescriptor fs' fds i := by
  unfold openDescriptor
  rw [h.newDescriptor]

lemma SameUpToOrder.openComponent_eq (component : String) (flags : OpenFlags) (parentFd : ℕ)
    (fds : Descriptors ι) :
    openComponent fs component flags parentFd fds =
      openComponent fs' component flags parentFd fds := by
  have hlink : isSymlink fs component parentFd fds = isSymlink fs' component parentFd fds := by
    unfold isSymlink
    exact congrArg (fun f => ((get? fds parentFd).map f).getD false)
      (funext fun dir => h.isLink_eq dir component)
  unfold openComponent
  rw [hlink]
  simp only [h.openAt_eq, h.openDescriptor_eq]

lemma SameUpToOrder.openComponents_eq (rootFd : ℕ) (components : List String) (currentFd : ℕ)
    (fds : Descriptors ι) :
    openComponents fs rootFd components currentFd fds =
      openComponents fs' rootFd components currentFd fds := by
  induction components generalizing currentFd fds with
  | nil => rfl
  | cons component components ih =>
    unfold openComponents
    dsimp only
    rw [h.openComponent_eq]
    split
    · rfl
    · exact ih _ _

lemma SameUpToOrder.openRoot_eq (root : Except Errno ι) (fds : Descriptors ι) :
    openRoot fs root fds = openRoot fs' root fds := by
  unfold openRoot
  cases root with
  | error errno => rfl
  | ok i =>
    dsimp only [Except.bind]
    have hnode := h.node i
    generalize fs.node i = node, fs'.node i = node' at hnode
    simp only [h.openDescriptor_eq]
    cases hnode <;> rfl

/-- What a descriptor is for. -/
lemma SameUpToOrder.statResult (fds : Descriptors ι) (fd : ℕ) :
    Option.Rel SameNode ((get? fds fd).map fs.node) ((get? fds fd).map fs'.node) := by
  cases get? fds fd with
  | none => exact .none
  | some i => exact .some (h.node i)

/-- `open_target` does the same, up to the order in what the target says of a directory. -/
lemma SameUpToOrder.openTarget (root : Except Errno ι) (path : PyVal) (allowRoot : Bool) (fds : Descriptors ι) :
    (∃ failure fds', Filesystem.openTarget fs root path allowRoot fds = .raised failure fds' ∧
      Filesystem.openTarget fs' root path allowRoot fds = .raised failure fds') ∨
    ∃ fd relativePath rootFd fds',
      Filesystem.openTarget fs root path allowRoot fds =
        .yielded ⟨fd, relativePath, (get? fds' fd).map fs.node⟩ rootFd fds' ∧
      Filesystem.openTarget fs' root path allowRoot fds =
        .yielded ⟨fd, relativePath, (get? fds' fd).map fs'.node⟩ rootFd fds' := by
  unfold Filesystem.openTarget
  cases normalizeRelativePath path allowRoot with
  | error failure => exact .inl ⟨failure, fds, rfl, rfl⟩
  | ok normalized =>
    dsimp only
    rw [h.openRoot_eq]
    cases openRoot fs' root fds with
    | mk opened fds₁ =>
      cases opened with
      | error failure => exact .inl ⟨failure, fds₁, rfl, rfl⟩
      | ok rootFd =>
        dsimp only
        rw [h.openComponents_eq]
        split
        · exact .inl ⟨_, _, rfl, rfl⟩
        · exact .inr ⟨_, _, _, _, rfl, rfl⟩

/-- The body of a `with` block that does the same leaves the whole block the same. -/
lemma SameUpToOrder.withTarget {α : Type} {path : PyVal} {allowRoot : Bool}
    {body body' : OpenTarget ι → Descriptors ι → Except ListingError α}
    (hbody : ∀ fd relativePath rootFd fds', Filesystem.openTarget fs root path allowRoot fds =
        .yielded ⟨fd, relativePath, (get? fds' fd).map fs.node⟩ rootFd fds' →
      body ⟨fd, relativePath, (get? fds' fd).map fs.node⟩ fds' =
        body' ⟨fd, relativePath, (get? fds' fd).map fs'.node⟩ fds') :
    Filesystem.withTarget fs root path allowRoot fds body =
      Filesystem.withTarget fs' root path allowRoot fds body' := by
  unfold Filesystem.withTarget
  rcases h.openTarget root path allowRoot fds with
    ⟨failure, fds', heq, heq'⟩ | ⟨fd, relativePath, rootFd, fds', heq, heq'⟩
  · rw [heq, heq']
  · rw [heq, heq']
    dsimp only
    rw [hbody fd relativePath rootFd fds' heq]

lemma SameUpToOrder.entryFromTarget_eq (fd : ℕ) (relativePath : String) (fds : Descriptors ι) :
    entryFromTarget ⟨fd, relativePath, (get? fds fd).map fs.node⟩ =
      entryFromTarget ⟨fd, relativePath, (get? fds fd).map fs'.node⟩ := by
  have hstat := h.statResult fds fd
  unfold entryFromTarget
  dsimp only
  generalize (get? fds fd).map fs.node = stat, (get? fds fd).map fs'.node = stat' at hstat
  cases hstat with
  | none => rfl
  | some hnode => cases hnode <;> rfl

lemma SameUpToOrder.scandir_perm (fds : Descriptors ι) (fd : ℕ) :
    (scandir fs fds fd).Perm (scandir fs' fds fd) := by
  have hstat := h.statResult fds fd
  unfold scandir
  generalize (get? fds fd).map fs.node = stat, (get? fds fd).map fs'.node = stat' at hstat
  cases hstat with
  | none => exact .refl _
  | some hnode =>
    cases hnode with
    | directory _ hperm => exact hperm.map Prod.fst
    | _ => exact .refl _

end Same

/-! ### Names that are taken whole -/

/-- Where at most one name more stands in a directory than is taken, the order does not
matter. -/
lemma boundedNames_perm {names names' : List String} {limit : ℤ} (hperm : names.Perm names')
    (hfit : (names.length : ℤ) ≤ limit + 1 ∨ limit ≤ 0) :
    boundedNames names limit = boundedNames names' limit := by
  have hlength := hperm.length_eq
  have hsame : ((names.take (limit + 1).toNat).insertionSort (· ≤ ·)).take limit.toNat =
      ((names'.take (limit + 1).toNat).insertionSort (· ≤ ·)).take limit.toNat := by
    rcases hfit with hfit | hzero
    · rw [List.take_of_length_le (l := names) (by omega),
        List.take_of_length_le (l := names') (by omega)]
      refine congrArg (List.take limit.toNat) ?_
      exact List.Perm.eq_of_pairwise' (List.pairwise_insertionSort _ _)
        (List.pairwise_insertionSort _ _)
        (((List.perm_insertionSort _ names).trans hperm).trans
          (List.perm_insertionSort _ names').symm)
    · have hnat : limit.toNat = 0 := by omega
      rw [hnat, List.take_zero, List.take_zero]
  unfold boundedNames
  split
  · rfl
  · dsimp only
    rw [hsame, List.length_insertionSort, List.length_insertionSort, List.length_take,
      List.length_take, hlength]

/-- The directory a turn reads holds at most one name more than may still be visited, or none
may. -/
def FitsAt (fs : FileSystem ι) (root : Except Errno ι) (maxDepth : ℤ) (remaining : ℕ) (e : Pending)
    (fds : Descriptors ι) : Prop :=
  ((ofLex e).2 : ℤ) + 1 < maxDepth → ∀ target rootFd fds',
    openTarget fs root (.str (ofLex e).1) true fds = .yielded target rootFd fds' →
    (scandir fs fds' target.fd).length ≤ remaining + 1 ∨ remaining = 0

/-- No directory that a walk reads holds names that it does not take before it sorts them, but
for one. -/
structure TakenWhole (fs : FileSystem ι) (root : Except Errno ι) (base : String)
    (maxDepth scanLimit : ℤ) (fds : Descriptors ι) : Prop where
  start : ∀ target rootFd fds',
    openTarget fs root (.str base) true fds = .yielded target rootFd fds' →
    ((scandir fs fds' target.fd).length : ℤ) ≤ scanLimit + 1 ∨ scanLimit ≤ 0
  turns : ∀ names scanLimited fds₁,
    withTarget fs root (.str base) true fds (baseNames fs scanLimit) =
      (.ok (names, scanLimited), fds₁) →
    ∀ visited remaining e rest s, Visits (walkTurn fs root maxDepth) scanLimit.toNat
        (startPending base names) { scanLimited, fds := fds₁ } visited (remaining + 1)
        (e :: rest) s →
      FitsAt fs root maxDepth remaining e s.fds

section Same

variable (h : SameUpToOrder fs fs')
include h

/-- A turn that takes its directory whole does the same in both orders. -/
lemma SameUpToOrder.walkTurn_eq {maxDepth : ℤ} {remaining : ℕ} {e : Pending} {s : Scan ι}
    (hfits : FitsAt fs root maxDepth remaining e s.fds) :
    walkTurn fs root maxDepth remaining e s = walkTurn fs' root maxDepth remaining e s := by
  unfold walkTurn
  dsimp only
  rw [h.withTarget]
  intro fd relativePath rootFd fds' hyielded
  unfold visitTarget
  rw [h.entryFromTarget_eq]
  split
  · rfl
  · dsimp only
    split
    · split
      next hdepth =>
        rw [boundedNames_perm (h.scandir_perm fds' fd)]
        rcases hfits hdepth _ _ _ hyielded with hfit | hzero
        · exact .inl (by exact_mod_cast hfit)
        · exact .inr (by omega)
      next => rfl
    · rfl

lemma SameUpToOrder.baseNames_eq {base : String} {scanLimit : ℤ}
    (hfits : ∀ target rootFd fds',
      Filesystem.openTarget fs root (.str base) true fds = .yielded target rootFd fds' →
      ((scandir fs fds' target.fd).length : ℤ) ≤ scanLimit + 1 ∨ scanLimit ≤ 0) :
    Filesystem.withTarget fs root (.str base) true fds (baseNames fs scanLimit) =
      Filesystem.withTarget fs' root (.str base) true fds (baseNames fs' scanLimit) := by
  refine h.withTarget fun fd relativePath rootFd fds' hyielded => ?_
  have hstat := h.statResult fds' fd
  have hperm := h.scandir_perm fds' fd
  have hfit := hfits _ _ _ hyielded
  unfold baseNames
  dsimp only at hfit ⊢
  rw [boundedNames_perm hperm hfit]
  generalize (get? fds' fd).map fs.node = stat, (get? fds' fd).map fs'.node = stat' at hstat
  cases hstat with
  | none => rfl
  | some hnode => cases hnode <;> rfl

/-- A walk that takes its directories whole does not depend on their order. -/
lemma SameUpToOrder.walkEntries_eq {base : String} {maxDepth scanLimit : ℤ}
    (htaken : TakenWhole fs root base maxDepth scanLimit fds) :
    walkEntries fs root base maxDepth scanLimit fds =
      walkEntries fs' root base maxDepth scanLimit fds := by
  have hstart := h.baseNames_eq htaken.start
  have hturns := htaken.turns
  unfold walkEntries
  rw [← hstart]
  generalize Filesystem.withTarget fs root (.str base) true fds (baseNames fs scanLimit) = opened
    at hturns
  obtain ⟨taken, fds₁⟩ := opened
  cases taken with
  | error e => rfl
  | ok taken =>
    obtain ⟨names, scanLimited⟩ := taken
    dsimp only
    rw [walk_congr fun remaining e s visited rest hvisits =>
      h.walkTurn_eq (hturns names scanLimited fds₁ rfl visited remaining e rest s hvisits)]

/-- A listing of a given path does not depend on the order of directories. -/
lemma SameUpToOrder.listTarget_eq (path : PyVal) :
    listTarget fs root path fds = listTarget fs' root path fds := by
  unfold listTarget
  cases normalizeRelativePath path false with
  | error failure => rfl
  | ok normalized =>
    have hsame : Filesystem.withTarget fs root (.str normalized) false fds
          (fun target _ => (entryFromTarget target).mapError ListingError.filesystem) =
        Filesystem.withTarget fs' root (.str normalized) false fds
          (fun target _ => (entryFromTarget target).mapError ListingError.filesystem) :=
      h.withTarget fun fd relativePath rootFd fds' _ =>
        congrArg (Except.mapError ListingError.filesystem)
          (h.entryFromTarget_eq fd relativePath fds')
    dsimp only
    rw [hsame]

end Same

/-- Listings in two orders.  A walk, and a listing of the root, that takes the directories it
reads whole gives the same in every order of the directories; a listing of a given path always
does. -/
theorem listing_order (fs fs' : FileSystem ι) (root : Except Errno ι) (fds : Descriptors ι)
    (h : SameUpToOrder fs fs') :
    (∀ base maxDepth scanLimit, TakenWhole fs root base maxDepth scanLimit fds →
      walkEntries fs root base maxDepth scanLimit fds =
        walkEntries fs' root base maxDepth scanLimit fds) ∧
    (∀ maxEntries maxDepth,
      (∀ entryCap depthCap,
        boundedValue maxEntries listDefaultEntries listMaxEntries "max_entries" = .ok entryCap →
        boundedValue maxDepth listDefaultDepth listMaxDepth "max_depth" = .ok depthCap →
        TakenWhole fs root "" depthCap (entryCap + 1) fds) →
      listEntries fs root .none maxEntries maxDepth fds =
        listEntries fs' root .none maxEntries maxDepth fds) ∧
    ∀ path maxEntries maxDepth, path ≠ .none →
      listEntries fs root path maxEntries maxDepth fds =
        listEntries fs' root path maxEntries maxDepth fds := by
  refine ⟨fun base maxDepth scanLimit htaken => h.walkEntries_eq htaken, ?_, ?_⟩
  · intro maxEntries maxDepth htaken
    unfold listEntries
    generalize hcap : boundedValue maxEntries listDefaultEntries listMaxEntries "max_entries" = cap
    generalize hdepth : boundedValue maxDepth listDefaultDepth listMaxDepth "max_depth" = depth
    cases cap with
    | error failure => rfl
    | ok entryCap =>
      cases depth with
      | error failure => rfl
      | ok depthCap =>
        dsimp only
        rw [h.walkEntries_eq (htaken entryCap depthCap hcap hdepth)]
  · intro path maxEntries maxDepth hpath
    unfold listEntries
    split
    · rfl
    · split
      · rfl
      · split
        · exact absurd rfl hpath
        · exact h.listTarget_eq _

lemma sum_add_one_notMem (used : List ℕ) : used.sum + 1 ∉ used := by
  intro h
  have hle := List.single_le_sum (fun n _ => Nat.zero_le n) _ h
  omega

/-- A directory of empty files. -/
def flatTree (entries : List (String × ℕ)) : FileSystem ℕ where
  node
    | 0 => .directory entries
    | _ => .regular 0
  parent _ := 0
  resolve _ _ := .error .noEntry
  refuse _ _ := none
  newDescriptor used := used.sum + 1
  newDescriptor_notMem := sum_add_one_notMem

lemma sameUpToOrder_flatTree {entries entries' : List (String × ℕ)} (hnodup : (keys entries).Nodup)
    (hperm : entries.Perm entries') : SameUpToOrder (flatTree entries) (flatTree entries') := by
  refine ⟨fun i => ?_, rfl, rfl, rfl, rfl⟩
  cases i with
  | zero => exact .directory hnodup hperm
  | succ i => exact .regular 0

/-- Four files and the default limits. -/
theorem listing_order_flat :
    listEntries (flatTree [("d", 4), ("b", 2), ("c", 3), ("a", 1)]) (.ok 0) .none .none .none [] =
      listEntries (flatTree [("a", 1), ("b", 2), ("c", 3), ("d", 4)]) (.ok 0) .none .none .none
        [] := by
  have hsame : SameUpToOrder (flatTree [("d", 4), ("b", 2), ("c", 3), ("a", 1)])
      (flatTree [("a", 1), ("b", 2), ("c", 3), ("d", 4)]) :=
    sameUpToOrder_flatTree (by decide) (by decide)
  refine (listing_order _ _ (.ok 0) [] hsame).2.1 .none .none ?_
  intro entryCap depthCap hcap hdepth
  obtain rfl : (100 : ℤ) = entryCap := Except.ok.inj hcap
  obtain rfl : (1 : ℤ) = depthCap := Except.ok.inj hdepth
  constructor
  · rintro target rootFd fds' -
    refine .inl ?_
    unfold scandir
    cases get? fds' target.fd with
    | none => decide
    | some i =>
      cases i with
      | zero => decide
      | succ i => exact (by decide : ((0 : ℕ) : ℤ) ≤ 100 + 1 + 1)
  · intro names scanLimited fds₁ _ visited remaining e rest s _ hdepth
    omega

/-- Four files, of which two names are visited: which of them are listed depends on the order in
which the system gives them. -/
theorem listing_depends_on_order :
    ∃ fs fs' : FileSystem ℕ, SameUpToOrder fs fs' ∧
      listEntries fs (.ok 0) .none (.int 1) .none [] =
        .ok ⟨none, none, [⟨"a", .file, some 0⟩], false, true⟩ ∧
      listEntries fs' (.ok 0) .none (.int 1) .none [] =
        .ok ⟨none, none, [⟨"b", .file, some 0⟩], false, true⟩ :=
  ⟨flatTree [("a", 1), ("b", 2), ("c", 3), ("d", 4)],
    flatTree [("d", 4), ("c", 3), ("b", 2), ("a", 1)],
    sameUpToOrder_flatTree (by decide) (by decide), by decide +kernel, by decide +kernel⟩

end Trion.Filesystem
