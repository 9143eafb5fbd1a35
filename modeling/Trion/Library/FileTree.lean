import Trion.Library.OrderedDict

/-!
# File trees with symbolic links

Nodes of a file system, the opening of a name in an open directory, and the descriptors of a
process.  A name that is a plain entry is looked up in the directory; a symbolic link is refused
or followed, as the flags say; every other name, and a link that is followed, goes wherever the
kernel's resolution takes it, of which nothing is assumed.  An entry that is opened without
following links is an entry of the directory, and no link.
-/

namespace FileTree

open OrderedDict

/-- A node; the nodes have names of type `ι`. -/
inductive Node (ι : Type*) where
  | directory (entries : List (String × ι))
  | regular (size : ℕ)
  | symlink (target : String)
  /-- A fifo, a socket or a device. -/
  | special

inductive Errno where
  | loop
  | manyLinks
  | noEntry
  | notDirectory
  | other (code : ℕ)
deriving DecidableEq

/-- The flags of an opening for reading. -/
structure OpenFlags where
  noFollow : Bool := false
  directory : Bool := false
  nonBlock : Bool := false

/-- A file system, and what the kernel decides on its own. -/
structure FileSystem (ι : Type*) where
  node : ι → Node ι
  /-- The node a directory names `..`. -/
  parent : ι → ι
  /-- Where the kernel's resolution leads from a directory, links followed. -/
  resolve : ι → String → Except Errno ι
  /-- The error the kernel refuses to open a name with, as for a lack of permission. -/
  refuse : ι → String → Option Errno
  newDescriptor : List ℕ → ℕ
  /-- A new descriptor is not in use. -/
  newDescriptor_notMem (used : List ℕ) : newDescriptor used ∉ used

variable {ι : Type*} (fs : FileSystem ι)

/-- The name stands for an entry of the directory it is opened in. -/
def IsEntryName (name : String) : Prop :=
  name ≠ "" ∧ name ≠ "." ∧ name ≠ ".." ∧ '/' ∉ name.toList

/-- `openat`: opens a name in a directory. -/
def openAt (dir : ι) (name : String) (flags : OpenFlags) : Except Errno ι :=
  match fs.refuse dir name with
  | some errno => .error errno
  | none =>
    if name = "" ∨ '/' ∈ name.toList then fs.resolve dir name
    else match fs.node dir with
      | .directory entries =>
        if name = "." then .ok dir
        else if name = ".." then .ok (fs.parent dir)
        else match get? entries name with
          | none => .error .noEntry
          | some i =>
            match fs.node i with
            | .directory _ => .ok i
            | .symlink target =>
              if flags.noFollow then .error (if flags.directory then .notDirectory else .loop)
              else fs.resolve dir target
            | _ => if flags.directory then .error .notDirectory else .ok i
      | _ => .error .notDirectory

/-- `S_ISLNK` of what `stat` finds under a name, links not followed. -/
def isLink (dir : ι) (name : String) : Bool :=
  match fs.node dir with
  | .directory entries =>
    match (get? entries name).map fs.node with
    | some (.symlink _) => true
    | _ => false
  | _ => false

/-- The name is an entry of the directory, and no link. -/
structure IsPlainEntry (dir : ι) (name : String) (i : ι) : Prop where
  entry : ∃ entries, fs.node dir = .directory entries ∧ get? entries name = some i
  noLink : ∀ target, fs.node i ≠ .symlink target

/-- What is reached from a node through entries of directories, without a link. -/
inductive Descends (root : ι) : List String → ι → Prop
  | refl : Descends root [] root
  | entry {names : List String} {dir i : ι} {name : String} : Descends root names dir →
      IsPlainEntry fs dir name i → Descends root (names ++ [name]) i

variable {fs} in
/-- An entry that is opened without following links. -/
theorem isPlainEntry_of_openAt {dir i : ι} {name : String} {flags : OpenFlags}
    (hname : IsEntryName name) (hflags : flags.noFollow = true)
    (h : openAt fs dir name flags = .ok i) : IsPlainEntry fs dir name i := by
  obtain ⟨hne, hdot, hdotDot, hslash⟩ := hname
  unfold openAt at h
  split at h
  · simp at h
  · rw [if_neg (by simp [hne, hslash])] at h
    split at h
    · rename_i entries hdir
      rw [if_neg hdot, if_neg hdotDot] at h
      split at h
      · simp at h
      · rename_i j hentry
        split at h
        · rename_i hnode
          obtain rfl := Except.ok.inj h
          exact ⟨⟨entries, hdir, hentry⟩, fun target hlink => by simp [hnode] at hlink⟩
        · rw [if_pos hflags] at h
          simp at h
        · rename_i hnoDirectory hnoLink
          split at h
          · simp at h
          · obtain rfl := Except.ok.inj h
            exact ⟨⟨entries, hdir, hentry⟩, hnoLink⟩
    · simp at h

/-! ### Paths -/

/-- The node under a name of a directory. -/
def entryAt (dir : ι) (name : String) : Option ι :=
  match fs.node dir with
  | .directory entries => get? entries name
  | _ => none

/-- The node at a path below a node, no link followed. -/
def nodeAt (dir : ι) : List String → Option ι
  | [] => some dir
  | name :: names => (entryAt fs dir name).bind fun i => nodeAt i names

/-- A tree of regular files, directories and symbolic links, all of which may be read. -/
structure IsTree (root : ι) : Prop where
  nodup {names : List String} {dir : ι} {entries : List (String × ι)} :
    nodeAt fs root names = some dir → fs.node dir = .directory entries → (keys entries).Nodup
  isEntryName {names : List String} {dir : ι} {entries : List (String × ι)} {name : String} :
    nodeAt fs root names = some dir → fs.node dir = .directory entries →
      name ∈ keys entries → IsEntryName name ∧ Char.ofNat 0 ∉ name.toList
  noSpecial {names : List String} {i : ι} : nodeAt fs root names = some i → fs.node i ≠ .special
  readable {names : List String} {dir : ι} (name : String) :
    nodeAt fs root names = some dir → fs.refuse dir name = none

section Paths

variable {fs} {dir i : ι} {name : String} {names names' : List String}

lemma nodeAt_nil : nodeAt fs dir [] = some dir := rfl

lemma nodeAt_append : nodeAt fs dir (names ++ names') =
    (nodeAt fs dir names).bind fun i => nodeAt fs i names' := by
  induction names generalizing dir with
  | nil => rfl
  | cons name names ih =>
    have hstep : nodeAt fs dir (name :: names ++ names') =
        (entryAt fs dir name).bind fun i => nodeAt fs i (names ++ names') := rfl
    have hfirst : nodeAt fs dir (name :: names) =
        (entryAt fs dir name).bind fun i => nodeAt fs i names := rfl
    rw [hstep, hfirst, Option.bind_assoc]
    exact congrArg _ (funext fun j => ih)

lemma nodeAt_concat : nodeAt fs dir (names ++ [name]) =
    (nodeAt fs dir names).bind fun i => entryAt fs i name := by
  rw [nodeAt_append]
  refine congrArg _ (funext fun j => ?_)
  have hlast : nodeAt fs j [name] = (entryAt fs j name).bind some := rfl
  rw [hlast, Option.bind_fun_some]

lemma entryAt_eq_some : entryAt fs dir name = some i ↔
    ∃ entries, fs.node dir = .directory entries ∧ get? entries name = some i := by
  unfold entryAt
  split
  next entries hdir => simp [hdir]
  next hno => simpa using fun entries hdir _ => hno entries hdir

/-- What is reached without a link is the node at its path. -/
lemma Descends.nodeAt_eq {root : ι} (h : Descends fs root names i) :
    nodeAt fs root names = some i := by
  induction h with
  | refl => rfl
  | entry _ hplain ih =>
    rw [nodeAt_concat, ih, Option.bind_some]
    exact entryAt_eq_some.mpr hplain.entry

/-- Below a node of a tree stands a tree. -/
lemma IsTree.below {root : ι} (h : IsTree fs root) (hdir : nodeAt fs root names = some dir) :
    IsTree fs dir := by
  have hpath : ∀ names' i, nodeAt fs dir names' = some i →
      nodeAt fs root (names ++ names') = some i := by
    intro names' i hi
    rw [nodeAt_append, hdir, Option.bind_some]
    exact hi
  exact ⟨fun hi => h.nodup (hpath _ _ hi), fun hi => h.isEntryName (hpath _ _ hi),
    fun hi => h.noSpecial (hpath _ _ hi), fun name hi => h.readable name (hpath _ _ hi)⟩

/-- The names of a path of a tree are names of entries. -/
lemma IsTree.names_of_nodeAt {root : ι} (h : IsTree fs root) (hi : nodeAt fs root names = some i) :
    ∀ name ∈ names, IsEntryName name ∧ Char.ofNat 0 ∉ name.toList := by
  induction names generalizing root with
  | nil => exact fun _ hname => absurd hname List.not_mem_nil
  | cons first names ih =>
    obtain ⟨j, hj, hrest⟩ := Option.bind_eq_some_iff.mp hi
    obtain ⟨entries, hdir, hget⟩ := entryAt_eq_some.mp hj
    have hfirst : nodeAt fs root [first] = some j := by
      have hone : nodeAt fs root [first] = (entryAt fs root first).bind some := rfl
      rw [hone, hj, Option.bind_some]
    intro name hname
    rcases List.mem_cons.mp hname with rfl | hname
    · exact h.isEntryName nodeAt_nil hdir
        (mem_keys_iff.mpr (Option.isSome_iff_exists.mpr ⟨j, hget⟩))
    · exact ih (h.below hfirst) hrest name hname

/-- Opening an entry that is there and not refused. -/
lemma openAt_of_entryAt {flags : OpenFlags} (hname : IsEntryName name)
    (hrefuse : fs.refuse dir name = none) (h : entryAt fs dir name = some i) :
    openAt fs dir name flags =
      match fs.node i with
      | .directory _ => .ok i
      | .symlink target =>
        if flags.noFollow then .error (if flags.directory then .notDirectory else .loop)
        else fs.resolve dir target
      | _ => if flags.directory then .error .notDirectory else .ok i := by
  obtain ⟨hne, hdot, hdotDot, hslash⟩ := hname
  obtain ⟨entries, hdir, hget⟩ := entryAt_eq_some.mp h
  unfold openAt
  rw [hrefuse]
  dsimp only
  rw [if_neg (by simp [hne, hslash]), hdir]
  dsimp only
  rw [if_neg hdot, if_neg hdotDot, hget]

lemma isLink_of_entryAt {target : String} (h : entryAt fs dir name = some i)
    (hlink : fs.node i = .symlink target) : isLink fs dir name = true := by
  obtain ⟨entries, hdir, hget⟩ := entryAt_eq_some.mp h
  unfold isLink
  rw [hdir]
  dsimp only
  rw [hget, Option.map_some, hlink]

end Paths

/-! ### Descriptors -/

/-- The descriptors of a process and the nodes they are for. -/
abbrev Descriptors (ι : Type*) := List (ℕ × ι)

/-- Opens a descriptor for a node. -/
def openDescriptor (fds : Descriptors ι) (i : ι) : ℕ × Descriptors ι :=
  (fs.newDescriptor (keys fds), fds ++ [(fs.newDescriptor (keys fds), i)])

/-- `close`. -/
def close (fds : Descriptors ι) (fd : ℕ) : Descriptors ι := erase fds fd

variable {fs} {fds : Descriptors ι}

/-- Closing what has been opened last. -/
lemma close_append {fd : ℕ} (h : fd ∉ keys fds) (i : ι) : close (fds ++ [(fd, i)]) fd = fds := by
  unfold close erase
  have hkept : fds.filter (fun e => !(e.1 == fd)) = fds := by
    refine List.filter_eq_self.mpr fun e he => ?_
    have hne : e.1 ≠ fd := fun heq => h (heq ▸ List.mem_map_of_mem he)
    simpa using hne
  rw [List.filter_append, hkept]
  simp

lemma get?_append_self {fd : ℕ} (h : fd ∉ keys fds) (i : ι) :
    get? (fds ++ [(fd, i)]) fd = some i := by
  have hnone : get? fds fd = none := by
    rw [← Option.not_isSome_iff_eq_none, ← mem_keys_iff]
    exact h
  rw [get?_append, hnone, get?_cons, if_pos rfl]
  rfl

end FileTree
