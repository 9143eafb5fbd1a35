import Trion.Python.Text

/-!
# Lexical paths

`posixpath` normalises paths by their text alone: empty components and `.` are left out and
`..` takes the component before it away.  A path is below another one if the components of the
one begin with those of the other.
-/

namespace Trion.Python

/-- `path.split("/")` without empty components and `.`. -/
def components (path : String) : List String :=
  (splitOn '/' path).filter fun part => part != "" && part != "."

/-- The components of a path are looked through from the left; `stack` are those that are kept,
the last one first. -/
def collapse (rooted : Bool) : List String → List String → List String
  | stack, [] => stack.reverse
  | stack, part :: parts =>
    if part != ".." || (!rooted && stack.isEmpty) || stack.head? == some ".." then
      collapse rooted (part :: stack) parts
    else collapse rooted stack.tail parts

/-- How many slashes a normalised path begins with: two stay two, three or more become one. -/
def initialSlashes (path : String) : ℕ :=
  if startsWith path "//" && !startsWith path "///" then 2
  else if startsWith path "/" then 1
  else 0

/-- `"/".join(parts)` after a number of slashes. -/
def joinPath (slashes : ℕ) (parts : List String) : String :=
  String.ofList (List.replicate slashes '/' ++ ['/'].intercalate (parts.map String.toList))

/-- `posixpath.normpath`. -/
def normpath (path : String) : String :=
  let slashes := initialSlashes path
  orElse (joinPath slashes (collapse (slashes != 0) [] (components path))) "."

/-- `posixpath.join(base, path)` for a path that does not begin with a slash. -/
def joinRelative (base path : String) : String :=
  if base = "" ∨ base.toList.getLast? = some '/' then base ++ path else base ++ "/" ++ path

/-- `posixpath.join(base, path)`. -/
def posixJoin (base path : String) : String :=
  if startsWith path "/" then path else joinRelative base path

/-- `posixpath.abspath`; `cwd` is the working directory. -/
def abspath (cwd path : String) : String :=
  if startsWith path "/" then normpath path else normpath (joinRelative cwd path)

/-- The longest list that both lists begin with. -/
def commonPrefix : List String → List String → List String
  | a :: as, b :: bs => if a = b then a :: commonPrefix as bs else []
  | _, _ => []

/-- `posixpath.commonpath` of two paths; none where it raises. -/
def commonpath (path other : String) : Option String :=
  if startsWith path "/" = startsWith other "/" then
    let slashes := if startsWith path "/" then 1 else 0
    some (joinPath slashes (commonPrefix (components path) (components other)))
  else none

/-! ### Components -/

/-- What a component is: a text without a slash, neither empty nor `.`. -/
lemma of_mem_components {path part : String} (h : part ∈ components path) :
    part ≠ "" ∧ part ≠ "." ∧ '/' ∉ part.toList := by
  obtain ⟨hsplit, hpart⟩ := List.mem_filter.mp h
  simp only [Bool.and_eq_true, bne_iff_ne] at hpart
  exact ⟨hpart.1, hpart.2, sep_notMem_of_mem_splitOn hsplit⟩

lemma commonPrefix_prefix (as bs : List String) : commonPrefix as bs <+: as := by
  induction as generalizing bs with
  | nil => simp [commonPrefix]
  | cons a as ih =>
    cases bs with
    | nil => exact List.nil_prefix
    | cons b bs =>
      unfold commonPrefix
      split
      · exact (List.cons_prefix_cons).mpr ⟨rfl, ih bs⟩
      · exact List.nil_prefix

/-- The components of a path that was joined are its parts. -/
lemma components_joinPath {parts : List String}
    (h : ∀ part ∈ parts, part ≠ "" ∧ part ≠ "." ∧ '/' ∉ part.toList) (slashes : ℕ) :
    components (joinPath slashes parts) = parts := by
  -- a path without names has an empty last component
  obtain ⟨names, hnames, hjoined, hslash, hfilter⟩ : ∃ names : List String, names ≠ [] ∧
      ['/'].intercalate (names.map String.toList) =
        ['/'].intercalate (parts.map String.toList) ∧ (∀ name ∈ names, '/' ∉ name.toList) ∧
          names.filter (fun part => part != "" && part != ".") = parts := by
    cases parts with
    | nil => exact ⟨[""], by simp, by simp, by simp, by simp⟩
    | cons part parts =>
      refine ⟨part :: parts, by simp, rfl, fun name hname => (h name hname).2.2, ?_⟩
      refine List.filter_eq_self.mpr fun name hname => ?_
      simp [(h name hname).1, (h name hname).2.1]
  have hjoin : ∀ n, List.replicate n '/' ++ ['/'].intercalate (parts.map String.toList) =
      ['/'].intercalate ((List.replicate n "" ++ names).map String.toList) := by
    intro n
    induction n with
    | zero => simp [hjoined]
    | succ n ih =>
      obtain ⟨name, rest, hrest⟩ : ∃ name rest,
          List.replicate n "" ++ names = name :: rest :=
        List.exists_cons_of_ne_nil (by simp [hnames])
      rw [List.replicate_succ, List.replicate_succ, List.cons_append, List.cons_append, ih, hrest,
        List.map_cons, List.map_cons, List.map_cons, List.intercalate_cons_cons]
      simp
  unfold components joinPath
  rw [hjoin, splitOn_intercalate (by simp [hnames]), List.filter_append, hfilter]
  · simp
  · intro part hpart
    rcases List.mem_append.mp hpart with hempty | hname
    · simp [(List.mem_replicate.mp hempty).2]
    · exact hslash part hname

/-- A path whose common path with another one is the other one begins with its components. -/
theorem components_prefix_of_commonpath {path root : String}
    (h : commonpath path root = some root) : components root <+: components path := by
  unfold commonpath at h
  split at h
  · have hinitial := commonPrefix_prefix (components path) (components root)
    have hcommon := congrArg components (Option.some.inj h)
    rw [components_joinPath fun part hpart =>
      of_mem_components (hinitial.mem hpart)] at hcommon
    rwa [hcommon] at hinitial
  · simp at h

/-! ### Normalised paths -/

/-- In a rooted path no `..` is kept. -/
lemma notMem_collapse {stack parts : List String} (h : ".." ∉ stack) :
    ".." ∉ collapse true stack parts := by
  induction parts generalizing stack with
  | nil => simpa [collapse] using h
  | cons part parts ih =>
    unfold collapse
    split
    · rename_i hkept
      have hhead : stack.head? ≠ some ".." := fun hhead => h (List.mem_of_head? hhead)
      have hpart : part ≠ ".." := by simpa [hhead] using hkept
      exact ih (by simpa [hpart.symm] using h)
    · exact ih fun hmem => h (List.mem_of_mem_tail hmem)

/-- Components without `..` are all kept. -/
lemma collapse_eq {rooted : Bool} {stack parts : List String} (h : ".." ∉ parts) :
    collapse rooted stack parts = stack.reverse ++ parts := by
  induction parts generalizing stack with
  | nil => simp [collapse]
  | cons part parts ih =>
    rw [List.mem_cons, not_or] at h
    have hpart : part ≠ ".." := fun heq => h.1 heq.symm
    unfold collapse
    rw [if_pos (by simp [hpart]), ih h.2]
    simp

lemma mem_of_mem_collapse {rooted : Bool} {stack parts : List String} {part : String}
    (h : part ∈ collapse rooted stack parts) : part ∈ stack ∨ part ∈ parts := by
  induction parts generalizing stack with
  | nil => exact .inl (by simpa [collapse] using h)
  | cons first parts ih =>
    unfold collapse at h
    split at h
    · rcases ih h with hstack | hparts
      · rcases List.mem_cons.mp hstack with rfl | hstack
        · exact .inr List.mem_cons_self
        · exact .inl hstack
      · exact .inr (List.mem_cons_of_mem _ hparts)
    · rcases ih h with hstack | hparts
      · exact .inl (List.mem_of_mem_tail hstack)
      · exact .inr (List.mem_cons_of_mem _ hparts)

/-- A joined path begins with as many slashes as it was joined with. -/
lemma initialSlashes_joinPath {parts : List String}
    (h : ∀ part ∈ parts, part ≠ "" ∧ part ≠ "." ∧ '/' ∉ part.toList) {slashes : ℕ}
    (hslashes : slashes = 1 ∨ slashes = 2) : initialSlashes (joinPath slashes parts) = slashes := by
  have hnames : ['/'].intercalate (parts.map String.toList) = [] ∨
      ∃ c cs, ['/'].intercalate (parts.map String.toList) = c :: cs ∧ c ≠ '/' := by
    cases parts with
    | nil => exact .inl rfl
    | cons part parts =>
      obtain ⟨hne, -, hslash⟩ := h part List.mem_cons_self
      obtain ⟨c, cs, hcs⟩ := List.exists_cons_of_ne_nil (show part.toList ≠ [] by simpa using hne)
      have hc : c ≠ '/' := fun heq => hslash (hcs ▸ heq ▸ List.mem_cons_self)
      cases parts with
      | nil => exact .inr ⟨c, cs, by simp [hcs], hc⟩
      | cons next parts =>
        rw [List.map_cons, List.map_cons, List.intercalate_cons_cons, hcs]
        exact .inr ⟨c, _, rfl, hc⟩
  unfold initialSlashes joinPath startsWith
  rcases hnames with hnil | ⟨c, cs, hcs, hc⟩
  · rw [hnil]
    rcases hslashes with rfl | rfl <;> decide
  · rw [hcs]
    have hc' : ¬ '/' = c := Ne.symm hc
    rcases hslashes with rfl | rfl <;> simp [List.isPrefixOf, hc']

/-- A path that begins with a slash begins with one or two. -/
lemma initialSlashes_of_startsWith {path : String} (h : startsWith path "/" = true) :
    initialSlashes path = 1 ∨ initialSlashes path = 2 := by
  unfold initialSlashes
  split
  · exact .inr rfl
  · exact .inl rfl

lemma startsWith_joinPath {slashes : ℕ} (hslashes : slashes = 1 ∨ slashes = 2)
    (parts : List String) : startsWith (joinPath slashes parts) "/" = true := by
  unfold startsWith joinPath
  rcases hslashes with rfl | rfl <;> simp [List.isPrefixOf]

/-- What a rooted path is normalised to. -/
lemma normpath_rooted {path : String} (h : startsWith path "/" = true) :
    normpath path = joinPath (initialSlashes path) (collapse true [] (components path)) := by
  have hslashes := initialSlashes_of_startsWith h
  have hrooted : (initialSlashes path != 0) = true := by
    rcases hslashes with heq | heq <;> rw [heq] <;> rfl
  have hne : joinPath (initialSlashes path) (collapse true [] (components path)) ≠ "" := by
    intro hempty
    have hstart := startsWith_joinPath hslashes (collapse true [] (components path))
    rw [hempty] at hstart
    exact absurd hstart (by decide)
  unfold normpath orElse
  dsimp only
  rw [hrooted, if_neg hne]

lemma startsWith_normpath {path : String} (h : startsWith path "/" = true) :
    startsWith (normpath path) "/" = true := by
  rw [normpath_rooted h]
  exact startsWith_joinPath (initialSlashes_of_startsWith h) _

/-- A rooted path is normalised once. -/
lemma normpath_normpath {path : String} (h : startsWith path "/" = true) :
    normpath (normpath path) = normpath path := by
  have hparts : ∀ part ∈ collapse true [] (components path),
      part ≠ "" ∧ part ≠ "." ∧ '/' ∉ part.toList := by
    intro part hpart
    rcases mem_of_mem_collapse hpart with hnil | hmem
    · simp at hnil
    · exact of_mem_components hmem
  rw [normpath_rooted (startsWith_normpath h)]
  rw [normpath_rooted h, components_joinPath hparts,
    initialSlashes_joinPath hparts (initialSlashes_of_startsWith h),
    collapse_eq (notMem_collapse (by simp))]
  rfl

variable {cwd path root : String}

/-- From an absolute working directory the path that is normalised is rooted. -/
lemma abspath_eq_normpath (hcwd : startsWith cwd "/" = true) (path : String) :
    ∃ rooted, startsWith rooted "/" = true ∧ abspath cwd path = normpath rooted := by
  by_cases hpath : startsWith path "/" = true
  · exact ⟨path, hpath, if_pos hpath⟩
  · refine ⟨joinRelative cwd path, ?_, if_neg hpath⟩
    obtain ⟨rest, hrest⟩ := List.isPrefixOf_iff_prefix.mp hcwd
    refine List.isPrefixOf_iff_prefix.mpr ?_
    unfold joinRelative
    split
    · exact ⟨rest ++ path.toList, by rw [String.toList_append, ← hrest, List.append_assoc]⟩
    · refine ⟨rest ++ ("/".toList ++ path.toList), ?_⟩
      rw [String.toList_append, String.toList_append, ← hrest]
      simp only [List.append_assoc]

/-- A path is made absolute once. -/
theorem abspath_abspath (hcwd : startsWith cwd "/" = true) :
    abspath cwd (abspath cwd path) = abspath cwd path := by
  obtain ⟨rooted, hstart, heq⟩ := abspath_eq_normpath hcwd path
  have habs : startsWith (abspath cwd path) "/" = true := heq ▸ startsWith_normpath hstart
  rw [show abspath cwd (abspath cwd path) = normpath (abspath cwd path) from if_pos habs, heq,
    normpath_normpath hstart]

/-! ### Roots -/

/-- `path` is `root` or something below it. -/
def LiesWithin (cwd path root : String) : Prop :=
  components (abspath cwd root) <+: components (abspath cwd path)

instance (cwd path root : String) : Decidable (LiesWithin cwd path root) :=
  inferInstanceAs (Decidable (_ <+: _))

/-- A path that goes on after the root and a slash is below the root. -/
lemma components_prefix_of_startsWith (h : startsWith path (root ++ "/") = true) :
    components root <+: components path := by
  obtain ⟨rest, hrest⟩ := List.isPrefixOf_iff_prefix.mp h
  have hpath : path.toList = root.toList ++ '/' :: rest := by
    rw [← hrest, String.toList_append, List.append_assoc]
    rfl
  unfold components splitOn
  rw [hpath, List.splitOn_append_cons_self, List.map_append, List.filter_append]
  exact List.prefix_append _ _

end Trion.Python
