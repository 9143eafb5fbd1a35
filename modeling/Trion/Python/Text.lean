import Trion.Python.Value

/-!
# Words of a text

`str.split()`, `" ".join`, slices from the left and `str.replace` of one character, with the
laws that tie them to `str.strip`: the words of a text are not empty and hold no white space,
and a text put together from such words is split into them again.
-/

namespace Trion.Python

/-- `s[:n]`. -/
def sliceTo (s : String) (n : ℕ) : String := String.ofList (s.toList.take n)

/-- `s.split()`. -/
def strSplit (s : String) : List String :=
  ((s.toList.splitOnP isSpace).filter (!·.isEmpty)).map String.ofList

/-- `" ".join(words)`. -/
def joinWords (words : List String) : String :=
  String.ofList ([' '].intercalate (words.map String.toList))

/-- `s.replace(c, text)` for one character. -/
def replaceChar (c : Char) (text s : String) : String :=
  String.ofList (s.toList.flatMap fun d => if d = c then text.toList else [d])

/-- Not empty and without white space. -/
def IsWord (w : String) : Prop := w ≠ "" ∧ ∀ c ∈ w.toList, isSpace c = false

/-- The built-ins, with what is documented of `str.lower`: what it does to an ASCII text, and
that it leaves no text empty. -/
structure CaseRuntime extends PyRuntime where
  lower_ascii (s : String) :
    (∀ c ∈ s.toList, c.toNat < 128) → lower s = String.ofList (s.toList.map Char.toLower)
  lower_ne_empty (s : String) : s ≠ "" → lower s ≠ ""

lemma PyRuntime.ascii_lower (s : String) (_ : ∀ c ∈ s.toList, c.toNat < 128) :
    PyRuntime.ascii.lower s = String.ofList (s.toList.map Char.toLower) := rfl

/-- The built-ins on ASCII text. -/
def CaseRuntime.ascii : CaseRuntime where
  toPyRuntime := .ascii
  lower_ascii := PyRuntime.ascii_lower
  lower_ne_empty s h := by simpa [PyRuntime.ascii] using h

/-- The text is ASCII without capital letters. -/
def isLowerAscii (s : String) : Bool := s.toList.all fun c => c.toNat < 128 && c.toLower = c

/-- Lower case ASCII stays as it is where `str.lower` lowers the letters of ASCII. -/
lemma lower_eq_self_of_ascii {lower : String → String}
    (hlower : ∀ s : String, (∀ c ∈ s.toList, c.toNat < 128) →
      lower s = String.ofList (s.toList.map Char.toLower))
    {s : String} (h : isLowerAscii s = true) : lower s = s := by
  have hchars : ∀ c ∈ s.toList, c.toNat < 128 ∧ c.toLower = c := by
    intro c hc
    simpa using List.all_eq_true.mp h c hc
  have hsame : s.toList.map Char.toLower = s.toList :=
    (List.map_congr_left fun c hc => (hchars c hc).2).trans (List.map_id' _)
  rw [hlower s fun c hc => (hchars c hc).1, hsame, String.ofList_toList]

/-- A text in lower case ASCII stays as it is. -/
lemma CaseRuntime.lower_eq_self (rt : CaseRuntime) {s : String} (h : isLowerAscii s = true) :
    rt.lower s = s :=
  lower_eq_self_of_ascii rt.lower_ascii h

/-- Not empty and without white space around it. -/
def IsName (s : String) : Prop := s ≠ "" ∧ s = strip s

instance : DecidablePred IsName := fun s => inferInstanceAs (Decidable (s ≠ "" ∧ s = strip s))

lemma sliceTo_ne_empty {s : String} {n : ℕ} (h : s ≠ "") (hn : 0 < n) : sliceTo s n ≠ "" := by
  intro hempty
  have hlist : s.toList.take n = [] := by simpa [sliceTo] using hempty
  rcases List.take_eq_nil_iff.mp hlist with hn' | hs
  · omega
  · exact h (by simpa using hs)

lemma replaceChar_of_notMem {c : Char} {text s : String} (h : c ∉ s.toList) :
    replaceChar c text s = s := by
  have hsame : ∀ cs : List Char, c ∉ cs →
      cs.flatMap (fun d => if d = c then text.toList else [d]) = cs := by
    intro cs hcs
    induction cs with
    | nil => rfl
    | cons d cs ih =>
      obtain ⟨hd, hrest⟩ := not_or.mp (List.mem_cons.not.mp hcs)
      rw [List.flatMap_cons, if_neg (Ne.symm hd), ih hrest, List.singleton_append]
  unfold replaceChar
  rw [hsame _ h, String.ofList_toList]

/-! ### Stripping -/

lemma isSpace_of_isDigit {c : Char} (h : c.isDigit = true) : isSpace c = false := by
  have hdigit : 48 ≤ c.toNat ∧ c.toNat ≤ 57 := by
    simpa [Char.isDigit, UInt32.le_iff_toNat_le] using h
  have hspaces : ∀ n ∈ [0x09, 0x0A, 0x0B, 0x0C, 0x0D, 0x1C, 0x1D, 0x1E, 0x1F, 0x20, 0x85, 0xA0,
      0x1680, 0x2000, 0x2001, 0x2002, 0x2003, 0x2004, 0x2005, 0x2006, 0x2007, 0x2008, 0x2009,
      0x200A, 0x2028, 0x2029, 0x202F, 0x205F, 0x3000], ¬ (48 ≤ n ∧ n ≤ 57) := by decide
  exact decide_eq_false fun hmem => hspaces _ hmem hdigit

/-- A text that begins and ends with other characters than white space stays. -/
lemma strip_eq_self {s : String} (hhead : ∀ c ∈ s.toList.head?, isSpace c = false)
    (hlast : ∀ c ∈ s.toList.getLast?, isSpace c = false) : strip s = s := by
  have hdrop : ∀ l : List Char, (∀ c ∈ l.head?, isSpace c = false) → l.dropWhile isSpace = l := by
    intro l hl
    cases l with
    | nil => rfl
    | cons c l => exact List.dropWhile_cons_of_neg (by simp [hl c (by simp)])
  unfold strip
  rw [hdrop _ hhead, hdrop _ (by simpa using hlast)]
  simp

/-- What is left of a text is a prefix of what is left when only its start is stripped. -/
lemma toList_strip_prefix (s : String) : (strip s).toList <+: s.toList.dropWhile isSpace := by
  have hsuffix := List.dropWhile_suffix (l := (s.toList.dropWhile isSpace).reverse) isSpace
  simpa [strip] using List.reverse_prefix.mpr hsuffix

/-- What is left of a text has no white space around it. -/
@[simp] lemma strip_strip (s : String) : strip (strip s) = strip s := by
  have hdropped : ∀ l : List Char, ∀ c ∈ (l.dropWhile isSpace).head?, isSpace c = false := by
    intro l c hc
    have hhead := List.head?_dropWhile_not isSpace l
    rw [Option.mem_def.mp hc] at hhead
    exact hhead
  apply strip_eq_self
  · intro c hc
    obtain ⟨rest, hrest⟩ := toList_strip_prefix s
    refine hdropped s.toList c ?_
    rw [← hrest, List.head?_append, Option.mem_def.mp hc]
    rfl
  · intro c hc
    refine hdropped (s.toList.dropWhile isSpace).reverse c ?_
    simpa [strip] using hc

/-! ### Splitting and joining -/

/-- A text is what stands before its first separator, the separator and what stands after it. -/
lemma toList_eq_parts {sep : Char} {s : String} (h : sep ∈ s.toList) :
    s.toList = (beforeFirst sep s).toList ++ sep :: (afterFirst sep s).toList := by
  obtain ⟨xs, ys, hs, hxs⟩ := List.eq_append_cons_of_mem h
  have hall : ∀ c ∈ xs, (c != sep) = true := by
    intro c hc
    exact bne_iff_ne.mpr fun heq => hxs (heq ▸ hc)
  simp [beforeFirst, afterFirst, hs, List.takeWhile_append_of_pos hall,
    List.dropWhile_append_of_pos hall]

lemma splitOnP_forall {p : Char → Bool} (cs : List Char) :
    ∀ part ∈ cs.splitOnP p, ∀ c ∈ part, p c = false := by
  induction cs with
  | nil => simp
  | cons c cs ih =>
    rw [List.splitOnP_cons_eq_if_modifyHead]
    obtain ⟨part, parts, hparts⟩ := List.exists_cons_of_ne_nil (List.splitOnP_ne_nil p cs)
    rw [hparts] at ih ⊢
    split
    · rintro q (_ | ⟨_, hq⟩)
      · simp
      · exact ih q hq
    · rename_i hc
      rintro q hq d hd
      rcases List.mem_cons.mp hq with rfl | hq
      · rcases List.mem_cons.mp hd with rfl | hd
        · simpa using hc
        · exact ih part List.mem_cons_self d hd
      · exact ih q (List.mem_cons_of_mem _ hq) d hd

/-- What a text is split into are words. -/
lemma isWord_of_mem_strSplit {s w : String} (h : w ∈ strSplit s) : IsWord w := by
  obtain ⟨cs, hcs, rfl⟩ := List.mem_map.mp h
  obtain ⟨hmem, hne⟩ := List.mem_filter.mp hcs
  refine ⟨fun hempty => ?_, fun c hc => ?_⟩
  · have hnil : cs = [] := by simpa using hempty
    simp [hnil] at hne
  · exact splitOnP_forall _ cs hmem c (by simpa using hc)

lemma sep_notMem_of_mem_splitOn {sep : Char} {s part : String} (h : part ∈ splitOn sep s) :
    sep ∉ part.toList := by
  obtain ⟨cs, hcs, rfl⟩ := List.mem_map.mp h
  intro hmem
  have hfalse := splitOnP_forall s.toList cs hcs sep (by simpa using hmem)
  simp at hfalse

/-- The parts of a text are made of its characters. -/
lemma mem_of_mem_splitOn {sep : Char} {s part : String} (h : part ∈ splitOn sep s) {c : Char}
    (hc : c ∈ part.toList) : c ∈ s.toList := by
  obtain ⟨cs, hcs, rfl⟩ := List.mem_map.mp h
  rw [String.toList_ofList] at hc
  rw [← @List.intercalate_splitOn Char s.toList _ _ sep]
  generalize s.toList.splitOn sep = parts at hcs
  induction parts with
  | nil => simp at hcs
  | cons part parts ih =>
    cases parts with
    | nil =>
      obtain rfl := List.mem_singleton.mp hcs
      simpa using hc
    | cons next parts =>
      rw [List.intercalate_cons_cons]
      rcases List.mem_cons.mp hcs with rfl | hcs
      · exact List.mem_append_left _ (List.mem_append_left _ hc)
      · exact List.mem_append_right _ (ih hcs)

/-- Parts that are joined by a character they do not hold are split again. -/
lemma splitOn_intercalate {sep : Char} {parts : List String} (hne : parts ≠ [])
    (h : ∀ part ∈ parts, sep ∉ part.toList) :
    splitOn sep (String.ofList ([sep].intercalate (parts.map String.toList))) = parts := by
  unfold splitOn
  rw [String.toList_ofList, List.splitOn_intercalate sep (by simpa using h) (by simpa using hne),
    List.map_map]
  simp [Function.comp_def]

/-- Words that are joined are split into the same words. -/
theorem strSplit_joinWords {words : List String} (h : ∀ w ∈ words, IsWord w) :
    strSplit (joinWords words) = words := by
  have hsplit : ∀ w ∈ words, w.toList.isEmpty = false := fun w hw => by
    simpa using (h w hw).1
  unfold strSplit joinWords
  rw [String.toList_ofList]
  induction words with
  | nil => rfl
  | cons w words ih =>
    have hw := h w List.mem_cons_self
    have hrest := ih (fun v hv => h v (List.mem_cons_of_mem _ hv))
      (fun v hv => hsplit v (List.mem_cons_of_mem _ hv))
    cases words with
    | nil =>
      simp only [List.map_cons, List.map_nil, List.intercalate_singleton]
      rw [List.splitOnP_eq_singleton hw.2]
      simp [hsplit w List.mem_cons_self]
    | cons v words =>
      simp only [List.map_cons] at hrest ⊢
      rw [List.intercalate_cons_cons, List.append_assoc, List.singleton_append,
        List.splitOnP_append_cons_of_forall_mem hw.2 ' ' (by decide), List.filter_cons,
        if_pos (by simp [hsplit w List.mem_cons_self]), List.map_cons, hrest,
        String.ofList_toList]

/-- A text put together from words has no white space around it. -/
theorem strip_joinWords {words : List String} (h : ∀ w ∈ words, IsWord w) :
    strip (joinWords words) = joinWords words := by
  apply strip_eq_self
  · unfold joinWords
    rw [String.toList_ofList]
    cases words with
    | nil => simp
    | cons w words =>
      have hw := h w List.mem_cons_self
      obtain ⟨c, cs, hcs⟩ := List.exists_cons_of_ne_nil
        (show w.toList ≠ [] by simpa using hw.1)
      have hc : isSpace c = false := hw.2 c (by rw [hcs]; exact List.mem_cons_self)
      cases words <;> simp [List.intercalate_cons_cons, hcs, hc]
  · unfold joinWords
    rw [String.toList_ofList]
    induction words with
    | nil => simp
    | cons w words ih =>
      cases words with
      | nil =>
        intro c hc
        rw [List.map_cons, List.map_nil, List.intercalate_singleton] at hc
        exact (h w List.mem_cons_self).2 c (List.mem_of_getLast? hc)
      | cons v words =>
        intro c hc
        have hv := h v (List.mem_cons_of_mem _ List.mem_cons_self)
        have hne : [' '].intercalate ((v :: words).map String.toList) ≠ [] := by
          cases words <;> simp [List.intercalate_cons_cons, hv.1]
        rw [List.map_cons, List.map_cons, List.intercalate_cons_cons, ← List.map_cons,
          List.getLast?_append_of_ne_nil _ hne] at hc
        exact ih (fun u hu => h u (List.mem_cons_of_mem _ hu)) c hc

/-! ### White space -/

/-- The pieces between white space that are not empty. -/
private def pieces (cs : List Char) : List (List Char) :=
  (cs.splitOnP isSpace).filter (!·.isEmpty)

private lemma pieces_dropWhile (cs : List Char) : pieces (cs.dropWhile isSpace) = pieces cs := by
  induction cs with
  | nil => rfl
  | cons c cs ih =>
    by_cases hc : isSpace c = true
    · have hsplit := List.splitOnP_append_cons [] cs hc
      rw [List.dropWhile_cons_of_pos hc, ih, pieces, pieces, ← List.nil_append (c :: cs), hsplit]
      rfl
    · rw [List.dropWhile_cons_of_neg hc]

private lemma pieces_append_of_isSpace (cs : List Char) {c : Char} (hc : isSpace c = true) :
    pieces (cs ++ [c]) = pieces cs := by
  rw [pieces, pieces, List.splitOnP_append_cons cs [] hc, List.filter_append]
  exact List.append_nil _

private lemma pieces_rdropWhile (cs : List Char) :
    pieces (cs.reverse.dropWhile isSpace).reverse = pieces cs := by
  induction hcs : cs.reverse generalizing cs with
  | nil => rw [List.reverse_eq_nil_iff.mp hcs]; rfl
  | cons c rest ih =>
    have hcs' : cs = rest.reverse ++ [c] := by
      rw [← List.reverse_reverse cs, hcs, List.reverse_cons]
    by_cases hc : isSpace c = true
    · rw [List.dropWhile_cons_of_pos hc, hcs', pieces_append_of_isSpace _ hc]
      exact ih rest.reverse (List.reverse_reverse rest)
    · rw [List.dropWhile_cons_of_neg hc, List.reverse_cons, hcs']

/-- `s.strip().split()` is `s.split()`. -/
lemma strSplit_strip (s : String) : strSplit (strip s) = strSplit s := by
  have h : pieces (strip s).toList = pieces s.toList := by
    rw [strip, String.toList_ofList, pieces_rdropWhile, pieces_dropWhile]
  exact congrArg (List.map String.ofList) h

/-- A part of a text without white space is its own `strip`. -/
lemma strip_of_mem_splitOn {w part : String} (hw : IsWord w) {sep : Char}
    (h : part ∈ splitOn sep w) : strip part = part :=
  strip_eq_self (fun c hc => hw.2 c (mem_of_mem_splitOn h (List.mem_of_mem_head? hc)))
    (fun c hc => hw.2 c (mem_of_mem_splitOn h (List.mem_of_mem_getLast? hc)))

lemma strip_of_isWord {w : String} (hw : IsWord w) : strip w = w :=
  strip_eq_self (fun c hc => hw.2 c (List.mem_of_mem_head? hc))
    (fun c hc => hw.2 c (List.mem_of_mem_getLast? hc))

end Trion.Python
