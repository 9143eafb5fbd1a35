import Mathlib.Data.List.DropRight
import Mathlib.Data.List.Infix
import Trion.Library.MarkerRemoval
import Trion.Llm.FilteredText
import Trion.Python.Value

/-!
# A whole text and its stream

`sanitize_reasoning_text` takes the blocks out of a whole text with a regular expression, and
after that what is left of the two tags in small letters.  The stream hides what follows a tag
that is not closed and lets stray tags through, so the two come to the same only for texts
without these.
-/

namespace Trion.Llm

open Trion.Python Markers

/-! ### The source -/

section Source

variable (t : LowerCase)

/-- A character that a letter stands for under `re.IGNORECASE`: one with the same lower case, and
for an `i` also the small one without a dot and the capital one with a dot. -/
def matchesCase (m c : Char) : Bool :=
  t.isCaseOf m c || m == 'i' && (t.char c == ['ı'] || c == 'İ')

/-- A tag of `_WHOLE_BLOCK_RE`. -/
def ignoreCase (marker : List Char) : List (Char → Bool) := marker.map (matchesCase t)

/-- `text.replace(marker, "")`. -/
def removeText (marker text : List Char) : List Char := removed (exactly marker) 0 text

/-- `text.strip()`. -/
def stripText (text : List Char) : List Char := (text.rdropWhile isSpace).dropWhile isSpace

/-- `sanitize_reasoning_text`. -/
def sanitizeReasoningText (text : List Char) : List Char :=
  if text = [] then []
  else
    let sanitized := withoutBlocks (ignoreCase t openTag) (ignoreCase t closeTag) 0 text
    stripText (removeText closeTag (removeText openTag sanitized))

end Source

/-! ### What is promised -/

section Promise

variable (t : LowerCase)

/-- The stream comes to the same as the whole text, however it is cut. -/
def AgreesAnyCut (text : List Char) : Prop :=
  ∀ chunks : List (List Char), chunks.flatten = text →
    stripText (sanitizeStream t {} chunks).flatten = sanitizeReasoningText t text

/-- The text from a tag on that opens a block and is not closed. -/
def unclosedRest (text : List Char) : List Char :=
  unclosed (t.anyCase openTag) (t.anyCase closeTag) 0 text

/-- The blocks of the regular expression are those of the stream: no tag is displaced in it, and
the same symbols stand between closed tags. -/
structure ReadsAlike (text : List Char) : Prop where
  placed : undisplaced t .shown false 0 text = true
  blocks : inBlocks (ignoreCase t openTag) (ignoreCase t closeTag) 0 text =
    inBlocks (t.anyCase openTag) (t.anyCase closeTag) 0 text

/-- No tag is left of the text: none in small letters is shown, it does not end in a part of an
opening one, and a block that is not closed has nothing but opening ones and white space. -/
structure LeavesNoTag (text : List Char) : Prop where
  opening : findText openTag (withoutReasoning t text) = none
  closing : findText closeTag (withoutReasoning t text) = none
  whole : ¬EndsInPart t text
  rest : ∀ c ∈ removeText openTag (unclosedRest t text), isSpace c = true

end Promise

/-! ### White space -/

section Space

variable {cs ds : List Char}

/-- The characters that are no white space. -/
abbrev isSolid (c : Char) : Bool := !isSpace c

lemma stripText_append (h : ∀ c ∈ ds, isSpace c = true) :
    stripText (cs ++ ds) = stripText cs := by
  unfold stripText List.rdropWhile
  rw [List.reverse_append, List.dropWhile_append_of_pos fun c hc => h c (List.mem_reverse.mp hc)]

lemma countP_dropWhile : (cs.dropWhile isSpace).countP isSolid = cs.countP isSolid := by
  have hzero : (cs.takeWhile isSpace).countP isSolid = 0 :=
    List.countP_eq_zero.mpr fun c hc => by simp [List.mem_takeWhile_imp hc]
  have hsplit := congrArg (List.countP isSolid) (List.takeWhile_append_dropWhile (p := isSpace)
    (l := cs))
  rwa [List.countP_append, hzero, Nat.zero_add] at hsplit

lemma countP_stripText : (stripText cs).countP isSolid = cs.countP isSolid := by
  unfold stripText List.rdropWhile
  rw [countP_dropWhile, List.countP_reverse, countP_dropWhile, List.countP_reverse]

lemma isSolid_of_mem_tagText {m : Mode} {c : Char} (h : c ∈ tagText m) : isSolid c = true := by
  have hall : (tagText m).all isSolid = true := by cases m <;> decide
  exact List.all_eq_true.mp hall c h

/-- No white space belongs to a tag in small letters. -/
lemma not_exactly_of_isSpace {m : Mode} {p : Char → Bool} {c : Char} (h : isSpace c = true)
    (hp : p ∈ exactly (tagText m)) : p c = false := by
  obtain ⟨d, hd, rfl⟩ := List.mem_map.mp hp
  refine beq_false_of_ne ?_
  rintro rfl
  exact absurd (isSolid_of_mem_tagText hd) (by simp [h])

lemma isSolid_of_exactly {m : Mode} {p : Char → Bool} {c : Char} (hp : p ∈ exactly (tagText m))
    (h : p c = true) : isSolid c = true := by
  rcases hspace : isSpace c with _ | _
  · simp [hspace]
  · exact absurd h (by simp [not_exactly_of_isSpace hspace hp])

end Space

/-! ### What is left of the tags -/

section Left

variable {t : LowerCase} {text cs ds : List Char} {m : Mode}

lemma exactly_ne_nil : exactly (tagText m) ≠ [] := fun h =>
  tagText_ne_nil (List.map_eq_nil_iff.mp h)

/-- With the blocks in the same places, they leave what is shown and what is not closed. -/
lemma withoutBlocks_ignoreCase (h : ReadsAlike t text) :
    withoutBlocks (ignoreCase t openTag) (ignoreCase t closeTag) 0 text =
      withoutReasoning t text ++ unclosedRest t text := by
  rw [withoutBlocks_eq_unmarked, h.blocks, ← withoutBlocks_eq_unmarked]
  exact withoutBlocks_eq open_ne_nil close_ne_nil

/-- No opening tag in small letters begins in what is shown and ends in what is not closed. -/
lemma not_begins_across (h : find (exactly openTag) cs = none) {us : List Char} (hus : us <:+ cs)
    (hne : us ≠ []) (hds : ds ≠ [] → begins (t.anyCase openTag) ds = true) :
    begins (exactly openTag) (us ++ ds) = false := by
  rcases hb : begins (exactly openTag) (us ++ ds) with _ | _
  · rfl
  rcases begins_or_isPart hb with hfirst | hpart
  · have hnone := not_begins_of_find (exactly_ne_nil (m := .shown)) (find_suffix h hus)
    exact absurd hfirst (by simp [show openTag = tagText .shown from rfl, hnone])
  · simp only [isPart, Bool.and_eq_true, decide_eq_true_eq, length_exactly] at hpart
    have hdrop := begins_drop hb
    rw [exactly, ← List.map_drop, ← exactly, begins_exactly] at hdrop
    have hpos : 0 < us.length := List.length_pos_iff.mpr hne
    obtain ⟨d, hd⟩ : ∃ d, (openTag.drop us.length).head? = some d := by
      rw [List.head?_drop, List.getElem?_eq_getElem hpart.1]
      exact ⟨_, rfl⟩
    cases ds with
    | nil =>
      have hempty : openTag.drop us.length = [] := by simpa using hdrop
      rw [hempty] at hd
      cases hd
    | cons c ds =>
      -- the first symbol of an opening tag would be one of its others
      have hc : t.char c = ['<'] := by
        have hcase := hds (List.cons_ne_nil _ _)
        rw [openTag_eq] at hcase
        simp only [LowerCase.anyCase, List.map_cons, begins, Bool.and_eq_true] at hcase
        simpa [LowerCase.isCaseOf] using hcase.1
      have hdc : d = c := by
        cases hlist : openTag.drop us.length with
        | nil =>
          rw [hlist] at hd
          cases hd
        | cons e es =>
          rw [hlist] at hd hdrop
          obtain rfl : e = d := Option.some.inj hd
          simp only [List.isPrefixOf_cons_cons, Bool.and_eq_true, beq_iff_eq] at hdrop
          exact hdrop.1
      have hmem : d ∈ openTag.drop 1 := by
        have hin := List.mem_of_mem_head? hd
        rw [show us.length = 1 + (us.length - 1) by omega, ← List.drop_drop] at hin
        exact List.mem_of_mem_drop hin
      have htable : (openTag.drop 1).all fun d => IsAscii d ∧ d.toLower ≠ '<' := by decide
      obtain ⟨hascii, hlower⟩ := of_decide_eq_true (List.all_eq_true.mp htable d hmem)
      have hchar := t.char_ascii c (hdc ▸ hascii)
      rw [hc] at hchar
      exact absurd (List.cons.inj hchar).1.symm (hdc ▸ hlower)

lemma sanitizeReasoningText_eq (h : ReadsAlike t text) :
    sanitizeReasoningText t text = stripText (removeText closeTag (removeText openTag
      (withoutReasoning t text ++ unclosedRest t text))) := by
  rw [← withoutBlocks_ignoreCase h]
  unfold sanitizeReasoningText
  split
  · rename_i hempty
    subst hempty
    rfl
  · rfl

/-- What is shown is all that is left, up to white space. -/
lemma sanitizeReasoningText_of_leavesNoTag (hreads : ReadsAlike t text)
    (h : LeavesNoTag t text) :
    sanitizeReasoningText t text = stripText (withoutReasoning t text) := by
  have hopening : find (exactly openTag) (withoutReasoning t text) = none := by
    rw [← findText_eq_find (by decide)]
    exact h.opening
  have hclosing : find (exactly closeTag) (withoutReasoning t text) = none := by
    rw [← findText_eq_find (by decide)]
    exact h.closing
  have hopen : removeText openTag (withoutReasoning t text ++ unclosedRest t text) =
      withoutReasoning t text ++ removeText openTag (unclosedRest t text) :=
    removed_append fun us hus hne => not_begins_across hopening hus hne begins_unclosed
  have hclose : removeText closeTag
      (withoutReasoning t text ++ removeText openTag (unclosedRest t text)) =
        withoutReasoning t text ++ removeText openTag (unclosedRest t text) := by
    refine removed_eq_self (find_append_of_forall (exactly_ne_nil (m := .hidden)) hclosing ?_)
    intro d hd p hp
    exact not_exactly_of_isSpace (m := .hidden) (h.rest d hd) hp
  rw [sanitizeReasoningText_eq hreads, hopen, hclose, stripText_append h.rest]

end Left

/-! ### The end of a text -/

section End

variable {t : LowerCase} {text : List Char}

/-- The end that is kept back is shorter than the tag, and no white space. -/
lemma countP_endOf (hspace : ∀ c, isSpace c = true → t.char c = [c]) :
    (endOf t .shown text).countP isSolid = (endOf t .shown text).length ∧
      (endOf t .shown text).length < openTag.length := by
  have hpart : isPart (t.anyCase openTag) (endOf t .shown text) = true := isPart_openEnd open_ne_nil
  simp only [isPart, Bool.and_eq_true, decide_eq_true_eq, length_anyCase] at hpart
  refine ⟨List.countP_eq_length.mpr fun c hc => ?_, hpart.1⟩
  have htake : c ∈ (endOf t .shown text).take
      ((t.anyCase openTag).take (endOf t .shown text).length).length := by
    rw [List.length_take, length_anyCase, Nat.min_eq_left (Nat.le_of_lt hpart.1),
      List.take_length]
    exact hc
  obtain ⟨p, hp, hpc⟩ := exists_of_begins hpart.2 htake
  obtain ⟨d, hd, rfl⟩ := List.mem_map.mp (List.mem_of_mem_take hp)
  rcases hsolid : isSpace c with _ | _
  · simp [hsolid]
  · have hcase : t.char c = [d] := by simpa [LowerCase.isCaseOf] using hpc
    rw [hspace c hsolid] at hcase
    have hmem : d ∈ tagText .shown := hd
    exact absurd (isSolid_of_mem_tagText hmem) (by simp [← (List.cons.inj hcase).1, hsolid])

/-- A text whose blocks are closed and that comes to the same whole leaves no tag. -/
lemma leavesNoTag_of_agrees (hspace : ∀ c, isSpace c = true → t.char c = [c])
    (hreads : ReadsAlike t text) (hclosed : unclosedRest t text = [])
    (h : AgreesAnyCut t text) : LeavesNoTag t text := by
  have hsolid := h _ (flatten_singletons text)
  rw [sanitizeReasoningText_eq hreads, hclosed, List.append_nil] at hsolid
  have hcount := congrArg (List.countP isSolid) hsolid
  rw [countP_stripText, countP_stripText] at hcount
  have hon : (sanitizeStream t {} (text.map ([·]))).flatten ++ endOf t .shown text =
      withoutReasoning t text := sanitizeStream_singletons (s := {}) (isPart_nil tag_ne_nil)
  have hparts := congrArg (List.countP isSolid) hon
  obtain ⟨hend, hshort⟩ := @countP_endOf _ text hspace
  rw [List.countP_append, hcount, hend] at hparts
  -- a tag that is taken out has more symbols than the end that is kept back
  have hmore : ∀ m (cs : List Char), find (exactly (tagText m)) cs = none ∨
      (removeText (tagText m) cs).countP isSolid + openTag.length ≤ cs.countP isSolid := by
    intro m cs
    rcases find_eq_none_or_countP exactly_ne_nil fun p hp c => isSolid_of_exactly (m := m) hp
      with hnone | hless
    · exact .inl hnone
    · refine .inr (Nat.le_trans (Nat.add_le_add_left ?_ _) hless)
      rw [length_exactly]
      cases m <;> decide
  have hopen : find (exactly openTag) (withoutReasoning t text) = none := by
    rcases hmore .shown (withoutReasoning t text) with hnone | hless
    · exact hnone
    · have hle : (removeText closeTag (removeText openTag (withoutReasoning t text))).countP
          isSolid ≤ (removeText openTag (withoutReasoning t text)).countP isSolid :=
        countP_removed_le
      have hless : (removeText openTag (withoutReasoning t text)).countP isSolid +
        openTag.length ≤ (withoutReasoning t text).countP isSolid := hless
      omega
  have hkept : removeText openTag (withoutReasoning t text) = withoutReasoning t text :=
    removed_eq_self hopen
  rw [hkept] at hparts
  have hclose : find (exactly closeTag) (withoutReasoning t text) = none := by
    rcases hmore .hidden (withoutReasoning t text) with hnone | hless
    · exact hnone
    · have hless : (removeText closeTag (withoutReasoning t text)).countP isSolid +
        openTag.length ≤ (withoutReasoning t text).countP isSolid := hless
      omega
  have hkept' : removeText closeTag (withoutReasoning t text) = withoutReasoning t text :=
    removed_eq_self hclose
  rw [hkept'] at hparts
  refine ⟨?_, ?_, ?_, ?_⟩
  · rw [findText_eq_find (by decide)]
    exact hopen
  · rw [findText_eq_find (by decide)]
    exact hclose
  · exact fun hne => hne (List.length_eq_zero_iff.mp (by omega))
  · rw [hclosed]
    exact fun c hc => absurd hc List.not_mem_nil

end End

/-- The stream comes to the same as the whole text if it has the same blocks and leaves no tag; and
where it has the same blocks and all are closed, only then. -/
theorem agreesAnyCut_iff {t : LowerCase} (hspace : ∀ c, isSpace c = true → t.char c = [c])
    (text : List Char) :
    (ReadsAlike t text ∧ LeavesNoTag t text → AgreesAnyCut t text) ∧
      (ReadsAlike t text ∧ unclosedRest t text = [] →
        (AgreesAnyCut t text ↔ LeavesNoTag t text)) := by
  have henough : ReadsAlike t text → LeavesNoTag t text → AgreesAnyCut t text := by
    rintro hreads h chunks rfl
    have hstart : StreamingReasoningSanitizer.Pending t {} := isPart_nil tag_ne_nil
    have hon : (sanitizeStream t {} chunks).flatten ++ endOf t .shown chunks.flatten =
        withoutReasoning t chunks.flatten :=
      sanitizeStream_eq hstart (steady_of_undisplaced hstart hreads.placed)
    rw [not_not.mp h.whole, List.append_nil] at hon
    rw [hon, sanitizeReasoningText_of_leavesNoTag hreads h]
  exact ⟨fun h => henough h.1 h.2,
    fun h => ⟨leavesNoTag_of_agrees hspace h.1 h.2, henough h.1⟩⟩

lemma basic_space (c : Char) (h : isSpace c = true) : LowerCase.basic.char c = [c] := by
  have htable : ∀ n ∈ [0x09, 0x0A, 0x0B, 0x0C, 0x0D, 0x1C, 0x1D, 0x1E, 0x1F, 0x20, 0x85, 0xA0,
      0x1680, 0x2000, 0x2001, 0x2002, 0x2003, 0x2004, 0x2005, 0x2006, 0x2007, 0x2008, 0x2009,
      0x200A, 0x2028, 0x2029, 0x202F, 0x205F, 0x3000],
      LowerCase.basic.char (Char.ofNat n) = [Char.ofNat n] := by decide +kernel
  have hchar := htable c.toNat (of_decide_eq_true h)
  rwa [Char.ofNat_toNat] at hchar

/-- A text with a block and an answer. -/
theorem agreesAnyCut_answer :
    ReadsAlike .basic "<think>a</think> b".toList ∧
      LeavesNoTag .basic "<think>a</think> b".toList ∧
      AgreesAnyCut .basic "<think>a</think> b".toList := by
  have hreads : ReadsAlike .basic "<think>a</think> b".toList :=
    ⟨by decide +kernel, by decide +kernel⟩
  have hleaves : LeavesNoTag .basic "<think>a</think> b".toList :=
    ⟨by decide +kernel, by decide +kernel, fun hne => hne (by decide +kernel),
      List.all_eq_true.mp (by decide +kernel)⟩
  exact ⟨hreads, hleaves, (agreesAnyCut_iff basic_space _).1 ⟨hreads, hleaves⟩⟩

/-- A stray closing tag is shown by the stream, and taken out of the whole text. -/
theorem not_agreesAnyCut_stray :
    ¬∀ (t : LowerCase) (text : List Char), AgreesAnyCut t text := by
  intro h
  exact absurd (h .basic "a</think>b".toList ["a</think>b".toList] (by decide)) (by decide)

end Trion.Llm
