import Mathlib.Data.List.Basic
import Trion.Library.Markers

/-!
# Lower case, character by character

`str.lower` on texts as lists of characters.  Every character becomes one character, but for
the capital I with a dot above, which becomes two; and all become what they do regardless of
their neighbours, but for the capital sigma.  So a place in the lower case of a text is the
place in the text moved by the dotted capitals before it.
-/

namespace Trion.Python

open Markers

/-- The combining dot above. -/
def dotAbove : Char := Char.ofNat 0x307

/-- The characters of ASCII. -/
def IsAscii (c : Char) : Prop := c.toNat < 128

instance : DecidablePred IsAscii := fun c => inferInstanceAs (Decidable (c.toNat < 128))

/-- The table behind `str.lower`: what a character becomes, and what a capital sigma becomes
between the characters before it (the nearest first) and after it. -/
structure LowerCase where
  char : Char → List Char
  sigma : List Char → List Char → Char
  char_ascii (c : Char) : IsAscii c → char c = [c.toLower]
  char_dotted : char 'İ' = ['i', dotAbove]
  char_single (c : Char) : c ≠ 'İ' → ∃ d, char c = [d]
  char_sigma : char 'Σ' = ['σ']
  sigma_mem (before after : List Char) : sigma before after ∈ ['σ', 'ς']

/-- The table on the letters of ASCII and the two characters that are out of the ordinary. -/
def LowerCase.basic : LowerCase where
  char c :=
    if IsAscii c then [c.toLower] else if c = 'İ' then ['i', dotAbove]
    else if c = 'Σ' then ['σ'] else [c]
  sigma _ _ := 'σ'
  char_ascii c h := if_pos h
  char_dotted := by decide
  char_single c h := by
    by_cases hascii : IsAscii c
    · exact ⟨_, if_pos hascii⟩
    · by_cases hsigma : c = 'Σ'
      · exact ⟨'σ', by rw [hsigma]; decide⟩
      · exact ⟨c, by rw [if_neg hascii, if_neg h, if_neg hsigma]⟩
  char_sigma := by decide
  sigma_mem _ _ := List.mem_cons_self

namespace LowerCase

variable (t : LowerCase)

/-- What a character becomes between the characters before it and after it. -/
def lowerAt (before : List Char) (c : Char) (after : List Char) : List Char :=
  if c = 'Σ' then [t.sigma before after] else t.char c

/-- The lower case of the rest of a text, after the characters before it. -/
def lowerFrom : List Char → List Char → List Char
  | _, [] => []
  | before, c :: cs => t.lowerAt before c cs ++ lowerFrom (c :: before) cs

/-- `text.lower()`. -/
def lower (text : List Char) : List Char := t.lowerFrom [] text

/-- The character has `m` as its lower case. -/
def isCaseOf (m c : Char) : Bool := t.char c == [m]

/-- The marker in any letter case. -/
def anyCase (marker : List Char) : List (Char → Bool) := marker.map t.isCaseOf

end LowerCase

/-- How many dotted capitals there are. -/
def dottedCount (cs : List Char) : ℕ := cs.count 'İ'

/-- `text.find(marker)`. -/
def findText (marker : List Char) : List Char → Option ℕ
  | [] => if marker = [] then some 0 else none
  | c :: cs =>
    if marker.isPrefixOf (c :: cs) then some 0 else (findText marker cs).map (· + 1)

/-- Characters that lower to themselves. -/
def IsLowerAscii (marker : List Char) : Prop := ∀ m ∈ marker, IsAscii m ∧ m.toLower = m

instance : DecidablePred IsLowerAscii := fun marker =>
  List.decidableBAll (fun m => IsAscii m ∧ m.toLower = m) marker

section Laws

variable {t : LowerCase} {before cs marker : List Char} {c m : Char}

@[simp] lemma length_anyCase : (t.anyCase marker).length = marker.length := List.length_map _

lemma isAscii_ne_dotAbove (h : IsAscii m) : m ≠ dotAbove := by
  rintro rfl
  exact absurd h (by decide)

/-- No character of ASCII is the lower case of a sigma. -/
lemma sigma_ne (h : IsAscii m) : t.sigma before cs ≠ m := by
  intro heq
  have hmem := t.sigma_mem before cs
  simp only [List.mem_cons, List.not_mem_nil, or_false] at hmem
  rw [heq] at hmem
  rcases hmem with rfl | rfl
  · exact absurd h (by decide)
  · exact absurd h (by decide)

/-- The three kinds of characters. -/
lemma lowerAt_cases (t : LowerCase) (before : List Char) (c : Char) (cs : List Char) :
    (c = 'İ' ∧ t.lowerAt before c cs = ['i', dotAbove]) ∨
      c ≠ 'İ' ∧ ∃ d, t.lowerAt before c cs = [d] ∧
        ∀ m, IsAscii m → (t.isCaseOf m c = true ↔ d = m) := by
  unfold LowerCase.lowerAt LowerCase.isCaseOf
  by_cases hsigma : c = 'Σ'
  · refine .inr ⟨by rw [hsigma]; decide, t.sigma before cs, if_pos hsigma, fun m hm => ?_⟩
    rw [hsigma, t.char_sigma]
    have hne : 'σ' ≠ m := by
      rintro rfl
      exact absurd hm (by decide)
    simp [sigma_ne hm, hne]
  · rw [if_neg hsigma]
    by_cases hdot : c = 'İ'
    · exact .inl ⟨hdot, by rw [hdot, t.char_dotted]⟩
    · obtain ⟨d, hd⟩ := t.char_single c hdot
      exact .inr ⟨hdot, d, hd, fun m _ => by simp [hd]⟩

lemma isCaseOf_dotted : t.isCaseOf m 'İ' = false := by
  unfold LowerCase.isCaseOf
  rw [t.char_dotted]
  simp

/-- No dotted capital is part of a marker. -/
lemma ne_dotted_of_mem {p : Char → Bool} (hp : p ∈ t.anyCase marker) (hc : p c = true) :
    c ≠ 'İ' := by
  rintro rfl
  obtain ⟨m, -, rfl⟩ := List.mem_map.mp hp
  exact absurd hc (by simp [isCaseOf_dotted])

/-- A text in lower case ASCII stays as it is. -/
lemma lowerFrom_eq_self (h : IsLowerAscii cs) : t.lowerFrom before cs = cs := by
  induction cs generalizing before with
  | nil => rfl
  | cons c cs ih =>
    obtain ⟨hascii, hlower⟩ := h c List.mem_cons_self
    have hsigma : c ≠ 'Σ' := by
      rintro rfl
      exact absurd hascii (by decide)
    have hrest : t.lowerFrom (c :: before) cs = cs := ih fun m hm => h m (List.mem_cons_of_mem c hm)
    rw [LowerCase.lowerFrom, LowerCase.lowerAt, if_neg hsigma, t.char_ascii c hascii, hlower, hrest]
    rfl

lemma lower_eq_self (h : IsLowerAscii cs) : t.lower cs = cs := lowerFrom_eq_self h

/-- The lower case begins with a marker that does not end in `i` where the text begins with the
marker in some letter case. -/
lemma isPrefixOf_lowerFrom (hmarker : ∀ m ∈ marker, IsAscii m)
    (hlast : marker.getLast? ≠ some 'i') :
    marker.isPrefixOf (t.lowerFrom before cs) = begins (t.anyCase marker) cs := by
  induction marker generalizing before cs with
  | nil => simp [LowerCase.anyCase, begins]
  | cons m ms ih =>
    have hm := hmarker m List.mem_cons_self
    have hms : ∀ m' ∈ ms, IsAscii m' := fun m' h' => hmarker m' (List.mem_cons_of_mem m h')
    cases cs with
    | nil => rfl
    | cons c cs =>
      rw [LowerCase.lowerFrom]
      rcases lowerAt_cases t before c cs with ⟨rfl, hat⟩ | ⟨-, d, hat, hcase⟩
      · have hbegins : begins (t.anyCase (m :: ms)) ('İ' :: cs) = false := by
          simp [LowerCase.anyCase, begins, isCaseOf_dotted]
        rw [hat, hbegins]
        cases ms with
        | nil =>
          have hi : m ≠ 'i' := by simpa using hlast
          simp [List.isPrefixOf, hi]
        | cons m' ms =>
          have hne := isAscii_ne_dotAbove (hms m' List.mem_cons_self)
          simp [List.isPrefixOf, hne]
      · have hlast' : ms.getLast? ≠ some 'i' := by
          cases ms with
          | nil => simp
          | cons m' ms => simpa [List.getLast?_cons_cons] using hlast
        have hhead : (m == d) = t.isCaseOf m c := by
          rw [Bool.eq_iff_iff, hcase m hm, beq_iff_eq, eq_comm]
        rw [hat]
        simp only [List.singleton_append, List.isPrefixOf, LowerCase.anyCase, List.map_cons,
          begins, hhead]
        rw [ih hms hlast']
        rfl

/-- A marker is found in the lower case at its place in the text, moved by the dotted capitals
before it. -/
theorem findText_lowerFrom (hne : marker ≠ []) (hmarker : ∀ m ∈ marker, IsAscii m)
    (hlast : marker.getLast? ≠ some 'i') :
    findText marker (t.lowerFrom before cs) =
      (find (t.anyCase marker) cs).map fun j => j + dottedCount (cs.take j) := by
  induction cs generalizing before with
  | nil => simp [LowerCase.lowerFrom, findText, find, hne]
  | cons c cs ih =>
    have hpre : marker.isPrefixOf (t.lowerFrom before (c :: cs)) =
        begins (t.anyCase marker) (c :: cs) := isPrefixOf_lowerFrom hmarker hlast
    rw [find]
    rcases hb : begins (t.anyCase marker) (c :: cs) with _ | _
    · rw [hb] at hpre
      rw [LowerCase.lowerFrom] at hpre ⊢
      rcases lowerAt_cases t before c cs with ⟨rfl, hat⟩ | ⟨hdot, d, hat, -⟩
      · have hdotAbove :
            marker.isPrefixOf (dotAbove :: t.lowerFrom ('İ' :: before) cs) = false := by
          cases marker with
          | nil => exact absurd rfl hne
          | cons m ms =>
            have hm := isAscii_ne_dotAbove (hmarker m List.mem_cons_self)
            simp [List.isPrefixOf, hm]
        rw [hat] at hpre ⊢
        simp only [List.cons_append, List.nil_append] at hpre ⊢
        rw [findText, hpre, findText, hdotAbove, ih]
        simp [Function.comp_def, dottedCount, Nat.add_assoc, Nat.add_comm, Nat.add_left_comm]
      · rw [hat] at hpre ⊢
        simp only [List.cons_append, List.nil_append] at hpre ⊢
        rw [findText, hpre, ih]
        have hcount : ∀ j, dottedCount (c :: cs.take j) = dottedCount (cs.take j) := by
          intro j
          simp [dottedCount, hdot]
        simp [Function.comp_def, hcount, Nat.add_right_comm]
    · rw [hb] at hpre
      have hfound : findText marker (t.lowerFrom before (c :: cs)) = some 0 := by
        cases hlow : t.lowerFrom before (c :: cs) with
        | nil =>
          rw [hlow] at hpre
          cases marker with
          | nil => exact absurd rfl hne
          | cons m ms => cases hpre
        | cons d ds =>
          rw [hlow] at hpre
          simp [findText, hpre]
      simp [hfound, dottedCount]

/-- A text is found where it stands as a marker. -/
lemma findText_eq_find (hne : marker ≠ []) : findText marker cs = find (exactly marker) cs := by
  induction cs with
  | nil => simp [findText, find, hne]
  | cons c cs ih => rw [findText, find, begins_exactly, ih]

/-! ### The end of a text -/

/-- What lowers to an ASCII text is that text in some letter case. -/
lemma begins_of_lowerFrom_eq (hmarker : ∀ m ∈ marker, IsAscii m)
    (h : t.lowerFrom before cs = marker) :
    begins (t.anyCase marker) cs = true ∧ cs.length = marker.length := by
  induction cs generalizing before marker with
  | nil =>
    subst h
    exact ⟨rfl, rfl⟩
  | cons c cs ih =>
    rw [LowerCase.lowerFrom] at h
    rcases lowerAt_cases t before c cs with ⟨-, hat⟩ | ⟨-, d, hat, hcase⟩
    · rw [hat] at h
      have hmem : dotAbove ∈ marker := by simp [← h]
      exact absurd rfl (isAscii_ne_dotAbove (hmarker dotAbove hmem))
    · rw [hat] at h
      cases marker with
      | nil => simp at h
      | cons m ms =>
        simp only [List.cons_append, List.nil_append, List.cons.injEq] at h
        have hm := hmarker m List.mem_cons_self
        have hms : ∀ m' ∈ ms, IsAscii m' := fun m' h' => hmarker m' (List.mem_cons_of_mem m h')
        obtain ⟨hrest, hlen⟩ := ih hms h.2
        refine ⟨?_, by simp [hlen]⟩
        simp only [LowerCase.anyCase, List.map_cons, begins, Bool.and_eq_true]
        exact ⟨(hcase m hm).mpr h.1, hrest⟩

/-- An ASCII text in some letter case lowers to that text. -/
lemma lowerFrom_eq_of_begins (hmarker : ∀ m ∈ marker, IsAscii m)
    (h : begins (t.anyCase marker) cs = true) (hlen : cs.length = marker.length) :
    t.lowerFrom before cs = marker := by
  induction cs generalizing before marker with
  | nil => exact (List.length_eq_zero_iff.mp hlen.symm).symm
  | cons c cs ih =>
    cases marker with
    | nil => simp at hlen
    | cons m ms =>
      have hm := hmarker m List.mem_cons_self
      have hms : ∀ m' ∈ ms, IsAscii m' := fun m' h' => hmarker m' (List.mem_cons_of_mem m h')
      simp only [LowerCase.anyCase, List.map_cons, begins, Bool.and_eq_true] at h
      rw [LowerCase.lowerFrom, ih hms h.2 (by simpa using hlen)]
      rcases lowerAt_cases t before c cs with ⟨rfl, -⟩ | ⟨-, d, hat, hcase⟩
      · exact absurd h.1 (by simp [isCaseOf_dotted])
      · rw [hat, (hcase m hm).mp h.1]
        rfl

/-- An end of the lower case in ASCII is all of it, or an end of the lower case of the rest. -/
lemma suffix_lowerFrom_cons (hmarker : ∀ m ∈ marker, IsAscii m)
    (h : marker <:+ t.lowerFrom before (c :: cs)) :
    t.lowerFrom before (c :: cs) = marker ∨ marker <:+ t.lowerFrom (c :: before) cs := by
  rw [LowerCase.lowerFrom] at h ⊢
  rcases lowerAt_cases t before c cs with ⟨-, hat⟩ | ⟨-, d, hat, -⟩
  · rw [hat] at h ⊢
    rcases List.suffix_cons_iff.mp h with h | h
    · exact .inl h.symm
    · rcases List.suffix_cons_iff.mp h with h | h
      · exact absurd rfl (isAscii_ne_dotAbove (hmarker dotAbove (by simp [h])))
      · exact .inr h
  · rw [hat] at h ⊢
    rcases List.suffix_cons_iff.mp h with h | h
    · exact .inl h.symm
    · exact .inr h

/-- The lower case ends in an ASCII text where the text ends in it in some letter case. -/
theorem suffix_lowerFrom_iff (hne : marker ≠ []) (hmarker : ∀ m ∈ marker, IsAscii m) :
    marker <:+ t.lowerFrom before cs ↔
      ∃ ending, ending <:+ cs ∧ ending.length = marker.length ∧
        begins (t.anyCase marker) ending = true := by
  induction cs generalizing before with
  | nil =>
    rw [LowerCase.lowerFrom, List.suffix_nil]
    refine ⟨fun h => absurd h hne, ?_⟩
    rintro ⟨ending, hending, hlen, -⟩
    rw [List.suffix_nil.mp hending] at hlen
    exact List.length_eq_zero_iff.mp hlen.symm
  | cons c cs ih =>
    constructor
    · intro h
      rcases suffix_lowerFrom_cons hmarker h with h | h
      · obtain ⟨hb, hlen⟩ := begins_of_lowerFrom_eq hmarker h
        exact ⟨c :: cs, List.suffix_rfl, hlen, hb⟩
      · obtain ⟨ending, hending, hrest⟩ := ih.mp h
        exact ⟨ending, hending.trans (List.suffix_cons c cs), hrest⟩
    · rintro ⟨ending, hending, hlen, hb⟩
      rcases List.suffix_cons_iff.mp hending with rfl | hending
      · have hlow : t.lowerFrom before (c :: cs) = marker :=
          lowerFrom_eq_of_begins hmarker hb hlen
        exact hlow ▸ List.suffix_rfl
      · exact (ih.mpr ⟨ending, hending, hlen, hb⟩).trans (List.suffix_append _ _)

end Laws

end Trion.Python
