import Mathlib.Algebra.Order.Group.Int
import Mathlib.Algebra.Order.Ring.Nat
import Mathlib.Data.List.Induction
import Mathlib.Data.List.TakeWhile
import Trion.Library.JsonStrings

/-!
# JSON scalars

Numbers and the words `null`, `true`, `false`, `NaN`, `Infinity` and `-Infinity`, as `json` reads
and writes them.  Floating point numbers are a parameter: a type with a way of reading and of
writing its values.  Integers are refused beyond a number of digits.
-/

namespace JsonText

/-! ### Digits -/

def isDigit (c : ℕ) : Bool := decide (48 ≤ c ∧ c ≤ 57)

/-- The number that digits stand for. -/
def decimalValue (ds : Text) : ℕ := ds.foldl (fun n c => 10 * n + (c - 48)) 0

/-- The digits of a number. -/
def natText (n : ℕ) : Text := (Nat.toDigits 10 n).map Char.toNat

lemma decimalValue_natText (n : ℕ) : decimalValue (natText n) = n := by
  have h := Nat.ofDigitChars_ten_toDigits (n := n)
  rw [Nat.ofDigitChars_eq_foldl] at h
  rw [decimalValue, natText, List.foldl_map]
  exact h

lemma isDigit_of_mem_natText {n c : ℕ} (h : c ∈ natText n) : isDigit c = true := by
  obtain ⟨d, hd, rfl⟩ := List.mem_map.mp h
  have hdigit := Nat.isDigit_of_mem_toDigits (by decide) (by decide) hd
  rw [Char.isDigit, Bool.and_eq_true, decide_eq_true_iff, decide_eq_true_iff] at hdigit
  exact decide_eq_true ⟨hdigit.1, hdigit.2⟩

/-- The digits of a number that is not zero do not begin with a zero. -/
lemma exists_natText_cons {n : ℕ} (h : n ≠ 0) :
    ∃ c cs, natText n = c :: cs ∧ c ≠ 48 ∧ isDigit c = true := by
  induction n using Nat.strong_induction_on with
  | _ n ih =>
    by_cases hsmall : n < 10
    · refine ⟨n.digitChar.toNat, [], ?_, ?_⟩
      · rw [natText, Nat.toDigits_of_lt_base hsmall]
        rfl
      · interval_cases n <;> first | exact absurd rfl h | decide
    · obtain ⟨c, cs, hcs, hc⟩ := ih (n / 10) (by omega) (by omega)
      refine ⟨c, cs ++ [(n % 10).digitChar.toNat], ?_, hc⟩
      rw [natText, Nat.toDigits_of_base_le (by decide) (by omega), List.map_append]
      exact congrArg (· ++ _) hcs

lemma decimalValue_lt {ds : Text} (h : ∀ c ∈ ds, isDigit c = true) :
    decimalValue ds < 10 ^ ds.length := by
  induction ds using List.reverseRecOn with
  | nil => decide
  | append_singleton ds c ih =>
    have hds := ih fun d hd => h d (List.mem_append_left _ hd)
    have hc : 48 ≤ c ∧ c ≤ 57 := of_decide_eq_true (h c (by simp))
    have hstep : decimalValue (ds ++ [c]) = 10 * decimalValue ds + (c - 48) := by
      simp [decimalValue]
    rw [hstep, List.length_append, List.length_singleton, pow_succ]
    omega

/-- The number of digits is no more than it was read from. -/
lemma length_natText_decimalValue_le {ds : Text} (h : ∀ c ∈ ds, isDigit c = true) (hne : ds ≠ []) :
    (natText (decimalValue ds)).length ≤ ds.length := by
  rw [natText, List.length_map, Nat.length_toDigits_le_iff (by decide)
    (List.length_pos_iff.mpr hne)]
  exact decimalValue_lt h

/-! ### Numbers -/

/-- A number as it is written: a sign, digits, and a fraction and an exponent, which may be
missing. -/
structure NumberToken where
  negative : Bool
  digits : Text
  fraction : Text

/-- The digits before the fraction; no further digit may follow a leading zero. -/
def readIntegerPart : Text → Option (Text × Text)
  | [] => none
  | c :: cs =>
    if c = 48 then some ([48], cs)
    else if isDigit c then some (c :: cs.takeWhile isDigit, cs.dropWhile isDigit)
    else none

/-- A point and digits. -/
def readPoint : Text → Text × Text
  | [] => ([], [])
  | c :: cs =>
    if c = 46 ∧ cs.takeWhile isDigit ≠ [] then
      (c :: cs.takeWhile isDigit, cs.dropWhile isDigit)
    else ([], c :: cs)

/-- A sign, which may be missing. -/
def readSign : Text → Text × Text
  | [] => ([], [])
  | c :: cs => if c = 43 ∨ c = 45 then ([c], cs) else ([], c :: cs)

/-- An `e` and digits with or without a sign. -/
def readExponent : Text → Text × Text
  | [] => ([], [])
  | c :: cs =>
    if (c = 101 ∨ c = 69) ∧ (readSign cs).2.takeWhile isDigit ≠ [] then
      (c :: ((readSign cs).1 ++ (readSign cs).2.takeWhile isDigit),
        (readSign cs).2.dropWhile isDigit)
    else ([], c :: cs)

/-- `(-?(?:0|[1-9]\d*))(\.\d+)?([eE][-+]?\d+)?` at the beginning of a text. -/
def readNumber (cs : Text) : Option (NumberToken × Text) := do
  let negative := cs.head? == some 45
  let (digits, rest) ← readIntegerPart (if negative then cs.tail else cs)
  let (point, rest) := readPoint rest
  let (exponent, rest) := readExponent rest
  return (⟨negative, digits, point ++ exponent⟩, rest)

/-- A text that does not continue the number before it. -/
def EndsNumber (rest : Text) : Prop :=
  ∀ c ∈ rest.head?, isDigit c = false ∧ c ≠ 46 ∧ c ≠ 101 ∧ c ≠ 69

lemma endsNumber_nil : EndsNumber [] := by simp [EndsNumber]

lemma endsNumber_cons {c : ℕ} {cs : Text} (h : isDigit c = false ∧ c ≠ 46 ∧ c ≠ 101 ∧ c ≠ 69) :
    EndsNumber (c :: cs) := by
  simpa [EndsNumber] using h

lemma readPoint_of_endsNumber {rest : Text} (h : EndsNumber rest) : readPoint rest = ([], rest) := by
  cases rest with
  | nil => rfl
  | cons c cs => exact if_neg fun hc => (h c rfl).2.1 hc.1

lemma readExponent_of_endsNumber {rest : Text} (h : EndsNumber rest) :
    readExponent rest = ([], rest) := by
  cases rest with
  | nil => rfl
  | cons c cs =>
    exact if_neg fun hc => hc.1.elim (h c rfl).2.2.1 (h c rfl).2.2.2

/-- The digits in front of a text that does not begin with one. -/
lemma takeWhile_digits {ds rest : Text} (hds : ∀ c ∈ ds, isDigit c = true)
    (hrest : ∀ c ∈ rest.head?, isDigit c = false) :
    (ds ++ rest).takeWhile isDigit = ds ∧ (ds ++ rest).dropWhile isDigit = rest := by
  have hhead : rest.takeWhile isDigit = [] ∧ rest.dropWhile isDigit = rest := by
    cases rest with
    | nil => exact ⟨rfl, rfl⟩
    | cons c cs => simp [hrest c rfl]
  rw [List.takeWhile_append_of_pos hds, List.dropWhile_append_of_pos hds, hhead.1, hhead.2]
  simp

lemma readIntegerPart_natText (n : ℕ) {rest : Text} (h : EndsNumber rest) :
    readIntegerPart (natText n ++ rest) = some (natText n, rest) := by
  by_cases hn : n = 0
  · subst hn
    rfl
  · obtain ⟨c, cs, hcs, hzero, hdigit⟩ := exists_natText_cons hn
    have htail : ∀ d ∈ cs, isDigit d = true := fun d hd =>
      isDigit_of_mem_natText (hcs ▸ List.mem_cons_of_mem c hd)
    obtain ⟨htake, hdrop⟩ := takeWhile_digits htail fun d hd => (h d hd).1
    rw [hcs, List.cons_append, readIntegerPart, if_neg hzero, if_pos hdigit, htake, hdrop]

lemma head?_natText_ne (n : ℕ) (rest : Text) : (natText n ++ rest).head? ≠ some 45 := by
  intro h
  have hmem : 45 ∈ natText n := by
    cases htext : natText n with
    | nil =>
      have hlength := Nat.length_toDigits_pos (b := 10) (n := n)
      rw [natText, List.map_eq_nil_iff] at htext
      simp [htext] at hlength
    | cons c cs =>
      rw [htext] at h
      obtain rfl := Option.some.inj h
      exact List.mem_cons_self
  exact absurd (isDigit_of_mem_natText hmem) (by decide)

/-- The text of an integer. -/
def intText (n : ℤ) : Text := if n < 0 then 45 :: natText n.natAbs else natText n.natAbs

lemma readNumber_intText (n : ℤ) {rest : Text} (h : EndsNumber rest) :
    readNumber (intText n ++ rest) = some (⟨decide (n < 0), natText n.natAbs, []⟩, rest) := by
  by_cases hn : n < 0
  · rw [intText, if_pos hn, readNumber]
    simp [readIntegerPart_natText _ h, readPoint_of_endsNumber h, readExponent_of_endsNumber h, hn]
  · have hsign : ((natText n.natAbs ++ rest).head? == some 45) = false :=
      beq_eq_false_iff_ne.mpr (head?_natText_ne _ _)
    rw [intText, if_neg hn, readNumber, hsign]
    simp [readIntegerPart_natText _ h, readPoint_of_endsNumber h, readExponent_of_endsNumber h, hn]

/-- The digits of a number are digits. -/
lemma readIntegerPart_spec {cs digits rest : Text} (h : readIntegerPart cs = some (digits, rest)) :
    digits ≠ [] ∧ ∀ c ∈ digits, isDigit c = true := by
  cases cs with
  | nil => exact absurd h (by simp [readIntegerPart])
  | cons c cs =>
    rw [readIntegerPart] at h
    split at h
    · obtain ⟨rfl, rfl⟩ := Prod.mk.inj (Option.some.inj h)
      exact ⟨by simp, by decide⟩
    · split at h
      · rename_i hdigit
        obtain ⟨rfl, rfl⟩ := Prod.mk.inj (Option.some.inj h)
        refine ⟨by simp, fun d hd => ?_⟩
        rcases List.mem_cons.mp hd with rfl | hmem
        · exact hdigit
        · exact List.mem_takeWhile_imp hmem
      · exact absurd h (by simp)

/-- A number begins with a sign or a digit. -/
lemma readNumber_spec {cs rest : Text} {token : NumberToken}
    (h : readNumber cs = some (token, rest)) :
    (∃ c cs', cs = c :: cs' ∧ (c = 45 ∨ isDigit c = true)) ∧ token.digits ≠ [] ∧
      ∀ c ∈ token.digits, isDigit c = true := by
  obtain ⟨⟨digits, left⟩, hint, heq⟩ := Option.bind_eq_some_iff.mp h
  obtain ⟨rfl, rfl⟩ := Prod.mk.inj (Option.some.inj heq)
  refine ⟨?_, readIntegerPart_spec hint⟩
  cases cs with
  | nil => exact absurd hint (by simp [readIntegerPart])
  | cons c cs =>
    refine ⟨c, cs, rfl, ?_⟩
    by_cases hminus : c = 45
    · exact .inl hminus
    · right
      have hhead : ((c :: cs).head? == some 45) = false := by simpa using hminus
      rw [hhead, if_neg (by simp), readIntegerPart] at hint
      split at hint
      · rename_i hzero
        rw [hzero]
        rfl
      · split at hint
        · assumption
        · exact absurd hint (by simp)

/-! ### Scalars -/

/-- What makes a text no scalar. -/
inductive ScalarError where
  | malformed
  /-- An integer has too many digits. -/
  | intDigits
deriving DecidableEq

/-- A value without parts that is no string. -/
inductive Scalar (F : Type*) where
  | null
  | bool (value : Bool)
  | int (value : ℤ)
  | float (value : F)
deriving DecidableEq

/-- How floating point numbers are read. -/
structure FloatReader (F : Type*) where
  read : Text → F
  nan : F
  inf : F
  negInf : F

variable {F : Type*}

/-- The words, with what they stand for. -/
def words (floats : FloatReader F) : List (Text × Scalar F) :=
  [(['n', 'u', 'l', 'l'].map Char.toNat, .null),
    (['t', 'r', 'u', 'e'].map Char.toNat, .bool true),
    (['f', 'a', 'l', 's', 'e'].map Char.toNat, .bool false),
    (['N', 'a', 'N'].map Char.toNat, .float floats.nan),
    (['I', 'n', 'f', 'i', 'n', 'i', 't', 'y'].map Char.toNat, .float floats.inf),
    (['-', 'I', 'n', 'f', 'i', 'n', 'i', 't', 'y'].map Char.toNat, .float floats.negInf)]

/-- The integer that a sign and digits stand for. -/
def NumberToken.toInt (token : NumberToken) : ℤ :=
  if token.negative then -(decimalValue token.digits : ℤ) else decimalValue token.digits

/-- The value of a number. -/
def NumberToken.toScalar (floats : FloatReader F) (maxDigits : ℕ) (token : NumberToken) :
    Except ScalarError (Scalar F) :=
  if token.fraction ≠ [] then
    .ok (.float (floats.read
      ((if token.negative then [45] else []) ++ token.digits ++ token.fraction)))
  else if maxDigits < token.digits.length then .error .intDigits
  else .ok (.int token.toInt)

/-- A scalar at the beginning of a text, with what follows it. -/
def readScalar (floats : FloatReader F) (maxDigits : ℕ) (cs : Text) :
    Except ScalarError (Scalar F × Text) :=
  match (words floats).find? (·.1.isPrefixOf cs) with
  | some (word, value) => .ok (value, cs.drop word.length)
  | none =>
    match readNumber cs with
    | none => .error .malformed
    | some (token, rest) => (token.toScalar floats maxDigits).map fun value => (value, rest)

/-- Integers with few digits are read and written. -/
def Scalar.IsShort (maxDigits : ℕ) : Scalar F → Prop
  | .int n => (natText n.natAbs).length ≤ maxDigits
  | _ => True

/-- How floating point numbers are read and written. -/
structure FloatFormat (F : Type*) extends FloatReader F where
  write : F → Text
  /-- What is written for a number is read as that number. -/
  reads : ∀ (maxDigits : ℕ) (x : F) (rest : Text), EndsNumber rest →
    readScalar toFloatReader maxDigits (write x ++ rest) = .ok (.float x, rest)

/-- The text of a scalar. -/
def Scalar.text (floats : FloatFormat F) : Scalar F → Text
  | .null => ['n', 'u', 'l', 'l'].map Char.toNat
  | .bool true => ['t', 'r', 'u', 'e'].map Char.toNat
  | .bool false => ['f', 'a', 'l', 's', 'e'].map Char.toNat
  | .int n => intText n
  | .float x => floats.write x

/-- The characters that scalars begin with. -/
def IsScalarStart (c : ℕ) : Prop :=
  isDigit c = true ∨ c ∈ ['-', 'n', 't', 'f', 'N', 'I'].map Char.toNat

/-- A text that begins like an integer begins with no word. -/
lemma find?_words_eq_none (floats : FloatReader F) {c : ℕ} {cs : Text}
    (h : isDigit c = true ∨ c = 45 ∧ ∃ d ds, cs = d :: ds ∧ isDigit d = true) :
    (words floats).find? (·.1.isPrefixOf (c :: cs)) = none := by
  have hheads : ∀ entry ∈ words floats, ∃ a b word, entry.1 = a :: b :: word ∧
      isDigit a = false ∧ (a = 45 → isDigit b = false) := by
    intro entry hentry
    simp only [words, List.mem_cons, List.not_mem_nil, or_false] at hentry
    rcases hentry with rfl | rfl | rfl | rfl | rfl | rfl
    all_goals exact ⟨_, _, _, rfl, by decide, by decide⟩
  refine List.find?_eq_none.mpr fun entry hentry hprefix => ?_
  obtain ⟨a, b, word, hword, ha, hb⟩ := hheads entry hentry
  rw [hword, List.isPrefixOf_iff_prefix] at hprefix
  obtain ⟨hac, hprefix⟩ := List.cons_prefix_cons.mp hprefix
  rcases h with hdigit | ⟨hminus, d, ds, rfl, hdigit⟩
  · rw [hac, hdigit] at ha
    exact Bool.noConfusion ha
  · rw [(List.cons_prefix_cons.mp hprefix).1, hdigit] at hb
    exact Bool.noConfusion (hb (hac.trans hminus))

lemma exists_natText (n : ℕ) : ∃ c cs, natText n = c :: cs ∧ isDigit c = true := by
  by_cases hn : n = 0
  · subst hn
    exact ⟨48, [], rfl, rfl⟩
  · obtain ⟨c, cs, hcs, -, hdigit⟩ := exists_natText_cons hn
    exact ⟨c, cs, hcs, hdigit⟩

lemma readScalar_intText (floats : FloatReader F) {maxDigits : ℕ} {n : ℤ}
    (hshort : (natText n.natAbs).length ≤ maxDigits) {rest : Text} (h : EndsNumber rest) :
    readScalar floats maxDigits (intText n ++ rest) = .ok (.int n, rest) := by
  have hnone : (words floats).find? (·.1.isPrefixOf (intText n ++ rest)) = none := by
    obtain ⟨c, cs, hcs, hdigit⟩ := exists_natText n.natAbs
    unfold intText
    split
    · rw [hcs]
      exact find?_words_eq_none floats (.inr ⟨rfl, c, cs ++ rest, rfl, hdigit⟩)
    · rw [hcs]
      exact find?_words_eq_none floats (.inl hdigit)
  have hint : NumberToken.toInt ⟨decide (n < 0), natText n.natAbs, []⟩ = n := by
    unfold NumberToken.toInt
    dsimp only
    rw [decimalValue_natText]
    by_cases hn : n < 0
    · rw [if_pos (decide_eq_true hn)]
      omega
    · rw [if_neg (by simpa using hn)]
      omega
  have hvalue : NumberToken.toScalar floats maxDigits ⟨decide (n < 0), natText n.natAbs, []⟩ =
      .ok (.int n) := by
    unfold NumberToken.toScalar
    rw [if_neg (by simp), if_neg (Nat.not_lt.mpr hshort), hint]
  rw [readScalar, hnone, readNumber_intText n h]
  dsimp only
  rw [hvalue]
  rfl

/-- What is written for a scalar is read as that scalar. -/
theorem readScalar_text (floats : FloatFormat F) {maxDigits : ℕ} {v : Scalar F}
    (hshort : v.IsShort maxDigits) {rest : Text} (h : EndsNumber rest) :
    readScalar floats.toFloatReader maxDigits (v.text floats ++ rest) = .ok (v, rest) := by
  cases v with
  | null => rfl
  | bool value => cases value <;> rfl
  | int n => exact readScalar_intText floats.toFloatReader hshort h
  | float x => exact floats.reads maxDigits x rest h

/-- A scalar begins with a character of its own, and an integer that is read is short. -/
lemma readScalar_spec {floats : FloatReader F} {maxDigits : ℕ} {cs rest : Text} {v : Scalar F}
    (h : readScalar floats maxDigits cs = .ok (v, rest)) :
    (∃ c cs', cs = c :: cs' ∧ IsScalarStart c) ∧ v.IsShort maxDigits := by
  have hwords : ∀ entry ∈ words floats, (∃ c word, entry.1 = c :: word ∧ IsScalarStart c) ∧
      entry.2.IsShort maxDigits := by
    intro entry hentry
    simp only [words, List.mem_cons, List.not_mem_nil, or_false] at hentry
    rcases hentry with rfl | rfl | rfl | rfl | rfl | rfl
    all_goals exact ⟨⟨_, _, rfl, .inr (by decide)⟩, trivial⟩
  unfold readScalar at h
  split at h
  · rename_i word value hfind
    obtain ⟨rfl, -⟩ := Prod.mk.inj (Except.ok.inj h)
    obtain ⟨⟨c, word', hword, hstart⟩, hshort⟩ := hwords _ (List.mem_of_find?_eq_some hfind)
    have hprefix := List.find?_some hfind
    rw [hword, List.isPrefixOf_iff_prefix] at hprefix
    obtain ⟨left, rfl⟩ := hprefix
    exact ⟨⟨c, word' ++ left, rfl, hstart⟩, hshort⟩
  · split at h
    · simp at h
    · rename_i token left hnumber
      obtain ⟨⟨c, cs', hcs, hstart⟩, hne, hdigits⟩ := readNumber_spec hnumber
      refine ⟨⟨c, cs', hcs, ?_⟩, ?_⟩
      · rcases hstart with hminus | hdigit
        · exact .inr (by simp [hminus])
        · exact .inl hdigit
      · unfold NumberToken.toScalar at h
        split at h
        · obtain ⟨rfl, -⟩ := Prod.mk.inj (Except.ok.inj h)
          trivial
        · split at h
          · simp [Except.map] at h
          · rename_i hfew
            obtain ⟨rfl, -⟩ := Prod.mk.inj (Except.ok.inj h)
            have habs : token.toInt.natAbs = decimalValue token.digits := by
              unfold NumberToken.toInt
              split <;> simp
            change (natText token.toInt.natAbs).length ≤ maxDigits
            rw [habs]
            exact (length_natText_decimalValue_le hdigits hne).trans (Nat.le_of_not_lt hfew)

/-- The text of a scalar begins with a character of its own. -/
lemma exists_scalarText_cons (floats : FloatFormat F) {maxDigits : ℕ} {v : Scalar F}
    (hshort : v.IsShort maxDigits) : ∃ c cs, v.text floats = c :: cs ∧ IsScalarStart c := by
  have hread := readScalar_text floats hshort endsNumber_nil
  rw [List.append_nil] at hread
  exact (readScalar_spec hread).1

end JsonText
