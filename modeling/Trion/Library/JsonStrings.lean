import Mathlib.Data.List.Basic
import Mathlib.Tactic.IntervalCases

/-!
# JSON string literals

A text is the list of its code points, surrogates among them: `\ud800` alone is a JSON string
literal, and what it stands for is no sequence of characters.  Two ways of writing a literal are
given, and reading gives back what either has written.
-/

namespace JsonText

/-- A text as the list of its code points. -/
abbrev Text := List ℕ

/-- The code points of a string. -/
def points (s : String) : Text := s.toList.map Char.toNat

/-! ### Four hexadecimal digits -/

/-- The hexadecimal digit for a number below 16. -/
def hexDigit (n : ℕ) : ℕ := if n < 10 then 48 + n else 87 + n

/-- What a hexadecimal digit stands for. -/
def hexValue? (c : ℕ) : Option ℕ :=
  if 48 ≤ c ∧ c ≤ 57 then some (c - 48)
  else if 97 ≤ c ∧ c ≤ 102 then some (c - 87)
  else if 65 ≤ c ∧ c ≤ 70 then some (c - 55)
  else none

lemma hexValue?_hexDigit {n : ℕ} (h : n < 16) : hexValue? (hexDigit n) = some n := by
  interval_cases n <;> rfl

/-- The four digits of a number below `0x10000`. -/
def hex4 (n : ℕ) : Text :=
  [hexDigit (n / 4096), hexDigit (n / 256 % 16), hexDigit (n / 16 % 16), hexDigit (n % 16)]

/-- Four digits at the beginning of a text. -/
def readHex4 : Text → Option (ℕ × Text)
  | a :: b :: c :: d :: rest => do
    let a ← hexValue? a
    let b ← hexValue? b
    let c ← hexValue? c
    let d ← hexValue? d
    return (4096 * a + 256 * b + 16 * c + d, rest)
  | _ => none

lemma readHex4_hex4 {n : ℕ} (h : n < 0x10000) (rest : Text) :
    readHex4 (hex4 n ++ rest) = some (n, rest) := by
  have ha := hexValue?_hexDigit (n := n / 4096) (by omega)
  have hb := hexValue?_hexDigit (n := n / 256 % 16) (by omega)
  have hc := hexValue?_hexDigit (n := n / 16 % 16) (by omega)
  have hd := hexValue?_hexDigit (n := n % 16) (by omega)
  have hn : 4096 * (n / 4096) + 256 * (n / 256 % 16) + 16 * (n / 16 % 16) + n % 16 = n := by
    omega
  simp [hex4, readHex4, ha, hb, hc, hd, hn]

/-! ### Reading -/

/-- The characters that are written as a backslash and a letter, with that letter. -/
def letters : List (ℕ × ℕ) :=
  [(34, 34), (92, 92), (10, 110), (13, 114), (9, 116), (12, 102), (8, 98)]

/-- What a letter after a backslash stands for; the solidus may be escaped as well. -/
def letterValue? (letter : ℕ) : Option ℕ :=
  if letter = 47 then some 47
  else (letters.find? (·.2 == letter)).map Prod.fst

def IsHighSurrogate (n : ℕ) : Prop := 0xd800 ≤ n ∧ n ≤ 0xdbff

def IsLowSurrogate (n : ℕ) : Prop := 0xdc00 ≤ n ∧ n ≤ 0xdfff

instance : DecidablePred IsHighSurrogate := fun _ => inferInstanceAs (Decidable (_ ∧ _))

instance : DecidablePred IsLowSurrogate := fun _ => inferInstanceAs (Decidable (_ ∧ _))

/-- The code point of a surrogate pair. -/
def joinSurrogates (high low : ℕ) : ℕ := 0x10000 + (high - 0xd800) * 0x400 + (low - 0xdc00)

/-- What follows `\u`.  A high surrogate is joined with a low one that follows in the same way. -/
def readUnicodeEscape (cs : Text) : Option (ℕ × Text) := do
  let (u, rest) ← readHex4 cs
  if IsHighSurrogate u then
    match rest with
    | 92 :: 117 :: rest' => do
      let (v, rest'') ← readHex4 rest'
      if IsLowSurrogate v then return (joinSurrogates u v, rest'') else return (u, rest)
    | _ => return (u, rest)
  else return (u, rest)

/-- What follows a backslash. -/
def readEscape : Text → Option (ℕ × Text)
  | [] => none
  | c :: cs =>
    if c = 117 then readUnicodeEscape cs else (letterValue? c).map fun value => (value, cs)

/-- A string literal after its opening quote, with what follows the closing one.  Each step takes
a character at least, so a bound above the length of the text is no bound. -/
def scanString : ℕ → Text → Option (Text × Text)
  | 0, _ | _, [] => none
  | bound + 1, c :: cs =>
    if c = 34 then some ([], cs)
    else if c = 92 then do
      let (value, rest) ← readEscape cs
      let (s, rest) ← scanString bound rest
      return (value :: s, rest)
    else if c < 32 then none
    else (scanString bound cs).map fun p => (c :: p.1, p.2)

lemma scanString_quote (bound : ℕ) (cs : Text) :
    scanString (bound + 1) (34 :: cs) = some ([], cs) := rfl

lemma scanString_plain {c : ℕ} (hquote : c ≠ 34) (hslash : c ≠ 92) (hcontrol : 32 ≤ c) (bound : ℕ)
    (cs : Text) : scanString (bound + 1) (c :: cs) =
      (scanString bound cs).map fun p => (c :: p.1, p.2) := by
  rw [scanString, if_neg hquote, if_neg hslash, if_neg (by omega)]

lemma scanString_escape {c : ℕ} {cs rest : Text} (h : readEscape cs = some (c, rest))
    (bound : ℕ) : scanString (bound + 1) (92 :: cs) =
      (scanString bound rest).map fun p => (c :: p.1, p.2) := by
  rw [scanString, if_neg (by decide), if_pos rfl, h]
  simp only [Option.bind_eq_bind, Option.bind_some]
  cases scanString bound rest <;> rfl

/-! ### Writing -/

/-- A way of writing the characters of a literal, with the characters it is meant for. -/
structure EscapeRule where
  escape : ℕ → Text
  Covers : ℕ → Prop
  /-- What is written for a character is read as that character. -/
  reads : ∀ c, Covers c → ∀ bound rest,
    scanString (bound + 1) (escape c ++ rest) =
      (scanString bound rest).map fun p => (c :: p.1, p.2)

/-- The literal of a string. -/
def EscapeRule.literal (rule : EscapeRule) (s : Text) : Text :=
  34 :: (s.flatMap rule.escape ++ [34])

/-- A literal is read back. -/
theorem EscapeRule.scanString_literal (rule : EscapeRule) {s : Text} (hs : ∀ c ∈ s, rule.Covers c)
    {bound : ℕ} (hbound : s.length < bound) (rest : Text) :
    scanString bound (s.flatMap rule.escape ++ 34 :: rest) = some (s, rest) := by
  induction s generalizing bound with
  | nil =>
    obtain ⟨bound, rfl⟩ := Nat.exists_eq_add_of_lt hbound
    exact scanString_quote _ rest
  | cons c s ih =>
    obtain ⟨bound, rfl⟩ : ∃ b, bound = b + 1 := ⟨bound - 1, by grind⟩
    rw [List.flatMap_cons, List.append_assoc, rule.reads c (hs c List.mem_cons_self),
      ih (fun d hd => hs d (List.mem_cons_of_mem c hd)) (by grind)]
    rfl

/-- Something is written for every character. -/
lemma EscapeRule.escape_ne_nil (rule : EscapeRule) {c : ℕ} (hc : rule.Covers c) :
    rule.escape c ≠ [] := by
  intro hnil
  have hread := rule.reads c hc 1 [34]
  rw [hnil, List.nil_append, scanString_quote, scanString_quote] at hread
  simp at hread

lemma EscapeRule.length_le_flatMap (rule : EscapeRule) {s : Text} (hs : ∀ c ∈ s, rule.Covers c) :
    s.length ≤ (s.flatMap rule.escape).length := by
  induction s with
  | nil => exact le_rfl
  | cons c s ih =>
    have hpos := List.length_pos_iff.mpr (rule.escape_ne_nil (hs c List.mem_cons_self))
    have hrest := ih fun d hd => hs d (List.mem_cons_of_mem c hd)
    rw [List.flatMap_cons, List.length_append, List.length_cons]
    omega

lemma letterValue?_of_mem {c l : ℕ} (h : (c, l) ∈ letters) :
    l ≠ 117 ∧ letterValue? l = some c := by
  have hall : ∀ p ∈ letters, p.2 ≠ 117 ∧ letterValue? p.2 = some p.1 := by decide
  exact hall (c, l) h

/-- The letter of a character that has one. -/
def letterOf? (c : ℕ) : Option ℕ := (letters.find? (·.1 == c)).map Prod.snd

lemma mem_letters_of_letterOf? {c l : ℕ} (h : letterOf? c = some l) : (c, l) ∈ letters := by
  obtain ⟨p, hfind, rfl⟩ := Option.map_eq_some_iff.mp h
  have hc : p.1 = c := by simpa using List.find?_some hfind
  exact hc ▸ List.mem_of_find?_eq_some hfind

lemma ne_of_letterOf?_eq_none {c : ℕ} (h : letterOf? c = none) : c ≠ 34 ∧ c ≠ 92 := by
  constructor
  · rintro rfl
    exact absurd h (by decide)
  · rintro rfl
    exact absurd h (by decide)

lemma scanString_letter {c l : ℕ} (h : letterOf? c = some l) (bound : ℕ) (rest : Text) :
    scanString (bound + 1) (92 :: l :: rest) =
      (scanString bound rest).map fun p => (c :: p.1, p.2) := by
  obtain ⟨hu, hvalue⟩ := letterValue?_of_mem (mem_letters_of_letterOf? h)
  refine scanString_escape ?_ bound
  rw [readEscape, if_neg hu, hvalue]
  rfl

/-- A unit that is no surrogate is read as itself. -/
lemma scanString_unit {c : ℕ} (hc : c < 0x10000) (hhigh : ¬IsHighSurrogate c) (bound : ℕ)
    (rest : Text) : scanString (bound + 1) (92 :: 117 :: (hex4 c ++ rest)) =
      (scanString bound rest).map fun p => (c :: p.1, p.2) := by
  refine scanString_escape ?_ bound
  rw [readEscape, if_pos rfl, readUnicodeEscape, readHex4_hex4 hc]
  exact if_neg hhigh

/-- The units of a character beyond the first plane. -/
def highUnit (c : ℕ) : ℕ := 0xd800 + (c - 0x10000) / 0x400

def lowUnit (c : ℕ) : ℕ := 0xdc00 + (c - 0x10000) % 0x400

/-- What `json.dumps` writes with `ensure_ascii=True`. -/
def asciiEscape (c : ℕ) : Text :=
  match letterOf? c with
  | some letter => [92, letter]
  | none =>
    if 32 ≤ c ∧ c ≤ 126 then [c]
    else if c < 0x10000 then 92 :: 117 :: hex4 c
    else 92 :: 117 :: (hex4 (highUnit c) ++ 92 :: 117 :: hex4 (lowUnit c))

lemma readUnicodeEscape_pair {u v : ℕ} (hu : IsHighSurrogate u) (hv : IsLowSurrogate v)
    (rest : Text) : readUnicodeEscape (hex4 u ++ 92 :: 117 :: (hex4 v ++ rest)) =
      some (joinSurrogates u v, rest) := by
  rw [readUnicodeEscape, readHex4_hex4 (Nat.lt_of_le_of_lt hu.2 (by decide))]
  simp only [Option.bind_eq_bind, Option.bind_some, if_pos hu,
    readHex4_hex4 (Nat.lt_of_le_of_lt hv.2 (by decide)), if_pos hv]
  rfl

/-- A pair of units is read as the character it stands for. -/
lemma scanString_pair {c : ℕ} (hlow : 0x10000 ≤ c) (hhigh : c < 0x110000) (bound : ℕ)
    (rest : Text) :
    scanString (bound + 1)
        (92 :: 117 :: (hex4 (highUnit c) ++ 92 :: 117 :: (hex4 (lowUnit c) ++ rest))) =
      (scanString bound rest).map fun p => (c :: p.1, p.2) := by
  have hu : IsHighSurrogate (highUnit c) := by
    unfold IsHighSurrogate highUnit
    omega
  have hv : IsLowSurrogate (lowUnit c) := by
    unfold IsLowSurrogate lowUnit
    omega
  have hjoin : joinSurrogates (highUnit c) (lowUnit c) = c := by
    unfold joinSurrogates highUnit lowUnit
    omega
  refine scanString_escape ?_ bound
  rw [readEscape, if_pos rfl, readUnicodeEscape_pair hu hv, hjoin]

/-- The code points of characters. -/
def IsScalarValue (c : ℕ) : Prop := c < 0x110000 ∧ ¬(0xd800 ≤ c ∧ c ≤ 0xdfff)

def asciiRule : EscapeRule where
  escape := asciiEscape
  Covers := IsScalarValue
  reads c hc bound rest := by
    obtain ⟨hbig, hsurrogate⟩ := hc
    unfold asciiEscape
    split
    · rename_i letter hletter
      exact scanString_letter hletter bound rest
    · rename_i hletter
      obtain ⟨hquote, hslash⟩ := ne_of_letterOf?_eq_none hletter
      split
      · rename_i hplain
        exact scanString_plain hquote hslash hplain.1 bound rest
      · split
        · rename_i hunit
          refine scanString_unit hunit (fun hhigh => hsurrogate ⟨hhigh.1, ?_⟩) bound rest
          exact hhigh.2.trans (by decide)
        · rename_i hunit
          have hpair := scanString_pair (by omega) hbig bound rest
          simpa only [List.cons_append, List.append_assoc] using hpair

end JsonText
