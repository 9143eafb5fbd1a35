import Mathlib.Algebra.GroupWithZero.Nat
import Trion.Library.PrefixCode
import Trion.Python.IntText
import Trion.Python.Json
import Trion.Python.Repr

/-!
# Canonical JSON

`json.dumps(value, sort_keys=True, separators=(",", ":"), ensure_ascii=True)`, the text digests
are taken over.  It is read in two steps: the document a value stands for, with the rows of every
object sorted by key and tuples as arrays, and the text of a document.  The text tells the
document, so two values have the same canonical text exactly when they are the same JSON.

How a float is written is a built-in of `PyRuntime`; what the text relies on is stated as
`FloatTexts`.
-/

namespace Trion.Python

open PrefixCode

/-- A value of a document that is no text and has no parts. -/
inductive Scalar where
  | null
  | bool (value : Bool)
  | int (value : ℤ)
  | float (value : PyFloat)
deriving DecidableEq

/-- A JSON document. -/
inductive Json where
  | scalar (value : Scalar)
  | str (text : String)
  | arr (items : List Json)
  | obj (rows : List (String × Json))

/-! ### The document of a value -/

mutual

/-- The document of a value, with the rows of its objects sorted.  A foreign object has none, and
no document is asked for where there is one. -/
def PyVal.document : PyVal → Json
  | .none => .scalar .null
  | .bool b => .scalar (.bool b)
  | .int n => .scalar (.int n)
  | .float f => .scalar (.float f)
  | .str s => .str s
  | .list xs => .arr (documentItems xs)
  | .tuple xs => .arr (documentItems xs)
  | .dict kvs => .obj (sortByKey (documentRows kvs))
  | .object _ => .scalar .null

/-- The documents of a sequence. -/
def PyVal.documentItems : List PyVal → List Json
  | [] => []
  | x :: xs => x.document :: documentItems xs

/-- The rows of a dictionary in its own order. -/
def PyVal.documentRows : List (String × PyVal) → List (String × Json)
  | [] => []
  | (k, v) :: rest => (k, v.document) :: documentRows rest

end

/-! ### The text of a document -/

/-- The letter after the backslash for a character with an escape of its own. -/
def letterEscape? (c : Char) : Option Char :=
  if c = '"' ∨ c = '\\' then some c
  else if c = '\n' then some 'n'
  else if c = '\r' then some 'r'
  else if c = '\t' then some 't'
  else if c = '\x0c' then some 'f'
  else if c = '\x08' then some 'b'
  else none

/-- The number of a character in UTF-16, each unit in four hexadecimal digits. -/
def utf16Escape (c : Char) : List Char :=
  if c.toNat < 0x10000 then 'u' :: hexPadded 4 c.toNat
  else
    'u' :: (hexPadded 4 (0xd800 + (c.toNat - 0x10000) / 0x400)
      ++ '\\' :: 'u' :: hexPadded 4 (0xdc00 + (c.toNat - 0x10000) % 0x400))

/-- A character inside a JSON string, as `ensure_ascii=True` writes it. -/
def asciiEscape (c : Char) : List Char :=
  match letterEscape? c with
  | some letter => ['\\', letter]
  | none => if 0x20 ≤ c.toNat ∧ c.toNat ≤ 0x7e then [c] else '\\' :: utf16Escape c

/-- A JSON string literal in ASCII. -/
def asciiLiteral (s : String) : List Char := '"' :: (s.toList.flatMap asciiEscape ++ ['"'])

/-- The word of a scalar that is no finite number. -/
def Scalar.word : Scalar → List Char
  | .null => ['n', 'u', 'l', 'l']
  | .bool true => ['t', 'r', 'u', 'e']
  | .bool false => ['f', 'a', 'l', 's', 'e']
  | .float .inf => ['I', 'n', 'f', 'i', 'n', 'i', 't', 'y']
  | .float .negInf => ['-', 'I', 'n', 'f', 'i', 'n', 'i', 't', 'y']
  | .float .nan => ['N', 'a', 'N']
  | .int _ | .float (.finite _) => []

/-- The text of a scalar. -/
def Scalar.text (rt : PyRuntime) : Scalar → List Char
  | .int n => (toString n).toList
  | .float (.finite q) => (rt.reprOf (.float (.finite q))).toList
  | v => v.word

mutual

/-- The text of a document. -/
def Json.text (rt : PyRuntime) : Json → List Char
  | .scalar v => v.text rt
  | .str s => asciiLiteral s
  | .arr items => '[' :: textItems rt items
  | .obj rows => '\x7b' :: textRows rt rows

/-- The items of an array up to its closing bracket. -/
def Json.textItems (rt : PyRuntime) : List Json → List Char
  | [] => [']']
  | x :: xs => x.text rt ++ if xs.isEmpty then [']'] else ',' :: textItems rt xs

/-- The rows of an object up to its closing brace. -/
def Json.textRows (rt : PyRuntime) : List (String × Json) → List Char
  | [] => ['\x7d']
  | (k, v) :: rest =>
    asciiLiteral k ++ ':' :: (v.text rt ++ if rest.isEmpty then ['\x7d'] else ',' :: textRows rt rest)

end

/-- The canonical text of a value, `none` where `json.dumps` raises a `TypeError`. -/
def canonicalJson? (rt : PyRuntime) (v : PyVal) : Option (List Char) :=
  v.jsonCopy.map fun copy => copy.document.text rt

/-! ### Strings -/

/-- The character an escape letter stands for. -/
private def unescape (letter : Char) : Char :=
  if letter = 'n' then '\n'
  else if letter = 'r' then '\r'
  else if letter = 't' then '\t'
  else if letter = 'f' then '\x0c'
  else if letter = 'b' then '\x08'
  else letter

private lemma unescape_letterEscape {c letter : Char} (h : letterEscape? c = some letter) :
    unescape letter = c := by
  unfold letterEscape? at h
  split_ifs at h with hquoted hnewline hreturn htab hform hback
  · obtain rfl := Option.some.inj h
    rcases hquoted with rfl | rfl <;> decide
  all_goals
    obtain rfl := Option.some.inj h
    subst_vars
    decide

private lemma letterEscape_ne_u {c letter : Char} (h : letterEscape? c = some letter) :
    letter ≠ 'u' := by
  rintro rfl
  have hc := unescape_letterEscape h
  have hu : c = 'u' := by simpa [unescape] using hc.symm
  subst hu
  exact absurd h (by decide)

private lemma toNat_lt_or {c : Char} :
    c.toNat < 0xd800 ∨ 0xdfff < c.toNat ∧ c.toNat < 0x110000 := c.valid

/-- The UTF-16 units of a character tell it: a number below `0x10000` is no surrogate. -/
lemma utf16Escape_prefixFree : PrefixFree utf16Escape := by
  intro c d xs ys h
  have hvalid := toNat_lt_or (c := c)
  have hvalid' := toNat_lt_or (c := d)
  unfold utf16Escape at h
  split_ifs at h with hc hd hd
  · obtain ⟨hdigits, hrest⟩ := List.append_inj (List.cons.inj h).2 (by simp)
    exact ⟨Char.toNat_inj.mp (hexPadded_inj (by omega) (by omega) hdigits), hrest⟩
  · rw [List.cons_append, List.cons_append, List.append_assoc] at h
    obtain ⟨hdigits, -⟩ := List.append_inj (List.cons.inj h).2 (by simp)
    have hnum := hexPadded_inj (by omega) (by omega) hdigits
    omega
  · rw [List.cons_append, List.cons_append, List.append_assoc] at h
    obtain ⟨hdigits, -⟩ := List.append_inj (List.cons.inj h).2 (by simp)
    have hnum := hexPadded_inj (by omega) (by omega) hdigits
    omega
  · rw [List.cons_append, List.cons_append, List.append_assoc, List.append_assoc] at h
    obtain ⟨hhigh, hlow⟩ := List.append_inj (List.cons.inj h).2 (by simp)
    obtain ⟨hlow, hrest⟩ := List.append_inj (List.cons.inj (List.cons.inj hlow).2).2 (by simp)
    have hhigh := hexPadded_inj (by omega) (by omega) hhigh
    have hlow := hexPadded_inj (by omega) (by omega) hlow
    exact ⟨Char.toNat_inj.mp (by omega), hrest⟩

/-- A character that stands for itself is neither a quote nor a backslash. -/
private lemma ne_of_letterEscape {c : Char} (h : letterEscape? c = none) : c ≠ '"' ∧ c ≠ '\\' := by
  constructor <;> rintro rfl <;> exact absurd h (by decide)

/-- A character between quotes is told from what follows. -/
lemma asciiEscape_prefixFree : PrefixFree asciiEscape := by
  intro c d xs ys h
  unfold asciiEscape at h
  cases hc : letterEscape? c with
  | some letter =>
    cases hd : letterEscape? d with
    | some letter' =>
      simp only [hc, hd, List.cons_append, List.nil_append, List.cons.injEq, true_and] at h
      obtain ⟨rfl, hrest⟩ := h
      exact ⟨(unescape_letterEscape hc).symm.trans (unescape_letterEscape hd), hrest⟩
    | none =>
      simp only [hc, hd] at h
      split_ifs at h with hplain
      · exact absurd (List.cons.inj h).1.symm (ne_of_letterEscape hd).2
      · have htag : letter = 'u' := by
          unfold utf16Escape at h
          split_ifs at h <;> exact (List.cons.inj (List.cons.inj h).2).1
        exact absurd htag (letterEscape_ne_u hc)
  | none =>
    cases hd : letterEscape? d with
    | some letter =>
      simp only [hc, hd] at h
      split_ifs at h with hplain
      · exact absurd (List.cons.inj h).1 (ne_of_letterEscape hc).2
      · have htag : 'u' = letter := by
          unfold utf16Escape at h
          split_ifs at h <;> exact (List.cons.inj (List.cons.inj h).2).1
        exact absurd htag.symm (letterEscape_ne_u hd)
    | none =>
      simp only [hc, hd] at h
      split_ifs at h with hplain hplain' hplain'
      · exact ⟨(List.cons.inj h).1, (List.cons.inj h).2⟩
      · exact absurd (List.cons.inj h).1 (ne_of_letterEscape hc).2
      · exact absurd (List.cons.inj h).1.symm (ne_of_letterEscape hd).2
      · exact utf16Escape_prefixFree c d xs ys (List.cons.inj h).2

/-- No character between quotes begins with the quote. -/
lemma asciiEscape_ne_quote (c : Char) (xs ys : List Char) : asciiEscape c ++ xs ≠ '"' :: ys := by
  intro h
  unfold asciiEscape at h
  cases hc : letterEscape? c with
  | some letter =>
    simp only [hc] at h
    exact absurd (List.cons.inj h).1 (by decide)
  | none =>
    simp only [hc] at h
    split_ifs at h with hplain
    · exact absurd (List.cons.inj h).1 (ne_of_letterEscape hc).1
    · exact absurd (List.cons.inj h).1 (by decide)

/-- A string literal tells the string. -/
theorem asciiLiteral_prefixFree : PrefixFree asciiLiteral := by
  intro s t xs ys h
  unfold asciiLiteral at h
  rw [List.cons_append, List.cons_append, List.append_assoc, List.append_assoc] at h
  obtain ⟨hchars, hrest⟩ := asciiEscape_prefixFree.flatMap_terminated asciiEscape_ne_quote
    (List.cons.inj h).2
  exact ⟨String.toList_inj.mp hchars, hrest⟩

/-! ### Scalars -/

/-- The characters of the texts of numbers. -/
def isNumeric (c : Char) : Bool := c.isDigit || c ∈ ['-', '+', '.', 'e']

/-- The characters of the texts of scalars. -/
def isWordChar (c : Char) : Bool := c.isAlpha || isNumeric c

/-- What is documented of `repr` on the floats of a JSON text: it is a number with a point or an
exponent, and it tells the float. -/
structure FloatTexts (rt : PyRuntime) : Prop where
  numeric : ∀ q, ∀ c ∈ (rt.reprOf (.float (.finite q))).toList, isNumeric c = true
  marked : ∀ q, ∃ c ∈ (rt.reprOf (.float (.finite q))).toList, c = '.' ∨ c = 'e'
  injective : ∀ p q, rt.reprOf (.float (.finite p)) = rt.reprOf (.float (.finite q)) → p = q

/-- Floats written as a numerator and a denominator with a point between them. -/
lemma floatTexts_of_fractions {rt : PyRuntime}
    (h : ∀ q : ℚ, rt.reprOf (.float (.finite q)) = toString q.num ++ "." ++ toString (q.den : ℤ)) :
    FloatTexts rt := by
  have hlist : ∀ q : ℚ, (rt.reprOf (.float (.finite q))).toList =
      (toString q.num).toList ++ '.' :: (toString (q.den : ℤ)).toList := by
    intro q
    simp [h]
  have hfront : ∀ q : ℚ, (rt.reprOf (.float (.finite q))).toList.takeWhile (· != '.') =
      (toString q.num).toList := by
    intro q
    rw [hlist, List.takeWhile_append_of_pos]
    · simp
    · intro c hc
      rcases mem_intText hc with rfl | hdigit
      · decide
      · simp only [bne_iff_ne]
        rintro rfl
        exact absurd hdigit (by decide)
  refine ⟨fun q c hc => ?_, fun q => ⟨'.', by simp [hlist], .inl rfl⟩, fun p q h => ?_⟩
  · have hdigits : ∀ {n : ℤ}, c ∈ (toString n).toList → isNumeric c = true := by
      intro n hn
      rcases mem_intText hn with rfl | hdigit
      · decide
      · simp [isNumeric, hdigit]
    rw [hlist] at hc
    rcases List.mem_append.mp hc with hc | hc
    · exact hdigits hc
    · rcases List.mem_cons.mp hc with rfl | hc
      · decide
      · exact hdigits hc
  · have htext := congrArg String.toList h
    have hnum : (toString p.num).toList = (toString q.num).toList := by
      rw [← hfront p, ← hfront q, htext]
    rw [hlist, hlist, hnum] at htext
    have hden := (List.cons.inj (List.append_cancel_left htext)).2
    exact Rat.ext (intText_inj (String.toList_inj.mp hnum))
      (by exact_mod_cast intText_inj (String.toList_inj.mp hden))

variable {rt : PyRuntime}

private lemma not_isNumeric_of_mem_word {v : Scalar} (h : v.word ≠ []) :
    ∃ c ∈ v.word, isNumeric c = false := by
  rcases v with _ | (_ | _) | _ | (_ | _ | _ | _)
  · exact ⟨'n', by decide, by decide⟩
  · exact ⟨'f', by decide, by decide⟩
  · exact ⟨'t', by decide, by decide⟩
  · exact absurd rfl h
  · exact absurd rfl h
  · exact ⟨'I', by decide, by decide⟩
  · exact ⟨'I', by decide, by decide⟩
  · exact ⟨'N', by decide, by decide⟩

private lemma isNumeric_of_mem_intText {n : ℤ} {c : Char} (h : c ∈ (toString n).toList) :
    isNumeric c = true := by
  rcases mem_intText h with rfl | hdigit
  · decide
  · simp [isNumeric, hdigit]

private lemma intText_ne_nil (n : ℤ) : (toString n).toList ≠ [] := by
  obtain ⟨m, -, htext⟩ | ⟨m, -, htext⟩ := intText_cases n
  · rw [htext]
    simp [toString, Nat.repr, Nat.toDigits_ne_nil]
  · rw [htext, String.toList_append]
    simp

/-- A scalar is an integer, a finite float, or written as a word that is no number. -/
private lemma Scalar.cases_text (rt : PyRuntime) (v : Scalar) :
    (∃ n, v = .int n) ∨ (∃ q, v = .float (.finite q)) ∨ v.word ≠ [] ∧ v.text rt = v.word := by
  rcases v with _ | (_ | _) | n | (q | _ | _ | _)
  · exact .inr (.inr ⟨by decide, rfl⟩)
  · exact .inr (.inr ⟨by decide, rfl⟩)
  · exact .inr (.inr ⟨by decide, rfl⟩)
  · exact .inl ⟨n, rfl⟩
  · exact .inr (.inl ⟨q, rfl⟩)
  · exact .inr (.inr ⟨by decide, rfl⟩)
  · exact .inr (.inr ⟨by decide, rfl⟩)
  · exact .inr (.inr ⟨by decide, rfl⟩)

private lemma word_inj {v w : Scalar} (hne : v.word ≠ []) (h : v.word = w.word) : v = w := by
  rcases v with _ | (_ | _) | _ | (_ | _ | _ | _) <;>
    rcases w with _ | (_ | _) | _ | (_ | _ | _ | _) <;>
    first
      | rfl
      | exact absurd rfl hne
      | exact absurd h (by decide)
      | exact absurd h hne

/-- Every character of a scalar is a word character, and there is one. -/
lemma scalarText_word (hfloat : FloatTexts rt) (v : Scalar) :
    v.text rt ≠ [] ∧ ∀ c ∈ v.text rt, isWordChar c = true := by
  have hword : ∀ c, isNumeric c = true → isWordChar c = true := by
    intro c hc
    simp [isWordChar, hc]
  obtain ⟨n, rfl⟩ | ⟨q, rfl⟩ | ⟨hne, htext⟩ := v.cases_text rt
  · exact ⟨intText_ne_nil n, fun c hc => hword c (isNumeric_of_mem_intText hc)⟩
  · obtain ⟨c, hc, -⟩ := hfloat.marked q
    exact ⟨List.ne_nil_of_mem hc, fun c hc => hword c (hfloat.numeric q c hc)⟩
  · rw [htext]
    have hall : v.word.all isWordChar = true := by
      rcases v with _ | (_ | _) | _ | (_ | _ | _ | _) <;> rfl
    exact ⟨hne, List.all_eq_true.mp hall⟩

/-- The text of a scalar tells it. -/
theorem scalarText_injective (hfloat : FloatTexts rt) : Function.Injective (Scalar.text rt) := by
  -- a word has a character no number has, and a float one that no integer has
  have hint : ∀ {w : Scalar} {n : ℤ}, (toString n).toList = w.text rt → w = .int n := by
    intro w n h
    obtain ⟨m, rfl⟩ | ⟨q, rfl⟩ | ⟨hne, htext⟩ := w.cases_text rt
    · rw [intText_inj (String.toList_inj.mp h)]
    · obtain ⟨c, hc, hmark⟩ := hfloat.marked q
      have hmem : c ∈ (toString n).toList := by
        rw [h]
        exact hc
      rcases mem_intText hmem with rfl | hdigit
      · rcases hmark with hc | hc <;> exact absurd hc (by decide)
      · rcases hmark with rfl | rfl <;> exact absurd hdigit (by decide)
    · obtain ⟨c, hc, hnumeric⟩ := not_isNumeric_of_mem_word hne
      rw [← htext, ← h] at hc
      exact absurd (isNumeric_of_mem_intText hc) (by simp [hnumeric])
  have hfinite : ∀ {w : Scalar} {q : ℚ},
      (rt.reprOf (.float (.finite q))).toList = w.text rt → w = .float (.finite q) := by
    intro w q h
    obtain ⟨m, rfl⟩ | ⟨p, rfl⟩ | ⟨hne, htext⟩ := w.cases_text rt
    · exact (hint (w := .float (.finite q)) h.symm).symm
    · rw [hfloat.injective _ _ (String.toList_inj.mp h)]
    · obtain ⟨c, hc, hnumeric⟩ := not_isNumeric_of_mem_word hne
      rw [← htext, ← h] at hc
      exact absurd (hfloat.numeric q c hc) (by simp [hnumeric])
  intro v w h
  obtain ⟨n, rfl⟩ | ⟨q, rfl⟩ | ⟨hne, htext⟩ := v.cases_text rt
  · exact (hint h).symm
  · exact (hfinite h).symm
  · obtain ⟨n, rfl⟩ | ⟨q, rfl⟩ | ⟨-, htext'⟩ := w.cases_text rt
    · exact hint h.symm
    · exact hfinite h.symm
    · exact word_inj hne (htext.symm.trans (h.trans htext'))

/-! ### Documents -/

/-- What follows does not carry on a word. -/
def Breaks (xs : List Char) : Prop := ∀ c ∈ xs.head?, isWordChar c = false

/-- A scalar is told from what follows where that does not carry it on. -/
lemma scalarText_delimits (hfloat : FloatTexts rt) {v w : Scalar} {xs ys : List Char}
    (hxs : Breaks xs) (hys : Breaks ys) (h : v.text rt ++ xs = w.text rt ++ ys) :
    v = w ∧ xs = ys := by
  have hfront : ∀ {u : Scalar} {zs : List Char}, Breaks zs →
      (u.text rt ++ zs).takeWhile isWordChar = u.text rt := by
    intro u zs hzs
    rw [List.takeWhile_append_of_pos (scalarText_word hfloat u).2]
    cases zs with
    | nil => simp
    | cons c zs => rw [List.takeWhile_cons_of_neg (by simp [hzs c rfl]), List.append_nil]
  have htext : v.text rt = w.text rt := by
    rw [← hfront hxs, h, hfront hys]
  rw [htext] at h
  exact ⟨scalarText_injective hfloat htext, List.append_cancel_left h⟩

private lemma scalarText_ne_cons (hfloat : FloatTexts rt) {v : Scalar} {c : Char}
    (hc : isWordChar c = false) (xs ys : List Char) : v.text rt ++ xs ≠ c :: ys := by
  intro h
  obtain ⟨hne, hword⟩ := scalarText_word hfloat v
  obtain ⟨d, ds, hd⟩ := List.exists_cons_of_ne_nil hne
  rw [hd] at h
  obtain rfl := (List.cons.inj h).1
  have hmem : d ∈ v.text rt := by
    rw [hd]
    exact List.mem_cons_self
  exact absurd (hword d hmem) (by simp [hc])

/-- No document begins with a closing bracket. -/
private lemma text_ne_bracket (hfloat : FloatTexts rt) (a : Json) (xs ys : List Char) :
    a.text rt ++ xs ≠ ']' :: ys := by
  intro h
  rcases a with v | s | items | rows
  · exact scalarText_ne_cons hfloat (by decide) _ _ h
  · exact absurd (show '"' = ']' from (List.cons.inj h).1) (by decide)
  · exact absurd (show '[' = ']' from (List.cons.inj h).1) (by decide)
  · exact absurd (show '\x7b' = ']' from (List.cons.inj h).1) (by decide)

private lemma breaks_cons {c : Char} (hc : isWordChar c = false) (xs : List Char) :
    Breaks (c :: xs) := by
  intro d hd
  obtain rfl := Option.some.inj hd
  exact hc

/-- What follows an item or a row: the end, or a comma and the rest. -/
private lemma breaks_tail {stop : Char} (hstop : isWordChar stop = false) (last : Bool)
    (rest xs : List Char) : Breaks ((if last then [stop] else ',' :: rest) ++ xs) := by
  cases last
  · exact breaks_cons (by decide) _
  · exact breaks_cons hstop _

mutual

/-- The text of a document tells it, and where it ends. -/
theorem text_delimits (hfloat : FloatTexts rt) : ∀ (a b : Json) {xs ys : List Char},
    Breaks xs → Breaks ys → a.text rt ++ xs = b.text rt ++ ys → a = b ∧ xs = ys
  | .scalar v, b, xs, ys, hxs, hys, h => by
    rcases b with w | s | items | rows
    · obtain ⟨rfl, hrest⟩ := scalarText_delimits hfloat hxs hys h
      exact ⟨rfl, hrest⟩
    all_goals exact absurd h (scalarText_ne_cons hfloat (by decide) _ _)
  | .str s, b, xs, ys, _, _, h => by
    rcases b with w | t | items | rows
    · exact absurd h.symm (scalarText_ne_cons hfloat (by decide) _ _)
    · obtain ⟨rfl, hrest⟩ := asciiLiteral_prefixFree s t xs ys h
      exact ⟨rfl, hrest⟩
    · exact absurd (show '"' = '[' from (List.cons.inj h).1) (by decide)
    · exact absurd (show '"' = '\x7b' from (List.cons.inj h).1) (by decide)
  | .arr items, b, xs, ys, _, _, h => by
    rcases b with w | t | others | rows
    · exact absurd h.symm (scalarText_ne_cons hfloat (by decide) _ _)
    · exact absurd (show '[' = '"' from (List.cons.inj h).1) (by decide)
    · obtain ⟨rfl, hrest⟩ := textItems_delimits hfloat items others (List.cons.inj h).2
      exact ⟨rfl, hrest⟩
    · exact absurd (show '[' = '\x7b' from (List.cons.inj h).1) (by decide)
  | .obj rows, b, xs, ys, _, _, h => by
    rcases b with w | t | items | others
    · exact absurd h.symm (scalarText_ne_cons hfloat (by decide) _ _)
    · exact absurd (show '\x7b' = '"' from (List.cons.inj h).1) (by decide)
    · exact absurd (show '\x7b' = '[' from (List.cons.inj h).1) (by decide)
    · obtain ⟨rfl, hrest⟩ := textRows_delimits hfloat rows others (List.cons.inj h).2
      exact ⟨rfl, hrest⟩

theorem textItems_delimits (hfloat : FloatTexts rt) : ∀ (as bs : List Json) {xs ys : List Char},
    Json.textItems rt as ++ xs = Json.textItems rt bs ++ ys → as = bs ∧ xs = ys
  | [], bs, xs, ys, h => by
    cases bs with
    | nil => exact ⟨rfl, (List.cons.inj h).2⟩
    | cons b bs =>
      simp only [Json.textItems, List.append_assoc] at h
      exact absurd h.symm (text_ne_bracket hfloat b _ _)
  | a :: as, bs, xs, ys, h => by
    cases bs with
    | nil =>
      simp only [Json.textItems, List.append_assoc] at h
      exact absurd h (text_ne_bracket hfloat a _ _)
    | cons b bs =>
      simp only [Json.textItems, List.append_assoc] at h
      obtain ⟨rfl, htail⟩ := text_delimits hfloat a b (breaks_tail (by decide) _ _ _)
        (breaks_tail (by decide) _ _ _) h
      cases as with
      | nil =>
        cases bs with
        | nil => exact ⟨rfl, (List.cons.inj htail).2⟩
        | cons b' bs => exact absurd (show ']' = ',' from (List.cons.inj htail).1) (by decide)
      | cons a' as =>
        cases bs with
        | nil => exact absurd (show ',' = ']' from (List.cons.inj htail).1) (by decide)
        | cons b' bs =>
          obtain ⟨heq, hrest⟩ := textItems_delimits hfloat (a' :: as) (b' :: bs)
            (List.cons.inj htail).2
          exact ⟨by rw [heq], hrest⟩

theorem textRows_delimits (hfloat : FloatTexts rt) :
    ∀ (as bs : List (String × Json)) {xs ys : List Char},
      Json.textRows rt as ++ xs = Json.textRows rt bs ++ ys → as = bs ∧ xs = ys
  | [], bs, xs, ys, h => by
    cases bs with
    | nil => exact ⟨rfl, (List.cons.inj h).2⟩
    | cons b bs => exact absurd (show '\x7d' = '"' from (List.cons.inj h).1) (by decide)
  | (k, a) :: as, bs, xs, ys, h => by
    cases bs with
    | nil => exact absurd (show '"' = '\x7d' from (List.cons.inj h).1) (by decide)
    | cons e bs =>
      obtain ⟨l, b⟩ := e
      simp only [Json.textRows, List.append_assoc] at h
      obtain ⟨rfl, hcolon⟩ := asciiLiteral_prefixFree k l _ _ h
      rw [List.cons_append, List.cons_append, List.append_assoc, List.append_assoc] at hcolon
      obtain ⟨rfl, htail⟩ := text_delimits hfloat a b (breaks_tail (by decide) _ _ _)
        (breaks_tail (by decide) _ _ _) (List.cons.inj hcolon).2
      cases as with
      | nil =>
        cases bs with
        | nil => exact ⟨rfl, (List.cons.inj htail).2⟩
        | cons b' bs => exact absurd (show '\x7d' = ',' from (List.cons.inj htail).1) (by decide)
      | cons a' as =>
        cases bs with
        | nil => exact absurd (show ',' = '\x7d' from (List.cons.inj htail).1) (by decide)
        | cons b' bs =>
          obtain ⟨heq, hrest⟩ := textRows_delimits hfloat (a' :: as) (b' :: bs)
            (List.cons.inj htail).2
          exact ⟨by rw [heq], hrest⟩

end

/-- Different documents have different texts. -/
theorem text_injective (hfloat : FloatTexts rt) : Function.Injective (Json.text rt) := by
  intro a b h
  have hnil : Breaks [] := fun c hc => by simp at hc
  exact (text_delimits hfloat a b hnil hnil (by rw [h])).1

end Trion.Python
