import Mathlib.Algebra.GroupWithZero.Nat
import Trion.Library.PrefixCode
import Trion.Python.Value

/-!
# `repr`

`repr` of strings, booleans and tuples of them.  Which characters outside ASCII are printable
is a table of the Unicode standard and a parameter here; whatever it says, the text tells the
value.
-/

namespace Trion.Python

open PrefixCode

/-- A value made of strings, booleans and tuples. -/
inductive Literal where
  | str (s : String)
  | bool (b : Bool)
  | tuple (items : List Literal)

/-- The last `width` hexadecimal digits of a number. -/
def hexPadded : ℕ → ℕ → List Char
  | 0, _ => []
  | width + 1, n => hexPadded width (n / 16) ++ [Nat.digitChar (n % 16)]

/-- The character stands for itself between quotes `q`. -/
def isPlain (printable : Char → Bool) (q c : Char) : Bool :=
  c != q && c != '\\' &&
    if c.toNat < 0x7f then 0x20 ≤ c.toNat else c.toNat != 0x7f && printable c

/-- The letter after the backslash for a character that does not stand for itself, and how
many hexadecimal digits of its number follow. -/
def escapeTag (q c : Char) : Char × ℕ :=
  if c = q ∨ c = '\\' then (c, 0)
  else if c = '\t' then ('t', 0)
  else if c = '\n' then ('n', 0)
  else if c = '\r' then ('r', 0)
  else if c.toNat ≤ 0xff then ('x', 2)
  else if c.toNat ≤ 0xffff then ('u', 4)
  else ('U', 8)

/-- What follows the backslash for a character that does not stand for itself. -/
def escapeBody (q c : Char) : List Char :=
  (escapeTag q c).1 :: hexPadded (escapeTag q c).2 c.toNat

/-- A character between quotes `q`. -/
def reprChar (printable : Char → Bool) (q c : Char) : List Char :=
  if isPlain printable q c then [c] else '\\' :: escapeBody q c

/-- The quotes `repr` puts around a string. -/
def reprQuote (s : String) : Char := if '\'' ∈ s.toList ∧ '"' ∉ s.toList then '"' else '\''

/-- `repr(s)` for a string. -/
def reprString (printable : Char → Bool) (s : String) : List Char :=
  reprQuote s :: (s.toList.flatMap (reprChar printable (reprQuote s)) ++ [reprQuote s])

mutual

/-- `repr(value)`. -/
def Literal.repr (printable : Char → Bool) : Literal → List Char
  | .str s => reprString printable s
  | .bool true => ['T', 'r', 'u', 'e']
  | .bool false => ['F', 'a', 'l', 's', 'e']
  | .tuple items => '(' :: reprItems printable items

/-- The items of a tuple up to its closing parenthesis; a single item is followed by a comma. -/
def reprItems (printable : Char → Bool) : List Literal → List Char
  | [] => [')']
  | item :: items =>
    item.repr printable ++ if items.isEmpty then [',', ')'] else reprRest printable items

/-- The items after the first one. -/
def reprRest (printable : Char → Bool) : List Literal → List Char
  | [] => [')']
  | item :: items => ',' :: ' ' :: (item.repr printable ++ reprRest printable items)

end

/-! ### The text tells the value -/

variable {printable : Char → Bool} {q : Char}

@[simp] lemma length_hexPadded (width n : ℕ) : (hexPadded width n).length = width := by
  induction width generalizing n with
  | zero => rfl
  | succ width ih => rw [hexPadded, List.length_append, ih, List.length_singleton]

private lemma digitChar_inj : ∀ m n : Fin 16, Nat.digitChar m = Nat.digitChar n → m = n := by
  decide

lemma hexPadded_inj {width m n : ℕ} (hm : m < 16 ^ width) (hn : n < 16 ^ width)
    (h : hexPadded width m = hexPadded width n) : m = n := by
  induction width generalizing m n with
  | zero =>
    rw [Nat.pow_zero] at hm hn
    omega
  | succ width ih =>
    rw [Nat.pow_succ] at hm hn
    obtain ⟨hinit, hlast⟩ := List.append_inj' h rfl
    have hdiv : m / 16 = n / 16 := ih (by omega) (by omega) hinit
    have hmod := digitChar_inj ⟨m % 16, by omega⟩ ⟨n % 16, by omega⟩ (List.cons.inj hlast).1
    have hmod' : m % 16 = n % 16 := Fin.mk.inj_iff.mp hmod
    omega

/-- The quotes are no letter and no backslash. -/
def IsQuote (q : Char) : Prop := q = '\'' ∨ q = '"'

lemma isQuote_reprQuote (s : String) : IsQuote (reprQuote s) := by
  unfold reprQuote
  split
  · exact .inr rfl
  · exact .inl rfl

/-- How many digits follow a letter. -/
private def tagWidth (tag : Char) : ℕ :=
  if tag = 'x' then 2 else if tag = 'u' then 4 else if tag = 'U' then 8 else 0

/-- The character a letter without digits stands for. -/
private def tagChar (tag : Char) : Char :=
  if tag = 't' then '\t' else if tag = 'n' then '\n' else if tag = 'r' then '\r' else tag

private lemma escapeTag_width {c : Char} (hq : IsQuote q) :
    (escapeTag q c).2 = tagWidth (escapeTag q c).1 := by
  unfold escapeTag
  split_ifs with hquoted
  · rcases hq with rfl | rfl <;> rcases hquoted with rfl | rfl <;> decide
  all_goals decide

private lemma escapeTag_char {c : Char} (hq : IsQuote q) (h : (escapeTag q c).2 = 0) :
    tagChar (escapeTag q c).1 = c := by
  unfold escapeTag at h ⊢
  split_ifs at h ⊢ with hquoted htab hnewline hreturn
  · rcases hq with rfl | rfl <;> rcases hquoted with rfl | rfl <;> decide
  · exact htab ▸ rfl
  · exact hnewline ▸ rfl
  · exact hreturn ▸ rfl

private lemma toNat_lt_of_escapeTag {c : Char} (h : (escapeTag q c).2 ≠ 0) :
    c.toNat < 16 ^ (escapeTag q c).2 := by
  have hmax : c.toNat < 16 ^ 8 := c.val.toNat_lt.trans_eq (by decide)
  unfold escapeTag at h ⊢
  split_ifs at h ⊢ with _ _ _ _ hbyte hshort
  · exact absurd rfl h
  · exact absurd rfl h
  · exact absurd rfl h
  · exact absurd rfl h
  · exact Nat.lt_succ_of_le hbyte
  · exact Nat.lt_succ_of_le hshort
  · exact hmax

lemma escapeBody_prefixFree (hq : IsQuote q) : PrefixFree (escapeBody q) := by
  intro c d xs ys h
  obtain ⟨htag, hdigits⟩ := List.cons.inj h
  have hwidth : (escapeTag q c).2 = (escapeTag q d).2 := by
    rw [escapeTag_width hq, escapeTag_width hq, htag]
  rw [← hwidth] at hdigits
  obtain ⟨hpadded, hrest⟩ := List.append_inj hdigits (by simp)
  refine ⟨?_, hrest⟩
  by_cases hzero : (escapeTag q c).2 = 0
  · rw [← escapeTag_char hq hzero, htag, escapeTag_char hq (hwidth ▸ hzero)]
  · have hc := toNat_lt_of_escapeTag hzero
    have hd := toNat_lt_of_escapeTag (hwidth ▸ hzero)
    rw [← hwidth] at hd
    exact Char.toNat_inj.mp (hexPadded_inj hc hd hpadded)

/-- A character between quotes is told from what follows. -/
lemma reprChar_prefixFree (hq : IsQuote q) : PrefixFree (reprChar printable q) := by
  intro c d xs ys h
  unfold reprChar at h
  have hplain : ∀ e, isPlain printable q e = true → e ≠ '\\' := by
    rintro e he rfl
    simp [isPlain] at he
  split_ifs at h with hc hd hd
  · simpa using h
  · exact absurd (List.cons.inj h).1 (hplain c hc)
  · exact absurd (List.cons.inj h).1.symm (hplain d hd)
  · exact escapeBody_prefixFree hq c d xs ys (List.cons.inj h).2

/-- No character between quotes begins with the quote. -/
lemma reprChar_ne_quote (hq : IsQuote q) (c : Char) (xs ys : List Char) :
    reprChar printable q c ++ xs ≠ q :: ys := by
  intro h
  unfold reprChar at h
  split_ifs at h with hc
  · obtain rfl := (List.cons.inj h).1
    simp [isPlain] at hc
  · rcases hq with rfl | rfl <;> exact absurd (List.cons.inj h).1 (by decide)

/-- A string literal tells the string. -/
theorem reprString_prefixFree (printable : Char → Bool) : PrefixFree (reprString printable) := by
  intro s t xs ys h
  unfold reprString at h
  rw [List.cons_append, List.cons_append, List.append_assoc, List.append_assoc] at h
  obtain ⟨hquote, hbody⟩ := List.cons.inj h
  rw [← hquote] at hbody
  have hq := isQuote_reprQuote s
  obtain ⟨hchars, hrest⟩ := (reprChar_prefixFree hq).flatMap_terminated
    (reprChar_ne_quote hq) hbody
  exact ⟨String.toList_inj.mp hchars, hrest⟩

/-- The first character of a literal; it tells the kind of the value. -/
def Literal.mark : Literal → Char
  | .str s => reprQuote s
  | .bool true => 'T'
  | .bool false => 'F'
  | .tuple _ => '('

lemma repr_head (printable : Char → Bool) (a : Literal) :
    ∃ cs, a.repr printable = a.mark :: cs := by
  rcases a with s | (_ | _) | items <;> exact ⟨_, rfl⟩

lemma mark_eq_of_append {a b : Literal} {xs ys : List Char}
    (h : a.repr printable ++ xs = b.repr printable ++ ys) : a.mark = b.mark := by
  obtain ⟨as, ha⟩ := repr_head printable a
  obtain ⟨bs, hb⟩ := repr_head printable b
  rw [ha, hb] at h
  exact (List.cons.inj h).1

private lemma quote_ne {s : String} {c : Char} (hc : c ∈ ['T', 'F', '(', ',', ')']) :
    reprQuote s ≠ c := by
  rintro rfl
  rcases isQuote_reprQuote s with h | h <;> rw [h] at hc <;> exact absurd hc (by decide)

/-- A literal begins neither with a comma nor with a closing parenthesis. -/
lemma repr_ne_cons {a : Literal} {c : Char} (hc : c = ',' ∨ c = ')') (xs ys : List Char) :
    a.repr printable ++ xs ≠ c :: ys := by
  intro h
  obtain ⟨as, ha⟩ := repr_head printable a
  rw [ha] at h
  have hmark := (List.cons.inj h).1
  rcases hc with rfl | rfl <;> rcases a with s | (_ | _) | items
  · exact quote_ne (by simp) hmark
  · exact absurd (show 'F' = ',' from hmark) (by decide)
  · exact absurd (show 'T' = ',' from hmark) (by decide)
  · exact absurd (show '(' = ',' from hmark) (by decide)
  · exact quote_ne (by simp) hmark
  · exact absurd (show 'F' = ')' from hmark) (by decide)
  · exact absurd (show 'T' = ')' from hmark) (by decide)
  · exact absurd (show '(' = ')' from hmark) (by decide)

mutual

/-- The text of a literal tells the literal. -/
theorem repr_delimits (printable : Char → Bool) :
    ∀ a : Literal, Delimits (Literal.repr printable) a
  | .str s => by
    intro b xs ys h
    have hmark := mark_eq_of_append h
    rcases b with t | (_ | _) | items
    · obtain ⟨rfl, hrest⟩ := reprString_prefixFree printable s t xs ys h
      exact ⟨rfl, hrest⟩
    all_goals exact absurd hmark (quote_ne (by simp [Literal.mark]))
  | .bool a => by
    intro b xs ys h
    have hmark := mark_eq_of_append h
    rcases a with _ | _ <;> rcases b with t | (_ | _) | items
    · exact absurd hmark.symm (quote_ne (by simp [Literal.mark]))
    · exact ⟨rfl, List.append_cancel_left h⟩
    · exact absurd (show 'F' = 'T' from hmark) (by decide)
    · exact absurd (show 'F' = '(' from hmark) (by decide)
    · exact absurd hmark.symm (quote_ne (by simp [Literal.mark]))
    · exact absurd (show 'T' = 'F' from hmark) (by decide)
    · exact ⟨rfl, List.append_cancel_left h⟩
    · exact absurd (show 'T' = '(' from hmark) (by decide)
  | .tuple items => by
    intro b xs ys h
    have hmark := mark_eq_of_append h
    rcases b with t | (_ | _) | others
    · exact absurd hmark.symm (quote_ne (by simp [Literal.mark]))
    · exact absurd (show '(' = 'F' from hmark) (by decide)
    · exact absurd (show '(' = 'T' from hmark) (by decide)
    · obtain ⟨rfl, hrest⟩ := reprItems_delimits printable items others xs ys (List.cons.inj h).2
      exact ⟨rfl, hrest⟩

theorem reprItems_delimits (printable : Char → Bool) :
    ∀ items : List Literal, Delimits (reprItems printable) items
  | [] => by
    intro others xs ys h
    cases others with
    | nil => exact ⟨rfl, (List.cons.inj h).2⟩
    | cons b bs =>
      simp only [reprItems, List.append_assoc] at h
      exact absurd h.symm (repr_ne_cons (.inr rfl) _ _)
  | a :: items => by
    intro others xs ys h
    cases others with
    | nil =>
      simp only [reprItems, List.append_assoc] at h
      exact absurd h (repr_ne_cons (.inr rfl) _ _)
    | cons b bs =>
      simp only [reprItems, List.append_assoc] at h
      obtain ⟨rfl, htail⟩ := repr_delimits printable a b _ _ h
      -- a single item is followed by a comma and the parenthesis, others by a comma and a blank
      cases items with
      | nil =>
        cases bs with
        | nil => exact ⟨rfl, List.append_cancel_left htail⟩
        | cons c cs =>
          exact absurd (show ')' = ' ' from (List.cons.inj (List.cons.inj htail).2).1) (by decide)
      | cons a' items =>
        cases bs with
        | nil =>
          exact absurd (show ' ' = ')' from (List.cons.inj (List.cons.inj htail).2).1) (by decide)
        | cons c cs =>
          obtain ⟨heq, hrest⟩ := reprRest_delimits printable (a' :: items) (c :: cs) xs ys htail
          exact ⟨by rw [heq], hrest⟩

theorem reprRest_delimits (printable : Char → Bool) :
    ∀ items : List Literal, Delimits (reprRest printable) items
  | [] => by
    intro others xs ys h
    cases others with
    | nil => exact ⟨rfl, (List.cons.inj h).2⟩
    | cons b bs => exact absurd (show ')' = ',' from (List.cons.inj h).1) (by decide)
  | a :: items => by
    intro others xs ys h
    cases others with
    | nil => exact absurd (show ',' = ')' from (List.cons.inj h).1) (by decide)
    | cons b bs =>
      simp only [reprRest, List.cons_append, List.cons.injEq, true_and, List.append_assoc] at h
      obtain ⟨rfl, hitems⟩ := repr_delimits printable a b _ _ h
      obtain ⟨rfl, hrest⟩ := reprRest_delimits printable items bs xs ys hitems
      exact ⟨rfl, hrest⟩

end

/-- Different literals have different texts. -/
theorem repr_injective (printable : Char → Bool) : Function.Injective (Literal.repr printable) :=
  PrefixFree.injective (repr_delimits printable)

end Trion.Python
