import Mathlib.Data.List.DropRight
import Mathlib.Data.List.GetD

/-!
# URL-safe base64 in Python

`base64.urlsafe_b64encode`: three bytes become four characters, and what is left over at the end
is padded with `=`.  `base64.urlsafe_b64decode` is not its inverse: it steps over every character
outside the alphabet and stops at the first padding that completes a group.
-/

namespace Trion.Python

/-- The 64 characters in the order of their values. -/
def urlsafeAlphabet : List Char :=
  "ABCDEFGHIJKLMNOPQRSTUVWXYZabcdefghijklmnopqrstuvwxyz0123456789-_".toList

/-- The character for a value below 64. -/
def sextetChar (n : ℕ) : Char :=
  urlsafeAlphabet.getD n 'A'

/-- `base64.urlsafe_b64encode`. -/
def urlsafeB64encode : List UInt8 → List Char
  | [] => []
  | [a] => [sextetChar (a.toNat / 4), sextetChar (a.toNat % 4 * 16), '=', '=']
  | [a, b] =>
    [sextetChar (a.toNat / 4), sextetChar (a.toNat % 4 * 16 + b.toNat / 16),
      sextetChar (b.toNat % 16 * 4), '=']
  | a :: b :: c :: rest =>
    sextetChar (a.toNat / 4) :: sextetChar (a.toNat % 4 * 16 + b.toNat / 16) ::
      sextetChar (b.toNat % 16 * 4 + c.toNat / 64) :: sextetChar (c.toNat % 64) ::
      urlsafeB64encode rest

/-- `value.rstrip("=")`. -/
def rstripPadding (cs : List Char) : List Char :=
  cs.rdropWhile (· == '=')

/-! ### Decoding -/

/-- The alphabet that `binascii.a2b_base64` reads. -/
def standardAlphabet : List Char :=
  "ABCDEFGHIJKLMNOPQRSTUVWXYZabcdefghijklmnopqrstuvwxyz0123456789+/".toList

/-- The translation of `-` and `_` by `urlsafe_b64decode`. -/
def standardChar (c : Char) : Char :=
  if c = '-' then '+' else if c = '_' then '/' else c

/-- The value of a character of the standard alphabet. -/
def sextet? (c : Char) : Option ℕ :=
  standardAlphabet.idxOf? c

/-- `binascii.a2b_base64` without `strict_mode`, at the position `quadPos` of a group of four
with the bits `leftchar` left over and `pads` padding characters in a row; `none` where it
raises. -/
def a2bBase64 (quadPos leftchar pads : ℕ) : List Char → Option (List UInt8)
  | [] => if quadPos = 0 then some [] else none
  | c :: cs =>
    if c = '=' then
      if 2 ≤ quadPos then
        if 4 ≤ quadPos + (pads + 1) then some [] else a2bBase64 quadPos leftchar (pads + 1) cs
      else a2bBase64 quadPos leftchar pads cs
    else
      match sextet? c with
      | none => a2bBase64 quadPos leftchar pads cs
      | some v =>
        match quadPos with
        | 0 => a2bBase64 1 v 0 cs
        | 1 => (a2bBase64 2 (v % 16) 0 cs).map (UInt8.ofNat (leftchar * 4 + v / 16) :: ·)
        | 2 => (a2bBase64 3 (v % 4) 0 cs).map (UInt8.ofNat (leftchar * 16 + v / 4) :: ·)
        | _ => (a2bBase64 0 0 0 cs).map (UInt8.ofNat (leftchar * 64 + v) :: ·)

/-- `base64.urlsafe_b64decode`, `none` where it raises a `ValueError`. -/
def urlsafeB64decode (value : List Char) : Option (List UInt8) :=
  if value.all (·.toNat < 128) then a2bBase64 0 0 0 (value.map standardChar) else none

/-! ### What is encoded is decoded -/

lemma sextet?_sextetChar : ∀ n < 64, sextet? (standardChar (sextetChar n)) = some n := by
  decide +kernel

/-- What holds of the 64 characters. -/
lemma of_mem_urlsafeAlphabet (p : Char → Bool) (h : urlsafeAlphabet.all p = true) {c : Char}
    (hc : c ∈ urlsafeAlphabet) : p c = true :=
  List.all_eq_true.mp h c hc

lemma sextetChar_mem (n : ℕ) : sextetChar n ∈ urlsafeAlphabet := by
  unfold sextetChar
  rcases lt_or_ge n urlsafeAlphabet.length with h | h
  · rw [List.getD_eq_getElem _ _ h]
    exact List.getElem_mem h
  · rw [List.getD_eq_default _ _ h]
    decide

lemma standardChar_sextetChar_ne_pad (n : ℕ) : standardChar (sextetChar n) ≠ '=' :=
  bne_iff_ne.mp
    (of_mem_urlsafeAlphabet (standardChar · != '=') (by decide) (sextetChar_mem n))

/-- The value of an encoded character is the next of its group. -/
lemma a2bBase64_sextet {n : ℕ} (hn : n < 64) (quadPos leftchar pads : ℕ) (cs : List Char) :
    a2bBase64 quadPos leftchar pads (standardChar (sextetChar n) :: cs) =
      match quadPos with
      | 0 => a2bBase64 1 n 0 cs
      | 1 => (a2bBase64 2 (n % 16) 0 cs).map (UInt8.ofNat (leftchar * 4 + n / 16) :: ·)
      | 2 => (a2bBase64 3 (n % 4) 0 cs).map (UInt8.ofNat (leftchar * 16 + n / 4) :: ·)
      | _ => (a2bBase64 0 0 0 cs).map (UInt8.ofNat (leftchar * 64 + n) :: ·) := by
  rw [a2bBase64, if_neg (standardChar_sextetChar_ne_pad n), sextet?_sextetChar n hn]

/-- Three bytes and their four characters. -/
lemma a2bBase64_group (a b c : UInt8) (cs : List Char) :
    a2bBase64 0 0 0 (standardChar (sextetChar (a.toNat / 4)) ::
        standardChar (sextetChar (a.toNat % 4 * 16 + b.toNat / 16)) ::
        standardChar (sextetChar (b.toNat % 16 * 4 + c.toNat / 64)) ::
        standardChar (sextetChar (c.toNat % 64)) :: cs) =
      (a2bBase64 0 0 0 cs).map (a :: b :: c :: ·) := by
  have ha := a.toNat_lt
  have hb := b.toNat_lt
  have hc := c.toNat_lt
  have hfirst : a.toNat / 4 * 4 + (a.toNat % 4 * 16 + b.toNat / 16) / 16 = a.toNat := by omega
  have hsecond : (a.toNat % 4 * 16 + b.toNat / 16) % 16 * 16 +
      (b.toNat % 16 * 4 + c.toNat / 64) / 4 = b.toNat := by omega
  have hthird : (b.toNat % 16 * 4 + c.toNat / 64) % 4 * 64 + c.toNat % 64 = c.toNat := by omega
  rw [a2bBase64_sextet (by omega)]
  simp only
  rw [a2bBase64_sextet (by omega)]
  simp only
  rw [a2bBase64_sextet (by omega)]
  simp only
  rw [a2bBase64_sextet (by omega)]
  simp only [hfirst, hsecond, hthird, UInt8.ofNat_toNat, Option.map_map]
  rfl

lemma a2bBase64_urlsafeB64encode : ∀ bytes : List UInt8,
    a2bBase64 0 0 0 ((urlsafeB64encode bytes).map standardChar) = some bytes
  | [] => rfl
  | [a] => by
    have ha := a.toNat_lt
    have hbyte : a.toNat / 4 * 4 + a.toNat % 4 * 16 / 16 = a.toNat := by omega
    have hpad : standardChar '=' = '=' := by decide
    simp only [urlsafeB64encode, List.map_cons, List.map_nil, hpad]
    rw [a2bBase64_sextet (by omega)]
    simp only
    rw [a2bBase64_sextet (by omega)]
    simp only [hbyte, UInt8.ofNat_toNat]
    simp [a2bBase64]
  | [a, b] => by
    have ha := a.toNat_lt
    have hb := b.toNat_lt
    have hfirst : a.toNat / 4 * 4 + (a.toNat % 4 * 16 + b.toNat / 16) / 16 = a.toNat := by omega
    have hsecond : (a.toNat % 4 * 16 + b.toNat / 16) % 16 * 16 + b.toNat % 16 * 4 / 4 =
        b.toNat := by omega
    have hpad : standardChar '=' = '=' := by decide
    simp only [urlsafeB64encode, List.map_cons, List.map_nil, hpad]
    rw [a2bBase64_sextet (by omega)]
    simp only
    rw [a2bBase64_sextet (by omega)]
    simp only
    rw [a2bBase64_sextet (by omega)]
    simp only [hfirst, hsecond, UInt8.ofNat_toNat]
    simp [a2bBase64]
  | a :: b :: c :: rest => by
    simp only [urlsafeB64encode, List.map_cons]
    rw [a2bBase64_group, a2bBase64_urlsafeB64encode rest]
    rfl

lemma urlsafeB64encode_ascii : ∀ (bytes : List UInt8) {c : Char},
    c ∈ urlsafeB64encode bytes → c ∈ urlsafeAlphabet ∨ c = '='
  | [], c, h => by simp [urlsafeB64encode] at h
  | [a], c, h => by
    simp only [urlsafeB64encode, List.mem_cons, List.not_mem_nil, or_false] at h
    rcases h with rfl | rfl | rfl | rfl <;> simp [sextetChar_mem]
  | [a, b], c, h => by
    simp only [urlsafeB64encode, List.mem_cons, List.not_mem_nil, or_false] at h
    rcases h with rfl | rfl | rfl | rfl <;> simp [sextetChar_mem]
  | a :: b :: d :: rest, c, h => by
    simp only [urlsafeB64encode, List.mem_cons] at h
    rcases h with rfl | rfl | rfl | rfl | h
    · exact .inl (sextetChar_mem _)
    · exact .inl (sextetChar_mem _)
    · exact .inl (sextetChar_mem _)
    · exact .inl (sextetChar_mem _)
    · exact urlsafeB64encode_ascii rest h

/-- `base64.urlsafe_b64decode` gives back what has been encoded. -/
theorem urlsafeB64decode_urlsafeB64encode (bytes : List UInt8) :
    urlsafeB64decode (urlsafeB64encode bytes) = some bytes := by
  have hascii : (urlsafeB64encode bytes).all (·.toNat < 128) = true := by
    rw [List.all_eq_true]
    intro c hc
    rcases urlsafeB64encode_ascii bytes hc with hc | rfl
    · exact of_mem_urlsafeAlphabet (·.toNat < 128) (by decide) hc
    · decide
  rw [urlsafeB64decode, if_pos hascii, a2bBase64_urlsafeB64encode]

/-! ### Padding -/

/-- The encoded text without its padding, which is what fills up the last group. -/
lemma urlsafeB64encode_padded : ∀ bytes : List UInt8, ∃ (body : List Char) (k : ℕ),
    urlsafeB64encode bytes = body ++ List.replicate k '=' ∧ (∀ c ∈ body, c ∈ urlsafeAlphabet) ∧
      k = (4 - body.length % 4) % 4
  | [] => ⟨[], 0, rfl, by simp, rfl⟩
  | [a] => ⟨[_, _], 2, rfl, by simp [sextetChar_mem], rfl⟩
  | [a, b] => ⟨[_, _, _], 1, rfl, by simp [sextetChar_mem], rfl⟩
  | a :: b :: c :: rest => by
    obtain ⟨body, k, hrest, hbody, hk⟩ := urlsafeB64encode_padded rest
    refine ⟨_ :: _ :: _ :: _ :: body, k, by rw [urlsafeB64encode, hrest]; rfl, ?_, ?_⟩
    · simpa [sextetChar_mem] using hbody
    · simp only [List.length_cons]
      omega

lemma rstripPadding_append {body : List Char} (hbody : ∀ c ∈ body, c ∈ urlsafeAlphabet) (k : ℕ) :
    rstripPadding (body ++ List.replicate k '=') = body := by
  unfold rstripPadding
  induction k with
  | zero =>
    rw [List.replicate_zero, List.append_nil, List.rdropWhile_eq_self_iff]
    intro hne
    have hlast := hbody _ (List.getLast_mem hne)
    have hne := of_mem_urlsafeAlphabet (· != '=') (by decide) hlast
    simpa using hne
  | succ k ih =>
    rw [List.replicate_succ', ← List.append_assoc, List.rdropWhile_concat_pos _ _ _ rfl, ih]

/-- What `urlsafe_b64encode` writes, put together again from what `rstrip` leaves of it. -/
theorem rstripPadding_pad (bytes : List UInt8) :
    rstripPadding (urlsafeB64encode bytes) ++
        List.replicate ((4 - (rstripPadding (urlsafeB64encode bytes)).length % 4) % 4) '=' =
      urlsafeB64encode bytes := by
  obtain ⟨body, k, hbytes, hbody, rfl⟩ := urlsafeB64encode_padded bytes
  rw [hbytes, rstripPadding_append hbody]

lemma mem_rstripPadding {bytes : List UInt8} {c : Char}
    (h : c ∈ rstripPadding (urlsafeB64encode bytes)) : c ∈ urlsafeAlphabet := by
  obtain ⟨body, k, hbytes, hbody, -⟩ := urlsafeB64encode_padded bytes
  rw [hbytes, rstripPadding_append hbody] at h
  exact hbody c h

end Trion.Python
