import Trion.Python.Text

/-!
# The text of an integer

`str` of an integer is its decimal digits after a sign, `int` reads it back, and so the text tells
the integer.
-/

namespace Trion.Python

lemma toList_natText (m : ℕ) : (toString m).toList = Nat.toDigits 10 m := by
  rw [Nat.toString_eq_ofList_toDigits, String.toList_ofList]

lemma isDigit_of_mem_natText {m : ℕ} {c : Char} (h : c ∈ (toString m).toList) :
    c.isDigit = true := by
  rw [toList_natText] at h
  exact Nat.isDigit_of_mem_toDigits (by decide) (by decide) h

/-- An integer is written with or without a sign. -/
lemma intText_cases (n : ℤ) :
    (∃ m : ℕ, n = m ∧ toString n = toString m) ∨
      ∃ m : ℕ, n = -((m + 1 : ℕ) : ℤ) ∧ toString n = "-" ++ toString (m + 1) := by
  cases n with
  | ofNat m => exact .inl ⟨m, rfl, rfl⟩
  | negSucc m => exact .inr ⟨m, rfl, rfl⟩

lemma mem_intText {n : ℤ} {c : Char} (h : c ∈ (toString n).toList) :
    c = '-' ∨ c.isDigit = true := by
  obtain ⟨m, -, htext⟩ | ⟨m, -, htext⟩ := intText_cases n
  · rw [htext] at h
    exact .inr (isDigit_of_mem_natText h)
  · rw [htext, String.toList_append] at h
    rcases List.mem_append.mp h with hsign | hdigits
    · exact .inl (by simpa using hsign)
    · exact .inr (isDigit_of_mem_natText hdigits)

lemma strip_intText (n : ℤ) : strip (toString n) = toString n := by
  have hspace : ∀ c ∈ (toString n).toList, isSpace c = false := by
    intro c hc
    rcases mem_intText hc with rfl | hdigit
    · decide
    · exact isSpace_of_isDigit hdigit
  exact strip_eq_self (fun c hc => hspace c (List.mem_of_mem_head? hc))
    (fun c hc => hspace c (List.mem_of_mem_getLast? hc))

lemma decimal?_natText (m : ℕ) : decimal?.digitsValue? (toString m).toList = some m := by
  have hnonempty : (toString m).toList.isEmpty = false := by
    simp [Nat.toDigits_ne_nil]
  have hnone : (toString m).toList.any (!·.isDigit) = false := by
    simpa using fun c => isDigit_of_mem_natText (m := m) (c := c)
  have hvalue := Nat.ofDigitChars_toDigits (b := 10) (n := m) (by decide) (by decide)
  rw [Nat.ofDigitChars_eq_foldl] at hvalue
  rw [decimal?.digitsValue?, hnonempty, hnone, toList_natText]
  simpa using hvalue

/-- `int` reads back what `str` has written. -/
lemma parseInt_ascii_toString (n : ℤ) : PyRuntime.ascii.parseInt (toString n) = some n := by
  have hparse : PyRuntime.ascii.parseInt (toString n) = decimal? (toString n) := by
    simp only [PyRuntime.ascii, strip_intText]
  rw [hparse]
  unfold decimal?
  obtain ⟨m, rfl, htext⟩ | ⟨m, rfl, htext⟩ := intText_cases n
  · rw [htext]
    split
    · rename_i digits h
      exact absurd (isDigit_of_mem_natText (h ▸ List.mem_cons_self)) (by decide)
    · rename_i digits h
      exact absurd (isDigit_of_mem_natText (h ▸ List.mem_cons_self)) (by decide)
    · rw [decimal?_natText]
      rfl
  · have hlist : (toString (-((m + 1 : ℕ) : ℤ))).toList = '-' :: (toString (m + 1)).toList := by
      rw [htext]
      exact String.toList_append
    rw [hlist]
    simp only [decimal?_natText]
    rfl

/-- The text of an integer tells it. -/
lemma intText_inj {m n : ℤ} (h : toString m = toString n) : m = n := by
  have hparse := congrArg PyRuntime.ascii.parseInt h
  rw [parseInt_ascii_toString, parseInt_ascii_toString] at hparse
  exact Option.some.inj hparse

end Trion.Python
