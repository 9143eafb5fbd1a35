import Mathlib.Data.List.Basic

/-!
# Prefix codes

An encoding of values by lists of symbols in which the front of a list tells the value it
begins with and where the rest starts.  Such encodings are injective, and sequences of them
can be read back when a terminator tells where the sequence ends.
-/

namespace PrefixCode

variable {α β σ : Type*}

/-- The code of `a` cannot be confused with the code of any value, whatever follows. -/
def Delimits (enc : α → List σ) (a : α) : Prop :=
  ∀ b xs ys, enc a ++ xs = enc b ++ ys → a = b ∧ xs = ys

/-- Every code is delimited by itself. -/
def PrefixFree (enc : α → List σ) : Prop := ∀ a, Delimits enc a

variable {enc : α → List σ}

lemma PrefixFree.injective (h : PrefixFree enc) : Function.Injective enc := by
  intro a b hab
  exact (h a b [] [] (by rw [hab])).1

/-- A sequence of codes followed by a terminator with which no code begins. -/
theorem PrefixFree.flatMap_terminated {t : σ} (h : PrefixFree enc)
    (hstart : ∀ a xs ys, enc a ++ xs ≠ t :: ys) {as bs : List α} {xs ys : List σ}
    (heq : as.flatMap enc ++ t :: xs = bs.flatMap enc ++ t :: ys) : as = bs ∧ xs = ys := by
  induction as generalizing bs with
  | nil =>
    cases bs with
    | nil => exact ⟨rfl, (List.cons.inj heq).2⟩
    | cons b bs =>
      rw [List.flatMap_cons, List.append_assoc] at heq
      exact absurd heq.symm (hstart b _ _)
  | cons a as ih =>
    cases bs with
    | nil =>
      rw [List.flatMap_cons, List.append_assoc] at heq
      exact absurd heq (hstart a _ _)
    | cons b bs =>
      rw [List.flatMap_cons, List.flatMap_cons, List.append_assoc, List.append_assoc] at heq
      obtain ⟨rfl, hrest⟩ := h a b _ _ heq
      obtain ⟨rfl, htail⟩ := ih hrest
      exact ⟨rfl, htail⟩

end PrefixCode
