import Mathlib.Order.Lattice
import Mathlib.Data.Nat.Basic

/-!
# Smallest gaps

The smallest distance of two members of an increasing list of numbers, kept while members are put
at its end.
-/

namespace Gaps

/-- The smallest distance of two members, `none` when there are not two. -/
def IsSmallest (xs : List ℕ) : Option ℕ → Prop
  | none => xs.length < 2
  | some d =>
    (∃ p ∈ xs, ∃ q ∈ xs, p < q ∧ q - p = d) ∧ ∀ p ∈ xs, ∀ q ∈ xs, p < q → d ≤ q - p

variable {xs : List ℕ} {d : Option ℕ} {p i : ℕ}

lemma isSmallest_singleton (p : ℕ) : IsSmallest [p] none := Nat.lt_succ_self 1

lemma eq_none_of_isSmallest_nil (h : IsSmallest [] d) : d = none := by
  cases d with
  | none => rfl
  | some d =>
    obtain ⟨⟨p, hp, -⟩, -⟩ := h
    cases hp

/-- A list without a gap has no two members. -/
lemma IsSmallest.eq_of_none (h : IsSmallest xs none) {q : ℕ} (hp : p ∈ xs) (hq : q ∈ xs) :
    p = q := by
  have hlength : xs.length < 2 := h
  match xs, hlength with
  | [], _ => cases hp
  | [x], _ => rw [List.mem_singleton.mp hp, List.mem_singleton.mp hq]

/-- Members are a gap of at least one apart. -/
lemma IsSmallest.pos {d : ℕ} (h : IsSmallest xs (some d)) : 0 < d := by
  obtain ⟨⟨p, -, q, -, hlt, rfl⟩, -⟩ := h
  omega

/-- A new member is closest to the last one. -/
lemma IsSmallest.concat (h : IsSmallest (xs ++ [p]) d) (hle : ∀ x ∈ xs, x ≤ p) (hlt : p < i) :
    IsSmallest (xs ++ [p] ++ [i]) (some (d.elim (i - p) (min · (i - p)))) := by
  have hle' : ∀ x ∈ xs ++ [p], x ≤ p :=
    List.forall_mem_append.mpr ⟨hle, List.forall_mem_singleton.mpr le_rfl⟩
  have hp : p ∈ xs ++ [p] := by simp
  have hold {x : ℕ} (hx : x ∈ xs ++ [p]) : x ∈ xs ++ [p] ++ [i] := List.mem_append_left _ hx
  have hi : i ∈ xs ++ [p] ++ [i] := by simp
  -- Of two members, the greater one is new or both are old.
  have hcases {x y : ℕ} (hx : x ∈ xs ++ [p] ++ [i]) (hy : y ∈ xs ++ [p] ++ [i]) (hxy : x < y) :
      x ∈ xs ++ [p] ∧ (y ∈ xs ++ [p] ∨ y = i) := by
    rcases List.mem_append.mp hx with hx | hx
    · refine ⟨hx, ?_⟩
      rcases List.mem_append.mp hy with hy | hy
      exacts [.inl hy, .inr (List.mem_singleton.mp hy)]
    · obtain rfl := List.mem_singleton.mp hx
      rcases List.mem_append.mp hy with hy | hy
      · have := hle' y hy
        omega
      · obtain rfl := List.mem_singleton.mp hy
        omega
  cases d with
  | none =>
    have hnil : xs = [] := by
      have hlength : (xs ++ [p]).length < 2 := h
      rw [List.length_append, List.length_singleton] at hlength
      exact List.length_eq_zero_iff.mp (by omega)
    subst hnil
    refine ⟨⟨p, hold hp, i, hi, hlt, rfl⟩, fun x hx y hy hxy => ?_⟩
    obtain ⟨hxold, hy | rfl⟩ := hcases hx hy hxy
    · obtain rfl : x = p := by simpa using hxold
      obtain rfl : y = x := by simpa using hy
      omega
    · have := hle' x hxold
      simp only [Option.elim_none]
      omega
  | some d =>
    obtain ⟨⟨x₀, hx₀, y₀, hy₀, hxy₀, hd⟩, hmin⟩ := h
    simp only [Option.elim_some]
    constructor
    · rcases Nat.le_total d (i - p) with hle | hle
      · rw [min_eq_left hle]
        exact ⟨x₀, hold hx₀, y₀, hold hy₀, hxy₀, hd⟩
      · rw [min_eq_right hle]
        exact ⟨p, hold hp, i, hi, hlt, rfl⟩
    · intro x hx y hy hxy
      obtain ⟨hxold, hy | rfl⟩ := hcases hx hy hxy
      · exact (min_le_left _ _).trans (hmin x hxold y hy hxy)
      · have := hle' x hxold
        exact (min_le_right _ _).trans (by omega)

/-- No gap is smaller than one. -/
lemma IsSmallest.append_of_one (h : IsSmallest xs (some 1)) (ys : List ℕ) :
    IsSmallest (xs ++ ys) (some 1) := by
  obtain ⟨⟨p, hp, q, hq, hlt, hd⟩, -⟩ := h
  exact ⟨⟨p, List.mem_append_left _ hp, q, List.mem_append_left _ hq, hlt, hd⟩,
    fun x _ y _ hxy => Nat.sub_pos_of_lt hxy⟩

end Gaps
