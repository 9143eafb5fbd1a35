import Mathlib.Data.List.Sort

/-!
# The preferred element of a list

The first element of a list once it is sorted by a preference: it is an element of the list, there
is one whenever the list has elements, and nothing in the list is strictly preferred to it.
-/

namespace Trion.Preferred

variable {α : Type*} {le : α → α → Bool} {xs : List α} {x y : α}

/-- The first element after sorting by `le`. -/
def preferred (le : α → α → Bool) (xs : List α) : Option α := (xs.mergeSort le).head?

@[simp] lemma preferred_nil : preferred le [] = none := by simp [preferred]

lemma mem_of_preferred (h : preferred le xs = some x) : x ∈ xs :=
  List.mem_mergeSort.mp (List.mem_of_mem_head? h)

lemma preferred_eq_none_iff : preferred le xs = none ↔ xs = [] := by
  unfold preferred
  rw [List.head?_eq_none_iff, ← List.length_eq_zero_iff, List.length_mergeSort,
    List.length_eq_zero_iff]

lemma exists_preferred (h : x ∈ xs) : ∃ y, preferred le xs = some y :=
  Option.ne_none_iff_exists'.mp fun hnone =>
    List.ne_nil_of_mem h (preferred_eq_none_iff.mp hnone)

/-- The preferred element comes before every element. -/
theorem preferred_le (htrans : ∀ a b c, le a b = true → le b c = true → le a c = true)
    (htotal : ∀ a b, (le a b || le b a) = true) (h : preferred le xs = some x) (hy : y ∈ xs) :
    le x y = true := by
  have hsorted := List.pairwise_mergeSort htrans htotal xs
  obtain ⟨rest, hrest⟩ := List.head?_eq_some_iff.mp h
  rw [hrest] at hsorted
  rcases List.mem_cons.mp (hrest ▸ List.mem_mergeSort.mpr hy) with rfl | hmem
  · simpa using htotal y y
  · exact List.rel_of_pairwise_cons hsorted hmem

end Trion.Preferred
