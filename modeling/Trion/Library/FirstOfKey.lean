import Mathlib.Data.List.Nodup

/-!
# The first item of each key

A list is gone through from the front, and an item is kept when no earlier item had its key.
-/

namespace Trion.FirstOfKey

variable {α κ : Type*} [DecidableEq κ] {key : α → κ} {seen : List κ} {xs ys : List α}

/-- The items whose key is new, where `seen` are the keys so far. -/
def firstOfKey (key : α → κ) : List κ → List α → List α
  | _, [] => []
  | seen, x :: xs =>
    if key x ∈ seen then firstOfKey key seen xs else x :: firstOfKey key (key x :: seen) xs

lemma firstOfKey_sublist : (firstOfKey key seen xs).Sublist xs := by
  induction xs generalizing seen with
  | nil => exact .slnil
  | cons x xs ih =>
    rw [firstOfKey]
    split
    · exact ih.cons x
    · exact ih.cons_cons x

/-- The keys of what is kept are distinct and new. -/
lemma nodup_keys_firstOfKey :
    ((firstOfKey key seen xs).map key).Nodup ∧ ∀ x ∈ firstOfKey key seen xs, key x ∉ seen := by
  induction xs generalizing seen with
  | nil => exact ⟨List.nodup_nil, nofun⟩
  | cons x xs ih =>
    rw [firstOfKey]
    split
    · exact ih
    · rename_i hnew
      obtain ⟨hnodup, hfresh⟩ := @ih (key x :: seen)
      constructor
      · rw [List.map_cons, List.nodup_cons]
        refine ⟨fun hmem => ?_, hnodup⟩
        obtain ⟨y, hy, heq⟩ := List.mem_map.mp hmem
        exact hfresh y hy (heq ▸ List.mem_cons_self)
      · intro y hy
        rcases List.mem_cons.mp hy with rfl | hrest
        · exact hnew
        · exact fun hseen => hfresh y hrest (List.mem_cons_of_mem _ hseen)

/-- Every new key is kept with some item. -/
lemma exists_of_mem {x : α} (hx : x ∈ xs) (hnew : key x ∉ seen) :
    ∃ y ∈ firstOfKey key seen xs, key y = key x := by
  induction xs generalizing seen with
  | nil => exact absurd hx List.not_mem_nil
  | cons x' xs ih =>
    rw [firstOfKey]
    by_cases hsame : key x = key x'
    · rw [if_neg (hsame ▸ hnew)]
      exact ⟨x', List.mem_cons_self, hsame.symm⟩
    · have hrest : x ∈ xs := (List.mem_cons.mp hx).resolve_left fun h => hsame (h ▸ rfl)
      split
      · exact ih hrest hnew
      · obtain ⟨y, hy, heq⟩ := @ih (key x' :: seen) hrest fun hmem =>
          (List.mem_cons.mp hmem).elim hsame hnew
        exact ⟨y, List.mem_cons_of_mem _ hy, heq⟩

/-- Items with distinct new keys are all kept. -/
lemma firstOfKey_eq_self (hnew : ∀ x ∈ xs, key x ∉ seen) (hnodup : (xs.map key).Nodup) :
    firstOfKey key seen xs = xs := by
  induction xs generalizing seen with
  | nil => rfl
  | cons x xs ih =>
    rw [List.map_cons, List.nodup_cons] at hnodup
    rw [firstOfKey, if_neg (hnew x List.mem_cons_self), ih ?_ hnodup.2]
    intro y hy hmem
    rcases List.mem_cons.mp hmem with heq | hseen
    · exact hnodup.1 (heq ▸ List.mem_map_of_mem hy)
    · exact hnew y (List.mem_cons_of_mem _ hy) hseen

/-- What comes later with keys of its own is kept as it is. -/
theorem firstOfKey_append (hnew : ∀ y ∈ ys, key y ∉ seen)
    (happart : ∀ y ∈ ys, ∀ x ∈ xs, key y ≠ key x) (hnodup : (ys.map key).Nodup) :
    firstOfKey key seen (xs ++ ys) = firstOfKey key seen xs ++ ys := by
  induction xs generalizing seen with
  | nil => exact firstOfKey_eq_self hnew hnodup
  | cons x xs ih =>
    have hrest : ∀ y ∈ ys, ∀ x' ∈ xs, key y ≠ key x' :=
      fun y hy x' hx' => happart y hy x' (List.mem_cons_of_mem _ hx')
    rw [List.cons_append, firstOfKey, firstOfKey]
    split
    · exact ih hnew hrest
    · rw [List.cons_append, ih ?_ hrest]
      intro y hy hmem
      rcases List.mem_cons.mp hmem with heq | hseen
      · exact happart y hy x List.mem_cons_self heq
      · exact hnew y hy hseen

end Trion.FirstOfKey
