import Mathlib.Data.List.Basic

/-!
# Values in layers

A list of layers gives a value each; the first layer counts that sets one, that is, whose value
is not the default.  In a keyed field the layers hold items with keys, and the first layer counts
that has items of a key.
-/

namespace Layers

variable {α κ : Type*}

section First

variable [DecidableEq α]

/-- The value of the first layer that sets one. -/
def firstSet (default : α) (values : List α) : α := (values.find? (· ≠ default)).getD default

variable {default value : α} {values : List α}

@[simp] lemma firstSet_singleton : firstSet default [value] = value := by
  unfold firstSet
  by_cases h : value = default <;> simp [h]

lemma firstSet_cons : firstSet default (value :: values) =
    if value = default then firstSet default values else value := by
  unfold firstSet
  by_cases h : value = default <;> simp [h]

end First

section Keyed

variable [DecidableEq κ]

/-- The items of a key. -/
def itemsOf (key : α → κ) (k : κ) (items : List α) : List α := items.filter fun x => key x == k

/-- The items of a key in the first layer that has some. -/
def firstItems (key : α → κ) (k : κ) (layers : List (List α)) : List α :=
  ((layers.map (itemsOf key k)).find? (!·.isEmpty)).getD []

/-- The items of a key in the last layer that has some. -/
def lastItems (key : α → κ) (k : κ) (layers : List (List α)) : List α :=
  firstItems key k layers.reverse

variable {key : α → κ} {k : κ} {items items' : List α} {layers : List (List α)}

lemma itemsOf_append :
    itemsOf key k (items ++ items') = itemsOf key k items ++ itemsOf key k items' :=
  List.filter_append ..

lemma itemsOf_eq_nil : itemsOf key k items = [] ↔ k ∉ items.map key := by
  unfold itemsOf
  rw [List.filter_eq_nil_iff]
  constructor
  · intro h hmem
    obtain ⟨x, hx, hkey⟩ := List.mem_map.mp hmem
    exact h x hx (by simpa using hkey)
  · intro h x hx hkey
    exact h (List.mem_map.mpr ⟨x, hx, by simpa using hkey⟩)

@[simp] lemma firstItems_singleton : firstItems key k [items] = itemsOf key k items := by
  unfold firstItems
  cases h : itemsOf key k items <;> simp [h]

lemma firstItems_cons : firstItems key k (items :: layers) =
    if itemsOf key k items = [] then firstItems key k layers else itemsOf key k items := by
  unfold firstItems
  by_cases h : itemsOf key k items = [] <;> simp [h]

lemma lastItems_cons : lastItems key k (items :: layers) =
    if lastItems key k layers = [] then itemsOf key k items else lastItems key k layers := by
  unfold lastItems
  rw [List.reverse_cons]
  induction layers.reverse with
  | nil =>
    have hnone : firstItems key k [] = [] := rfl
    rw [List.nil_append, firstItems_singleton, hnone, if_pos rfl]
  | cons first rest ih =>
    rw [List.cons_append, firstItems_cons, firstItems_cons, ih]
    by_cases h : itemsOf key k first = [] <;> simp [h]

/-- The items whose key the others do not have, after the others. -/
lemma itemsOf_addMissing : itemsOf key k (items' ++ items.filter fun x =>
    key x ∉ items'.map key) =
      if itemsOf key k items' = [] then itemsOf key k items else itemsOf key k items' := by
  rw [itemsOf_append]
  by_cases h : itemsOf key k items' = []
  · rw [if_pos h, h, List.nil_append]
    unfold itemsOf
    rw [List.filter_filter]
    refine List.filter_congr fun x _ => ?_
    by_cases hx : key x = k
    · have hnot := itemsOf_eq_nil.mp h
      simp [hx, hnot]
    · simp [hx]
  · rw [if_neg h]
    have hnone : itemsOf key k (items.filter fun x => key x ∉ items'.map key) = [] := by
      refine itemsOf_eq_nil.mpr fun hmem => ?_
      obtain ⟨x, hx, hkey⟩ := List.mem_map.mp hmem
      have hnot := (List.mem_filter.mp hx).2
      have hhas : k ∈ items'.map key := by
        by_contra hcon
        exact h (itemsOf_eq_nil.mpr hcon)
      rw [hkey] at hnot
      simp [hhas] at hnot
    rw [hnone, List.append_nil]

/-- The others without the items whose key is there, before the items. -/
lemma itemsOf_replace : itemsOf key k (items'.filter (fun x =>
    key x ∉ items.map key) ++ items) =
      if itemsOf key k items = [] then itemsOf key k items' else itemsOf key k items := by
  have hswap : itemsOf key k (items ++ items'.filter fun x => key x ∉ items.map key) =
      if itemsOf key k items = [] then itemsOf key k items' else itemsOf key k items :=
    itemsOf_addMissing
  rw [itemsOf_append] at hswap ⊢
  by_cases h : itemsOf key k items = []
  · rw [if_pos h] at hswap ⊢
    rw [h, List.nil_append] at hswap
    rw [h, List.append_nil, hswap]
  · rw [if_neg h] at hswap ⊢
    have hnil := List.append_right_eq_self.mp hswap
    rw [hnil, List.nil_append]

end Keyed

end Layers
