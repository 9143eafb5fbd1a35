import Mathlib.Data.List.Basic

/-!
# Slots

A fixed number of slots, each of them in some phase: workers, connections, handles.  Where one
slot moves to another phase, the number of slots whose phase has a property changes by what the
old and the new phase of this slot contribute.
-/

namespace Slots

variable {φ : Type*} {slots : List φ} {i : ℕ} {phase phase' : φ} {p : φ → Bool}

/-- One slot's contribution to a count. -/
def contribution (p : φ → Bool) (phase : φ) : ℕ := if p phase then 1 else 0

@[simp] lemma contribution_of_true (h : p phase = true) : contribution p phase = 1 := by
  simp [contribution, h]

@[simp] lemma contribution_of_false (h : p phase = false) : contribution p phase = 0 := by
  simp [contribution, h]

/-- Moving one slot: what it contributed goes, what it contributes comes. -/
theorem countP_set (h : slots[i]? = some phase) (p : φ → Bool) (phase' : φ) :
    (slots.set i phase').countP p + contribution p phase =
      slots.countP p + contribution p phase' := by
  induction slots generalizing i with
  | nil => simp at h
  | cons first rest ih =>
    cases i with
    | zero =>
      obtain rfl : first = phase := by simpa using h
      simp only [List.set_cons_zero, List.countP_cons, contribution]
      omega
    | succ i =>
      have hrest := ih (i := i) (by simpa using h)
      simp only [List.set_cons_succ, List.countP_cons]
      omega

/-- Where the property is counted once at most, one slot at most has it. -/
theorem eq_of_countP_le_one {j : ℕ} {other : φ} (hone : slots.countP p ≤ 1)
    (h : slots[i]? = some phase) (hphase : p phase = true) (hj : slots[j]? = some other)
    (hother : p other = true) : i = j := by
  induction slots generalizing i j with
  | nil => simp at h
  | cons first rest ih =>
    rw [List.countP_cons] at hone
    have hrest : ∀ {k : ℕ} {at_ : φ}, rest[k]? = some at_ → p at_ = true → 0 < rest.countP p :=
      fun hk hat => List.countP_pos_iff.mpr ⟨_, List.mem_of_getElem? hk, hat⟩
    cases i with
    | zero =>
      obtain rfl : first = phase := by simpa using h
      rw [if_pos hphase] at hone
      cases j with
      | zero => rfl
      | succ j =>
        have := hrest (by simpa using hj) hother
        omega
    | succ i =>
      cases j with
      | zero =>
        obtain rfl : first = other := by simpa using hj
        rw [if_pos hother] at hone
        have := hrest (by simpa using h) hphase
        omega
      | succ j =>
        exact congrArg _ (ih (by omega) (by simpa using h) (by simpa using hj))

/-- Moving one slot: the items it held go, the items it holds come. -/
theorem perm_flatMap_set {α : Type*} (h : slots[i]? = some phase) (items : φ → List α)
    (phase' : φ) :
    ((slots.set i phase').flatMap items ++ items phase).Perm
      (slots.flatMap items ++ items phase') := by
  induction slots generalizing i with
  | nil => simp at h
  | cons first rest ih =>
    cases i with
    | zero =>
      obtain rfl : first = phase := by simpa using h
      rw [List.set_cons_zero, List.flatMap_cons, List.flatMap_cons, List.append_assoc,
        List.append_assoc]
      refine List.perm_append_comm.trans ?_
      rw [List.append_assoc]
      exact List.perm_append_comm_assoc _ _ _
    | succ i =>
      rw [List.set_cons_succ, List.flatMap_cons, List.flatMap_cons, List.append_assoc,
        List.append_assoc]
      exact (ih (i := i) (by simpa using h)).append_left (items first)

/-- Moving one slot, with its items counted. -/
theorem count_flatMap_set {α : Type*} [BEq α] (h : slots[i]? = some phase)
    (items : φ → List α) (phase' : φ) (a : α) :
    ((slots.set i phase').flatMap items).count a + (items phase).count a =
      (slots.flatMap items).count a + (items phase').count a := by
  rw [← List.count_append, ← List.count_append]
  exact (perm_flatMap_set h items phase').count_eq a

/-- Moving one slot that keeps its items. -/
lemma flatMap_set_of_eq {α : Type*} (h : slots[i]? = some phase) {items : φ → List α}
    (heq : items phase' = items phase) :
    (slots.set i phase').flatMap items = slots.flatMap items := by
  induction slots generalizing i with
  | nil => simp at h
  | cons first rest ih =>
    cases i with
    | zero =>
      obtain rfl : first = phase := by simpa using h
      rw [List.set_cons_zero, List.flatMap_cons, List.flatMap_cons, heq]
    | succ i =>
      rw [List.set_cons_succ, List.flatMap_cons, List.flatMap_cons,
        ih (i := i) (by simpa using h)]

end Slots
