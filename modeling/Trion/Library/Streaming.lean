import Mathlib.Data.List.Basic

/-!
# Reading a stream

A reader with a state that takes its input item by item does not see how the input is cut.  Nor
does one that splits what it has at a separator and keeps the last piece for the next cut.
-/

namespace Streaming

section Feed

variable {σ α β : Type*} {step : σ → α → σ × List β}

/-- What is put out for the items of a list, one after the other, and the state after them. -/
def feed (step : σ → α → σ × List β) : σ → List α → σ × List β
  | s, [] => (s, [])
  | s, a :: as =>
    let first := step s a
    let rest := feed step first.1 as
    (rest.1, first.2 ++ rest.2)

@[simp] lemma feed_nil (s : σ) : feed step s [] = (s, []) := rfl

lemma feed_cons (s : σ) (a : α) (as : List α) :
    feed step s (a :: as) =
      ((feed step (step s a).1 as).1, (step s a).2 ++ (feed step (step s a).1 as).2) := rfl

/-- Two parts are read one after the other. -/
lemma feed_append (s : σ) (as as' : List α) :
    feed step s (as ++ as') =
      ((feed step (feed step s as).1 as').1,
        (feed step s as).2 ++ (feed step (feed step s as).1 as').2) := by
  induction as generalizing s with
  | nil => simp
  | cons a as ih => simp only [List.cons_append, feed_cons, ih, List.append_assoc]

/-- Where each part takes the reader back to its state and gives the item it stands for, the parts
together give the items. -/
lemma feed_flatMap {s : σ} {parts : β → List α} (h : ∀ b, feed step s (parts b) = (s, [b]))
    (bs : List β) : feed step s (bs.flatMap parts) = (s, bs) := by
  induction bs with
  | nil => rfl
  | cons b bs ih => rw [List.flatMap_cons, feed_append, h, ih, List.singleton_append]

end Feed

section Split

variable {α : Type*} [BEq α] {d : α}

lemma getLastD_append {β : Type*} (xs : List β) {ys : List β} (h : ys ≠ []) (b : β) :
    (xs ++ ys).getLastD b = ys.getLastD b := by
  obtain ⟨init, last, rfl⟩ := (List.eq_nil_or_concat ys).resolve_left h
  rw [List.concat_eq_append, ← List.append_assoc, List.getLastD_concat, List.getLastD_concat]

lemma splitOn_eq_dropLast_append (xs : List α) :
    xs.splitOn d = (xs.splitOn d).dropLast ++ [(xs.splitOn d).getLastD []] := by
  obtain ⟨pieces, last, h⟩ := (List.eq_nil_or_concat _).resolve_left (List.splitOn_ne_nil d xs)
  rw [h, List.concat_eq_append, List.dropLast_concat, List.getLastD_concat]

/-- Of two parts the pieces that are complete in the first stay as they are. -/
lemma splitOn_append (xs ys : List α) :
    (xs ++ ys).splitOn d =
      (xs.splitOn d).dropLast ++ ((xs.splitOn d).getLastD [] ++ ys).splitOn d := by
  induction xs with
  | nil => simp
  | cons x xs ih =>
    obtain ⟨piece, pieces, hpieces⟩ := List.exists_cons_of_ne_nil (List.splitOn_ne_nil d xs)
    rw [List.cons_append, List.splitOn_cons_eq_if_modifyHead, List.splitOn_cons_eq_if_modifyHead,
      ih, hpieces]
    split
    · rfl
    · cases pieces with
      | nil =>
        rename_i hx
        simp [List.splitOn_cons_eq_if_modifyHead, hx]
      | cons next pieces => rfl

end Split

end Streaming
