import Mathlib.Data.List.Chain

/-!
# Sliding windows

A list is cut into windows of a fixed width, each a fixed number of items further on than the
one before, until a window reaches the end.  Where the step is not greater than the width, the
windows overlap in the items between them, and without the overlaps they are the list again.
-/

namespace Windows

variable {α : Type*}

/-- The windows of a list. -/
def windows (width step : ℕ) (hstep : 0 < step) (xs : List α) : List (List α) :=
  if xs.length ≤ width then [xs]
  else xs.take width :: windows width step hstep (xs.drop step)
termination_by xs.length
decreasing_by
  rw [List.length_drop]
  omega

variable {width step : ℕ} {hstep : 0 < step} {xs w : List α}

lemma windows_of_le (h : xs.length ≤ width) : windows width step hstep xs = [xs] := by
  rw [windows, if_pos h]

lemma windows_of_lt (h : width < xs.length) : windows width step hstep xs =
    xs.take width :: windows width step hstep (xs.drop step) := by
  rw [windows, if_neg (by omega)]

lemma windows_ne_nil (xs : List α) : windows width step hstep xs ≠ [] := by
  rcases Nat.lt_or_ge width xs.length with h | h
  · rw [windows_of_lt h]
    exact List.cons_ne_nil _ _
  · rw [windows_of_le h]
    exact List.cons_ne_nil _ _

/-- A window is no wider than the width, is empty only where the list is, and is made of items
of the list. -/
lemma of_mem_windows (hwidth : step ≤ width) (hw : w ∈ windows width step hstep xs) :
    w.length ≤ width ∧ (xs ≠ [] → w ≠ []) ∧ ∀ x ∈ w, x ∈ xs := by
  induction xs using windows.induct width step hstep with
  | case1 xs h =>
    rw [windows_of_le h] at hw
    obtain rfl := List.mem_singleton.mp hw
    exact ⟨h, id, fun x hx => hx⟩
  | case2 xs h ih =>
    rw [windows_of_lt (by omega)] at hw
    rcases List.mem_cons.mp hw with rfl | hw
    · refine ⟨List.length_take_le .., fun hne hnil => ?_, fun x hx => List.mem_of_mem_take hx⟩
      have hlength := congrArg List.length hnil
      rw [List.length_take, List.length_nil] at hlength
      omega
    · obtain ⟨hlength, hne, hmem⟩ := ih hw
      refine ⟨hlength, fun _ => hne fun hnil => ?_, fun x hx => List.mem_of_mem_drop (hmem x hx)⟩
      have hlength := congrArg List.length hnil
      rw [List.length_drop, List.length_nil] at hlength
      omega

/-- The second of two windows begins with what the first has after the step. -/
structure Overlaps (overlap : ℕ) (w w' : List α) : Prop where
  length : overlap ≤ w.length
  length' : overlap ≤ w'.length
  eq : w.drop (w.length - overlap) = w'.take overlap

/-- Neighbouring windows overlap in as many items as the step falls short of the width. -/
lemma isChain_windows (hwidth : step ≤ width) (xs : List α) :
    (windows width step hstep xs).IsChain (Overlaps (width - step)) := by
  induction xs using windows.induct width step hstep with
  | case1 xs h =>
    rw [windows_of_le h]
    exact .singleton _
  | case2 xs h ih =>
    have hlt : width < xs.length := by omega
    have hfull : (xs.take width).length = width := by
      rw [List.length_take]
      omega
    rw [windows_of_lt hlt]
    -- what the next window begins with
    have hnext : ∀ w' ws, windows width step hstep (xs.drop step) = w' :: ws →
        width - step ≤ w'.length ∧ (xs.take width).drop step = w'.take (width - step) := by
      intro w' ws hws
      have hdrop : (xs.take width).drop step = (xs.drop step).take (width - step) := List.drop_take
      rcases Nat.lt_or_ge width (xs.drop step).length with hlong | hshort
      · rw [windows_of_lt hlong] at hws
        obtain ⟨rfl, -⟩ := List.cons.inj hws
        refine ⟨by rw [List.length_take]; omega, ?_⟩
        rw [hdrop, List.take_take, min_eq_left (by omega)]
      · rw [windows_of_le hshort] at hws
        obtain ⟨rfl, -⟩ := List.cons.inj hws
        exact ⟨by rw [List.length_drop]; omega, hdrop⟩
    cases hws : windows width step hstep (xs.drop step) with
    | nil => exact absurd hws (windows_ne_nil _)
    | cons w' ws =>
      obtain ⟨hlength, heq⟩ := hnext w' ws hws
      rw [hws] at ih
      refine List.isChain_cons_cons.mpr ⟨⟨by omega, hlength, ?_⟩, ih⟩
      rw [hfull, Nat.sub_sub_self hwidth]
      exact heq

/-- The windows without their overlaps. -/
def joinWindows (overlap : ℕ) : List (List α) → List α
  | [] => []
  | w :: ws => w ++ ws.flatMap fun w => w.drop overlap

lemma joinWindows_cons (overlap : ℕ) (w : List α) (ws : List (List α)) :
    joinWindows overlap (w :: ws) = w ++ ws.flatMap fun w => w.drop overlap := rfl

/-- Without the overlaps the windows are the list. -/
theorem joinWindows_windows (hwidth : step ≤ width) (xs : List α) :
    joinWindows (width - step) (windows width step hstep xs) = xs := by
  induction xs using windows.induct width step hstep with
  | case1 xs h =>
    rw [windows_of_le h]
    exact List.append_nil xs
  | case2 xs h ih =>
    have hlt : width < xs.length := by omega
    have hchain : (windows width step hstep xs).IsChain (Overlaps (width - step)) :=
      isChain_windows hwidth xs
    rw [windows_of_lt hlt] at hchain ⊢
    cases hws : windows width step hstep (xs.drop step) with
    | nil => exact absurd hws (windows_ne_nil _)
    | cons w' ws =>
      rw [hws] at ih hchain
      have hoverlap := (List.isChain_cons_cons.mp hchain).1.length'
      have hrest : w'.drop (width - step) ++ ws.flatMap (fun w => w.drop (width - step)) =
          xs.drop width := by
        have hdrop := congrArg (List.drop (width - step)) ih
        rw [joinWindows_cons, List.drop_append_of_le_length hoverlap, List.drop_drop] at hdrop
        rw [hdrop]
        congr 1
        omega
      rw [joinWindows_cons, List.flatMap_cons, hrest]
      exact List.take_append_drop width xs

end Windows
