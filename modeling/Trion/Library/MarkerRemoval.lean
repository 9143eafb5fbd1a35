import Trion.Library.Markers

/-!
# Taking markers out of a text

All occurrences of a marker are taken out of a text, from left to right, or all closed blocks
between two markers.  A block that is not closed stays then, with its opening marker; what is
left is what is shown of the text, and what stands from that marker on.
-/

namespace Markers

variable {α : Type*} {ps : List (α → Bool)} {cs ds us : List α} {c : α}

/-! ### A symbol behind the start of a marker -/

lemma begins_drop (h : begins ps (cs ++ ds) = true) : begins (ps.drop cs.length) ds = true := by
  induction cs generalizing ps with
  | nil => exact h
  | cons c cs ih =>
    cases ps with
    | nil => rfl
    | cons p ps =>
      simp only [begins, List.cons_append, Bool.and_eq_true] at h
      exact ih h.2

lemma find_suffix (h : find ps cs = none) (hds : ds <:+ cs) : find ps ds = none := by
  induction cs with
  | nil => rwa [List.suffix_nil.mp hds]
  | cons c cs ih =>
    rcases List.suffix_cons_iff.mp hds with rfl | hds
    · exact h
    · exact ih (find_cons_eq_none.mp h).2 hds

lemma not_begins_of_find (hps : ps ≠ []) (h : find ps cs = none) : begins ps cs = false := by
  cases cs with
  | nil => exact not_begins_nil hps
  | cons c cs => exact (find_cons_eq_none.mp h).1

/-- Symbols of no marker make none. -/
lemma find_append_of_forall (hps : ps ≠ []) (h : find ps cs = none)
    (hds : ∀ d ∈ ds, ∀ p ∈ ps, p d = false) : find ps (cs ++ ds) = none := by
  have hnot : ∀ us, begins ps us = true → ∃ d, us.head? = some d ∧ ∃ p ∈ ps, p d = true := by
    intro us hb
    cases us with
    | nil => exact absurd hb (by simp [not_begins_nil hps])
    | cons u us =>
      have hpos : 0 < ps.length := List.length_pos_iff.mpr hps
      refine ⟨u, rfl, exists_of_begins hb ?_⟩
      obtain ⟨n, hn⟩ : ∃ n, ps.length = n + 1 := ⟨_, (Nat.succ_pred_eq_of_pos hpos).symm⟩
      rw [hn]
      exact List.mem_cons_self
  induction cs with
  | nil =>
    induction ds with
    | nil => rfl
    | cons d ds ih =>
      refine find_cons_eq_none.mpr ⟨?_, ih fun e he => hds e (List.mem_cons_of_mem d he)⟩
      rcases hb : begins ps (d :: ds) with _ | _
      · rfl
      · obtain ⟨_, ⟨rfl⟩, p, hp, hpd⟩ := hnot _ hb
        exact absurd hpd (by simp [hds _ List.mem_cons_self p hp])
  | cons c cs ih =>
    obtain ⟨hc, hrest⟩ := find_cons_eq_none.mp h
    refine find_cons_eq_none.mpr ⟨?_, ih hrest⟩
    rcases hb : begins ps (c :: (cs ++ ds)) with _ | _
    · rfl
    · -- the marker ends in a symbol behind the first part
      have hall : begins ps (c :: cs ++ ds) = true := hb
      rcases begins_or_isPart hall with hb' | hpart
      · exact absurd hb' (by simp [hc])
      · simp only [isPart, Bool.and_eq_true, decide_eq_true_eq] at hpart
        have hdrop := begins_drop hall
        obtain ⟨p, hp⟩ := List.exists_mem_of_ne_nil (ps.drop (c :: cs).length)
          (by simpa using hpart.1)
        cases ds with
        | nil =>
          have hlen := length_le_of_begins hdrop
          rw [List.length_drop, List.length_nil] at hlen
          omega
        | cons d ds =>
          cases hq : ps.drop (c :: cs).length with
          | nil => exact absurd (hq ▸ hp) List.not_mem_nil
          | cons q qs =>
            rw [hq] at hdrop
            simp only [begins, Bool.and_eq_true] at hdrop
            have hmem : q ∈ ps := List.mem_of_mem_drop (hq ▸ List.mem_cons_self)
            exact absurd hdrop.1 (by simp [hds d List.mem_cons_self q hmem])

/-! ### All occurrences of a marker -/

/-- The text without the marker, from left to right.  The number counts the symbols of a marker
that are still to be passed. -/
def removed (ps : List (α → Bool)) : ℕ → List α → List α
  | _, [] => []
  | k + 1, _ :: cs => removed ps k cs
  | 0, c :: cs =>
    if begins ps (c :: cs) then removed ps (ps.length - 1) cs else c :: removed ps 0 cs

lemma removed_skip (k : ℕ) : removed ps k cs = removed ps 0 (cs.drop k) := by
  induction cs generalizing k with
  | nil => cases k <;> simp [removed]
  | cons c cs ih =>
    cases k with
    | zero => rfl
    | succ k => simpa [removed] using ih k

lemma removed_begins (hps : ps ≠ []) (h : begins ps cs = true) :
    removed ps 0 cs = removed ps 0 (cs.drop ps.length) := by
  cases cs with
  | nil => simp [removed]
  | cons c cs =>
    rw [drop_marker hps, ← removed_skip]
    exact if_pos h

lemma removed_next (h : begins ps (c :: cs) = false) :
    removed ps 0 (c :: cs) = c :: removed ps 0 cs :=
  if_neg (by simp [h])

/-- A text without the marker stays. -/
lemma removed_eq_self (h : find ps cs = none) : removed ps 0 cs = cs := by
  induction cs with
  | nil => rfl
  | cons c cs ih =>
    obtain ⟨hb, hrest⟩ := find_cons_eq_none.mp h
    rw [removed_next hb, ih hrest]

/-- What stands before a text stays if no marker begins in it. -/
lemma removed_append (h : ∀ us, us <:+ cs → us ≠ [] → begins ps (us ++ ds) = false) :
    removed ps 0 (cs ++ ds) = cs ++ removed ps 0 ds := by
  induction cs with
  | nil => rfl
  | cons c cs ih =>
    have hb : begins ps (c :: (cs ++ ds)) = false :=
      h (c :: cs) (List.suffix_refl _) (List.cons_ne_nil _ _)
    rw [List.cons_append, removed_next hb,
      ih fun us hus => h us (hus.trans (List.suffix_cons c cs)), List.cons_append]

section Counting

variable {q : α → Bool}

lemma countP_removed_le : (removed ps 0 cs).countP q ≤ cs.countP q := by
  induction hn : cs.length using Nat.strongRecOn generalizing cs with
  | ind n ih =>
    cases cs with
    | nil => exact Nat.le_refl _
    | cons c cs =>
      rcases hb : begins ps (c :: cs) with _ | _
      · rw [removed_next hb, List.countP_cons, List.countP_cons]
        exact Nat.add_le_add_right (ih cs.length (by rw [← hn, List.length_cons]; omega) rfl) _
      · have heq : removed ps 0 (c :: cs) = removed ps (ps.length - 1) cs := if_pos hb
        have hless : (cs.drop (ps.length - 1)).length < n := by
          rw [← hn, List.length_cons, List.length_drop]
          omega
        rw [heq, removed_skip]
        refine Nat.le_trans (ih _ hless rfl) ?_
        exact ((List.drop_sublist _ cs).trans (List.sublist_cons_self c cs)).countP_le

/-- Either there is no marker, or its symbols are missed. -/
lemma find_eq_none_or_countP (hps : ps ≠ []) (hq : ∀ p ∈ ps, ∀ c, p c = true → q c = true) :
    find ps cs = none ∨ (removed ps 0 cs).countP q + ps.length ≤ cs.countP q := by
  induction cs with
  | nil => exact .inl rfl
  | cons c cs ih =>
    rcases hb : begins ps (c :: cs) with _ | _
    · rw [removed_next hb, List.countP_cons, List.countP_cons]
      rcases ih with hnone | hless
      · exact .inl (find_cons_eq_none.mpr ⟨hb, hnone⟩)
      · exact .inr (by omega)
    · right
      rw [removed_begins hps hb]
      have hall : ((c :: cs).take ps.length).countP q = ps.length := by
        rw [List.countP_eq_length.mpr]
        · rw [List.length_take, Nat.min_eq_left (length_le_of_begins hb)]
        · intro d hd
          obtain ⟨p, hp, hpd⟩ := exists_of_begins hb hd
          exact hq p hp d hpd
      have hsplit := congrArg (List.countP q) (List.take_append_drop ps.length (c :: cs))
      rw [List.countP_append, hall] at hsplit
      have hle : (removed ps 0 ((c :: cs).drop ps.length)).countP q ≤ _ := countP_removed_le
      omega

end Counting

/-! ### Closed blocks -/

section Blocks

variable (opening closing : List (α → Bool))

/-- The text without the blocks between the markers that are closed. -/
def withoutBlocks : ℕ → List α → List α
  | _, [] => []
  | k + 1, _ :: cs => withoutBlocks k cs
  | 0, c :: cs =>
    if begins opening (c :: cs) then
      match find closing ((c :: cs).drop opening.length) with
      | some j => withoutBlocks (opening.length + j + closing.length - 1) cs
      | none => c :: withoutBlocks 0 cs
    else c :: withoutBlocks 0 cs

/-- Where in the text the blocks between the markers stand that are closed. -/
def inBlocks : ℕ → List α → List Bool
  | _, [] => []
  | k + 1, _ :: cs => true :: inBlocks k cs
  | 0, c :: cs =>
    if begins opening (c :: cs) then
      match find closing ((c :: cs).drop opening.length) with
      | some j => true :: inBlocks (opening.length + j + closing.length - 1) cs
      | none => false :: inBlocks 0 cs
    else false :: inBlocks 0 cs

/-- The symbols without a mark. -/
def unmarked (marks : List Bool) (cs : List α) : List α :=
  ((cs.zip marks).filter fun entry => !entry.2).map Prod.fst

/-- The text from an opening marker on that is not closed. -/
def unclosed : ℕ → List α → List α
  | _, [] => []
  | k + 1, _ :: cs => unclosed k cs
  | 0, c :: cs =>
    if begins opening (c :: cs) then
      match find closing ((c :: cs).drop opening.length) with
      | some j => unclosed (opening.length + j + closing.length - 1) cs
      | none => c :: cs
    else unclosed 0 cs

variable {opening closing}

lemma withoutBlocks_skip (k : ℕ) :
    withoutBlocks opening closing k cs = withoutBlocks opening closing 0 (cs.drop k) := by
  induction cs generalizing k with
  | nil => cases k <;> simp [withoutBlocks]
  | cons c cs ih =>
    cases k with
    | zero => rfl
    | succ k => simpa [withoutBlocks] using ih k

lemma unclosed_skip (k : ℕ) :
    unclosed opening closing k cs = unclosed opening closing 0 (cs.drop k) := by
  induction cs generalizing k with
  | nil => cases k <;> simp [unclosed]
  | cons c cs ih =>
    cases k with
    | zero => rfl
    | succ k => simpa [unclosed] using ih k

/-- Without a closing marker all of the text stays. -/
lemma withoutBlocks_eq_self (h : find closing (cs.drop opening.length) = none) :
    withoutBlocks opening closing 0 cs = cs := by
  induction cs with
  | nil => rfl
  | cons c cs ih =>
    have hrest : find closing (cs.drop opening.length) = none := by
      refine find_suffix h ?_
      rw [show cs.drop opening.length = ((c :: cs).drop opening.length).drop 1 from by
        rw [List.drop_drop, List.drop_succ_cons]]
      exact List.drop_suffix 1 _
    rw [withoutBlocks, h]
    simp [ih hrest]

/-- The three cases at a place of a text: no opening marker, one that is closed, and one that is
not. -/
lemma withoutBlocks_eq (ho : opening ≠ []) (hc : closing ≠ []) :
    withoutBlocks opening closing 0 cs =
      visible opening closing .shown 0 cs ++ unclosed opening closing 0 cs := by
  induction hn : cs.length using Nat.strongRecOn generalizing cs with
  | ind n ih =>
    cases cs with
    | nil => rfl
    | cons c cs =>
      rcases hb : begins opening (c :: cs) with _ | _
      · have hrest := ih cs.length (by rw [← hn, List.length_cons]; omega) rfl
        simp [withoutBlocks, visible, unclosed, hb, hrest]
      · cases hfind : find closing ((c :: cs).drop opening.length) with
        | none =>
          have hall := withoutBlocks_eq_self hfind
          have hreads : Reads opening closing .shown (c :: cs) [] .hidden
              ((c :: cs).drop opening.length) := .enter hb (.refl _ _)
          have hshown := hreads.visible_eq ho hc
          rw [visible_hidden_of_find_none hfind] at hshown
          rw [hall, hshown]
          simp [unclosed, hb, hfind]
        | some j =>
          have hreads : Reads opening closing .shown (c :: cs) [] .shown
              (((c :: cs).drop opening.length).drop (j + closing.length)) := by
            have hleft := @reads_left _ _ [] opening _ _ hfind
            rw [List.append_nil, List.append_nil] at hleft
            exact .enter hb hleft
          have hdrop : ((c :: cs).drop opening.length).drop (j + closing.length) =
              cs.drop (opening.length + j + closing.length - 1) := by
            have hpos : 0 < opening.length := List.length_pos_iff.mpr ho
            obtain ⟨i, hi⟩ : ∃ i, opening.length + j + closing.length = i + 1 :=
              ⟨opening.length + j + closing.length - 1, by omega⟩
            rw [List.drop_drop, ← Nat.add_assoc, hi, List.drop_succ_cons]
            rfl
          have hless : (cs.drop (opening.length + j + closing.length - 1)).length < n := by
            rw [← hn, List.length_cons, List.length_drop]
            omega
          have hrest := ih _ hless rfl
          rw [← withoutBlocks_skip, ← unclosed_skip] at hrest
          have hshown := hreads.visible_eq ho hc
          rw [hdrop] at hshown
          rw [hshown, List.nil_append]
          simp only [withoutBlocks, unclosed, hb, hfind, if_true]
          exact hrest

/-- What is not closed begins with an opening marker. -/
lemma begins_unclosed (h : unclosed opening closing 0 cs ≠ []) :
    begins opening (unclosed opening closing 0 cs) = true := by
  induction hn : cs.length using Nat.strongRecOn generalizing cs with
  | ind n ih =>
    cases cs with
    | nil => exact absurd rfl h
    | cons c cs =>
      rcases hb : begins opening (c :: cs) with _ | _
      · have heq : unclosed opening closing 0 (c :: cs) = unclosed opening closing 0 cs :=
          if_neg (by simp [hb])
        rw [heq] at h ⊢
        exact ih cs.length (by rw [← hn, List.length_cons]; omega) h rfl
      · cases hfind : find closing ((c :: cs).drop opening.length) with
        | none =>
          have heq : unclosed opening closing 0 (c :: cs) = c :: cs := by
            simp [unclosed, hb, hfind]
          rw [heq]
          exact hb
        | some j =>
          have heq : unclosed opening closing 0 (c :: cs) =
              unclosed opening closing 0 (cs.drop (opening.length + j + closing.length - 1)) := by
            rw [← unclosed_skip]
            simp [unclosed, hb, hfind]
          rw [heq] at h ⊢
          refine ih _ ?_ h rfl
          rw [← hn, List.length_cons, List.length_drop]
          omega

/-- What stays of a text is told by where its blocks stand. -/
lemma withoutBlocks_eq_unmarked (k : ℕ) :
    withoutBlocks opening closing k cs = unmarked (inBlocks opening closing k cs) cs := by
  induction cs generalizing k with
  | nil => cases k <;> rfl
  | cons c cs ih =>
    cases k with
    | succ k => exact ih k
    | zero =>
      rw [withoutBlocks, inBlocks]
      split
      · split
        · exact ih _
        · exact congrArg (c :: ·) (ih 0)
      · exact congrArg (c :: ·) (ih 0)

end Blocks

end Markers
