import Mathlib.Data.List.Basic

/-!
# Markers in a text

A marker is a list of conditions on symbols, and a text begins with it where its first symbols
meet them.  A text that arrives piece by piece can end in a part of a marker; the longest such
end is what a reader has to hold back.  On top of this stands the removal of the blocks between
an opening and a closing marker.
-/

namespace Markers

variable {α : Type*}

/-! ### Markers -/

/-- The first symbols of the text meet the conditions. -/
def begins : List (α → Bool) → List α → Bool
  | [], _ => true
  | p :: ps, c :: cs => p c && begins ps cs
  | _ :: _, [] => false

/-- The text is a proper part of the marker, from its first symbol on. -/
def isPart (ps : List (α → Bool)) (cs : List α) : Bool :=
  cs.length < ps.length && begins (ps.take cs.length) cs

/-- The longest end of the text that is a proper part of the marker. -/
def heldBack (ps : List (α → Bool)) : List α → List α
  | [] => []
  | c :: cs => if isPart ps (c :: cs) then c :: cs else heldBack ps cs

/-- The first place where the marker stands. -/
def find (ps : List (α → Bool)) : List α → Option ℕ
  | [] => none
  | c :: cs => if begins ps (c :: cs) then some 0 else (find ps cs).map (· + 1)

/-- The marker that is this text. -/
def exactly [BEq α] (marker : List α) : List (α → Bool) := marker.map fun m c => m == c

/-- The greatest good size, from a bound downwards, and zero if there is none. -/
def greatest (good : ℕ → Bool) : ℕ → ℕ
  | 0 => 0
  | size + 1 => if good (size + 1) then size + 1 else greatest good size

variable {ps : List (α → Bool)} {cs ds : List α}

lemma begins_exactly [BEq α] {marker : List α} :
    begins (exactly marker) cs = marker.isPrefixOf cs := by
  induction marker generalizing cs with
  | nil => rfl
  | cons m ms ih =>
    cases cs with
    | nil => rfl
    | cons c cs => exact congrArg ((m == c) && ·) ih

@[simp] lemma length_exactly [BEq α] {marker : List α} :
    (exactly marker).length = marker.length := List.length_map _

/-- The proper parts of a text as a marker are its proper starts. -/
lemma isPart_exactly [BEq α] [LawfulBEq α] {marker : List α} :
    isPart (exactly marker) cs = true ↔ cs.length < marker.length ∧ cs.isPrefixOf marker = true := by
  unfold isPart exactly
  rw [List.length_map, ← List.map_take, ← exactly, begins_exactly, Bool.and_eq_true,
    decide_eq_true_eq, List.isPrefixOf_iff_prefix, List.isPrefixOf_iff_prefix]
  refine and_congr_right fun hlt => ⟨fun h => ?_, fun h => ?_⟩
  · have hlen : (marker.take cs.length).length = cs.length := by
      rw [List.length_take, Nat.min_eq_left (Nat.le_of_lt hlt)]
    rw [← h.eq_of_length hlen]
    exact List.take_prefix _ _
  · exact ⟨[], (List.append_nil _).trans (List.prefix_iff_eq_take.mp h).symm⟩

lemma begins_append (h : begins ps cs = true) : begins ps (cs ++ ds) = true := by
  induction ps generalizing cs with
  | nil => rfl
  | cons p ps ih =>
    cases cs with
    | nil => exact nomatch h
    | cons c cs =>
      simp only [begins, List.cons_append, Bool.and_eq_true] at h ⊢
      exact ⟨h.1, ih h.2⟩

/-- Whether a text begins with a marker that is no longer shows in the text. -/
lemma begins_of_append (h : begins ps (cs ++ ds) = true) (hlen : ps.length ≤ cs.length) :
    begins ps cs = true := by
  induction ps generalizing cs with
  | nil => rfl
  | cons p ps ih =>
    cases cs with
    | nil => simp at hlen
    | cons c cs =>
      simp only [begins, List.cons_append, Bool.and_eq_true] at h ⊢
      exact ⟨h.1, ih h.2 (by simpa using hlen)⟩

/-- Where a text begins with a marker, the start of the text begins with the start of the
marker. -/
lemma begins_take (h : begins ps (cs ++ ds) = true) (hlen : cs.length ≤ ps.length) :
    begins (ps.take cs.length) cs = true := by
  induction ps generalizing cs with
  | nil => simp [begins]
  | cons p ps ih =>
    cases cs with
    | nil => simp [begins]
    | cons c cs =>
      simp only [begins, List.cons_append, Bool.and_eq_true] at h
      simp only [List.length_cons, List.take_succ_cons, begins, Bool.and_eq_true]
      exact ⟨h.1, ih h.2 (by simpa using hlen)⟩

lemma length_le_of_begins (h : begins ps cs = true) : ps.length ≤ cs.length := by
  induction ps generalizing cs with
  | nil => simp
  | cons p ps ih =>
    cases cs with
    | nil => exact nomatch h
    | cons c cs =>
      simp only [begins, Bool.and_eq_true] at h
      simpa using ih h.2

/-- Only a text with symbols begins with a marker. -/
lemma not_begins_nil (h : ps ≠ []) : begins ps ([] : List α) = false := by
  cases ps with
  | nil => exact absurd rfl h
  | cons p ps => rfl

/-- The symbols of a part of a marker meet some condition of the marker. -/
lemma exists_of_begins (h : begins ps cs = true) {c : α} (hc : c ∈ cs.take ps.length) :
    ∃ p ∈ ps, p c = true := by
  induction ps generalizing cs with
  | nil => simp at hc
  | cons p ps ih =>
    cases cs with
    | nil => exact nomatch h
    | cons c' cs =>
      simp only [begins, Bool.and_eq_true] at h
      simp only [List.length_cons, List.take_succ_cons, List.mem_cons] at hc
      rcases hc with rfl | hc
      · exact ⟨p, List.mem_cons_self, h.1⟩
      · obtain ⟨q, hq, hqc⟩ := ih h.2 hc
        exact ⟨q, List.mem_cons_of_mem _ hq, hqc⟩

/-! ### What is held back -/

/-- The part of the text before what is held back. -/
def released (ps : List (α → Bool)) (cs : List α) : List α :=
  cs.take (cs.length - (heldBack ps cs).length)

lemma isPart_nil (h : ps ≠ []) : isPart ps ([] : List α) = true := by
  cases ps with
  | nil => exact absurd rfl h
  | cons p ps => simp [isPart, begins]

lemma isPart_heldBack (h : ps ≠ []) : isPart ps (heldBack ps cs) = true := by
  induction cs with
  | nil => exact isPart_nil h
  | cons c cs ih =>
    unfold heldBack
    split
    · assumption
    · exact ih

lemma heldBack_suffix : heldBack ps cs <:+ cs := by
  induction cs with
  | nil => exact List.suffix_rfl
  | cons c cs ih =>
    unfold heldBack
    split
    · exact List.suffix_rfl
    · exact ih.trans (List.suffix_cons c cs)

lemma released_append_heldBack : released ps cs ++ heldBack ps cs = cs := by
  obtain ⟨start, hstart⟩ : heldBack ps cs <:+ cs := heldBack_suffix
  have hlen : cs.length - (heldBack ps cs).length = start.length := by
    rw [← congrArg List.length hstart, List.length_append]
    omega
  unfold released
  rw [hlen]
  nth_rewrite 1 [← hstart]
  rw [List.take_left, hstart]

/-- A symbol with which no part of a marker begins is released. -/
lemma released_cons {c : α} (h : ¬isPart ps (c :: cs) = true) :
    released ps (c :: cs) = c :: released ps cs := by
  have hheld : heldBack ps (c :: cs) = heldBack ps cs := if_neg h
  have hlen : (heldBack ps cs).length ≤ cs.length := heldBack_suffix.length_le
  unfold released
  rw [hheld, List.length_cons, Nat.succ_sub hlen, List.take_succ_cons]

lemma drop_eq_heldBack : cs.drop (cs.length - (heldBack ps cs).length) = heldBack ps cs := by
  have hsplit : cs.take (cs.length - (heldBack ps cs).length) ++
      cs.drop (cs.length - (heldBack ps cs).length) = released ps cs ++ heldBack ps cs := by
    rw [List.take_append_drop, released_append_heldBack]
  exact List.append_cancel_left hsplit

/-- A part of a marker is held back as a whole. -/
lemma heldBack_of_isPart (h : isPart ps cs = true) : heldBack ps cs = cs := by
  cases cs with
  | nil => rfl
  | cons c cs => exact if_pos h

/-- A part of a marker at the end of the text is held back. -/
lemma suffix_heldBack (h : isPart ps ds = true) (hsuffix : ds <:+ cs) : ds <:+ heldBack ps cs := by
  induction cs with
  | nil => exact hsuffix
  | cons c cs ih =>
    unfold heldBack
    split
    · exact hsuffix
    · rename_i hpart
      rcases List.suffix_cons_iff.mp hsuffix with rfl | hsuffix
      · exact absurd h hpart
      · exact ih hsuffix

/-- The search from above finds the greatest size. -/
lemma greatest_eq {good : ℕ → Bool} {size bound : ℕ} (hsize : size ≤ bound)
    (h : 0 < size → good size = true) (hgreatest : ∀ n, size < n → n ≤ bound → good n = false) :
    greatest good bound = size := by
  induction bound with
  | zero => exact (Nat.le_zero.mp hsize).symm
  | succ bound ih =>
    rw [greatest]
    by_cases heq : size = bound + 1
    · rw [← heq, if_pos (h (by omega))]
    · rw [hgreatest (bound + 1) (by omega) (Nat.le_refl _), if_neg Bool.false_ne_true]
      exact ih (by omega) fun n hlt hle => hgreatest n hlt (by omega)

/-- A search for the longest part of a marker at the end of the text finds what is held back. -/
lemma greatest_eq_heldBack {good : ℕ → Bool} {bound : ℕ} (hps : ps ≠ [])
    (hbound : (heldBack ps cs).length ≤ bound)
    (hgood : ∀ n, 0 < n → n < ps.length → n ≤ bound → (good n = true ↔
      ∃ ending, ending <:+ cs ∧ ending.length = n ∧ isPart ps ending = true)) :
    greatest good (min bound (ps.length - 1)) = (heldBack ps cs).length := by
  have hpart : isPart ps (heldBack ps cs) = true := isPart_heldBack hps
  have hlt : (heldBack ps cs).length < ps.length := by
    simp only [isPart, Bool.and_eq_true, decide_eq_true_eq] at hpart
    exact hpart.1
  refine greatest_eq (Nat.le_min.mpr ⟨hbound, by omega⟩) (fun hpos => ?_) fun n hn hle => ?_
  · exact (hgood _ hpos hlt hbound).mpr ⟨_, heldBack_suffix, rfl, hpart⟩
  · cases hgo : good n with
    | false => rfl
    | true =>
      obtain ⟨ending, hending, hlen, hp⟩ := (hgood n (by omega) (by omega) (by omega)).mp hgo
      have hmax := (suffix_heldBack hp hending).length_le
      omega

/-- A text that goes on is no part of a marker where it was none before. -/
lemma isPart_of_append (h : isPart ps (cs ++ ds) = true) : isPart ps cs = true := by
  unfold isPart at h ⊢
  simp only [Bool.and_eq_true, decide_eq_true_eq, List.length_append] at h ⊢
  have hstart : begins ((ps.take (cs.length + ds.length)).take cs.length) cs = true :=
    begins_take h.2 (by rw [List.length_take]; omega)
  rw [List.take_take, Nat.min_eq_left (by omega)] at hstart
  exact ⟨by omega, hstart⟩

/-- A text that goes on begins with a marker only where it did before, or is a part of it. -/
lemma begins_or_isPart (h : begins ps (cs ++ ds) = true) :
    begins ps cs = true ∨ isPart ps cs = true := by
  rcases Nat.lt_or_ge cs.length ps.length with hlen | hlen
  · exact .inr (by simpa [isPart, hlen] using begins_take h (Nat.le_of_lt hlen))
  · exact .inl (begins_of_append h hlen)

/-- A marker that stands nowhere does not stand at the first symbol. -/
lemma find_cons_eq_none {c : α} :
    find ps (c :: cs) = none ↔ begins ps (c :: cs) = false ∧ find ps cs = none := by
  rw [find]
  cases begins ps (c :: cs) <;> simp

/-- The marker is all in the text. -/
lemma length_le_of_find {j : ℕ} (h : find ps cs = some j) : j + ps.length ≤ cs.length := by
  induction cs generalizing j with
  | nil => exact nomatch h
  | cons c cs ih =>
    rw [find] at h
    split at h
    · rename_i hb
      cases h
      simpa using length_le_of_begins hb
    · obtain ⟨i, hi, rfl⟩ := Option.map_eq_some_iff.mp h
      have hrest := ih hi
      rw [List.length_cons]
      omega

/-- A marker at the first symbol is there before the text goes on, if it is all there. -/
lemma begins_append_eq_false (h : begins ps cs = false) (hlen : ps.length ≤ cs.length) :
    begins ps (cs ++ ds) = false := by
  rcases hgo : begins ps (cs ++ ds) with _ | _
  · rfl
  · exact absurd (begins_of_append hgo hlen) (by simp [h])

/-- A marker is found in the start of the text that holds all of it. -/
lemma find_take {j n : ℕ} (hps : ps ≠ []) (h : find ps cs = some j) (hn : j + ps.length ≤ n) :
    find ps (cs.take n) = some j := by
  induction cs generalizing j n with
  | nil => exact nomatch h
  | cons c cs ih =>
    obtain ⟨n, rfl⟩ : ∃ n', n = n' + 1 := by
      have hpos := List.length_pos_iff.mpr hps
      exact ⟨n - 1, by omega⟩
    have hsplit : (c :: cs.take n) ++ cs.drop n = c :: cs := by simp
    have hlen := length_le_of_find h
    have htake : ps.length ≤ (c :: cs.take n).length := by
      rw [List.length_cons] at hlen
      rw [List.length_cons, List.length_take]
      omega
    have hsame : begins ps (c :: cs.take n) = begins ps (c :: cs) := by
      rw [← hsplit]
      rcases hb : begins ps (c :: cs.take n) with _ | _
      · exact (begins_append_eq_false hb htake).symm
      · exact (begins_append hb).symm
    rw [find] at h
    rw [List.take_succ_cons, find, hsame]
    split at h
    · rename_i hb
      rw [if_pos hb]
      exact h
    · rename_i hb
      obtain ⟨i, hi, rfl⟩ := Option.map_eq_some_iff.mp h
      rw [if_neg hb, ih hi (by omega)]
      rfl

/-- A text that is not shorter than the marker is no part of it. -/
lemma isPart_eq_false (h : ps.length ≤ cs.length) : isPart ps cs = false := by
  simp [isPart, Nat.not_lt.mpr h]

/-- The marker is found at the same place when the text goes on. -/
lemma find_append_of_some {j : ℕ} (h : find ps cs = some j) : find ps (cs ++ ds) = some j := by
  induction cs generalizing j with
  | nil => exact nomatch h
  | cons c cs ih =>
    have hlen := length_le_of_find h
    rw [find] at h
    rw [List.cons_append, find]
    split at h
    · rename_i hb
      rw [← List.cons_append, if_pos (begins_append hb)]
      exact h
    · rename_i hb
      obtain ⟨i, hi, rfl⟩ := Option.map_eq_some_iff.mp h
      have hgo : begins ps (c :: cs ++ ds) = false :=
        begins_append_eq_false (by simpa using hb) (by omega)
      rw [List.cons_append] at hgo
      rw [hgo, ih hi]
      rfl

/-- What is held back goes on as the text does. -/
lemma heldBack_append : heldBack ps (heldBack ps cs ++ ds) = heldBack ps (cs ++ ds) := by
  induction cs with
  | nil => rfl
  | cons c cs ih =>
    by_cases hpart : isPart ps (c :: cs) = true
    · rw [heldBack_of_isPart hpart]
    · have hgo : isPart ps (c :: (cs ++ ds)) = false := by
        rcases hp : isPart ps (c :: (cs ++ ds)) with _ | _
        · rfl
        · exact absurd (isPart_of_append (show isPart ps (c :: cs ++ ds) = true from hp)) hpart
      rw [show heldBack ps (c :: cs) = heldBack ps cs from if_neg hpart, ih, List.cons_append,
        heldBack, hgo, if_neg Bool.false_ne_true]

/-- What is released goes on as the text does. -/
lemma released_append :
    released ps (cs ++ ds) = released ps cs ++ released ps (heldBack ps cs ++ ds) := by
  have hall : released ps (cs ++ ds) ++ heldBack ps (cs ++ ds) =
      released ps cs ++ released ps (heldBack ps cs ++ ds) ++
        heldBack ps (heldBack ps cs ++ ds) := by
    rw [released_append_heldBack, List.append_assoc, released_append_heldBack,
      ← List.append_assoc, released_append_heldBack]
  rw [heldBack_append] at hall
  exact List.append_cancel_right hall

/-- A marker that does not stand in a text is found in what is held back when the text goes
on. -/
lemma find_append (h : find ps cs = none) :
    find ps (cs ++ ds) = (find ps (heldBack ps cs ++ ds)).map (· + (released ps cs).length) := by
  induction cs with
  | nil => simp [heldBack, released]
  | cons c cs ih =>
    obtain ⟨hb, hnone⟩ := find_cons_eq_none.mp h
    by_cases hpart : isPart ps (c :: cs) = true
    · simp [heldBack_of_isPart hpart, released]
    · have hgo : begins ps (c :: (cs ++ ds)) = false := by
        rcases hgo : begins ps (c :: (cs ++ ds)) with _ | _
        · rfl
        · rcases begins_or_isPart (show begins ps ((c :: cs) ++ ds) = true from hgo) with hb' | hp
          · exact absurd hb' (by simp [hb])
          · exact absurd hp hpart
      rw [List.cons_append, find, hgo, if_neg Bool.false_ne_true, ih hnone,
        released_cons hpart, Option.map_map,
        show heldBack ps (c :: cs) = heldBack ps cs from if_neg hpart]
      rfl

/-- A text is found as a marker if it is a part of the text at hand. -/
lemma find_exactly_ne_none [BEq α] [LawfulBEq α] {marker : List α} (hne : marker ≠ []) :
    find (exactly marker) cs ≠ none ↔ marker <:+: cs := by
  induction cs with
  | nil => simp [find, hne]
  | cons c cs ih =>
    rw [find, begins_exactly, List.infix_cons_iff, ← ih, ← List.isPrefixOf_iff_prefix]
    cases marker.isPrefixOf (c :: cs) <;> simp

/-! ### Removing blocks -/

/-- Whether the text at hand is shown or belongs to a block. -/
inductive Mode where
  | shown
  | hidden
deriving DecidableEq, Repr

section Blocks

variable (opening closing : List (α → Bool))

/-- The text without the blocks between the markers, and without what follows an opening marker
that is not closed.  The number counts the symbols of a marker that are still to be passed. -/
def visible : Mode → ℕ → List α → List α
  | _, _, [] => []
  | m, k + 1, _ :: cs => visible m k cs
  | .shown, 0, c :: cs =>
    if begins opening (c :: cs) then visible .hidden (opening.length - 1) cs
    else c :: visible .shown 0 cs
  | .hidden, 0, c :: cs =>
    if begins closing (c :: cs) then visible .shown (closing.length - 1) cs
    else visible .hidden 0 cs

/-- The end of the text, if it is shown and a proper part of the opening marker. -/
def openEnd : Mode → ℕ → List α → List α
  | _, _, [] => []
  | m, k + 1, _ :: cs => openEnd m k cs
  | .shown, 0, c :: cs =>
    if begins opening (c :: cs) then openEnd .hidden (opening.length - 1) cs
    else if isPart opening (c :: cs) then c :: cs
    else openEnd .shown 0 cs
  | .hidden, 0, c :: cs =>
    if begins closing (c :: cs) then openEnd .shown (closing.length - 1) cs
    else openEnd .hidden 0 cs

/-- The marker that ends the current part of the text. -/
def Mode.marker : Mode → List (α → Bool)
  | .shown => opening
  | .hidden => closing

/-- The mode after that marker. -/
def Mode.next : Mode → Mode
  | .shown => .hidden
  | .hidden => .shown

/-- Reading on in a text: from a mode and what is left of the text to another, and what is shown
on the way. -/
inductive Reads : Mode → List α → List α → Mode → List α → Prop
  | refl (m : Mode) (cs : List α) : Reads m cs [] m cs
  | step {c : α} {cs out cs' : List α} {m : Mode} : begins opening (c :: cs) = false →
      isPart opening (c :: cs) = false → Reads .shown cs out m cs' →
      Reads .shown (c :: cs) (c :: out) m cs'
  | enter {cs out cs' : List α} {m : Mode} : begins opening cs = true →
      Reads .hidden (cs.drop opening.length) out m cs' → Reads .shown cs out m cs'
  | skip {c : α} {cs out cs' : List α} {m : Mode} : begins closing (c :: cs) = false →
      Reads .hidden cs out m cs' → Reads .hidden (c :: cs) out m cs'
  | leave {cs out cs' : List α} {m : Mode} : begins closing cs = true →
      Reads .shown (cs.drop closing.length) out m cs' → Reads .hidden cs out m cs'

variable {opening closing} {m m' m'' : Mode} {out out' cs' cs'' : List α}

lemma visible_skip (k : ℕ) :
    visible opening closing m k cs = visible opening closing m 0 (cs.drop k) := by
  induction cs generalizing k with
  | nil => cases k <;> cases m <;> simp [visible]
  | cons c cs ih =>
    cases k with
    | zero => rfl
    | succ k => simpa [visible] using ih k

lemma openEnd_skip (k : ℕ) :
    openEnd opening closing m k cs = openEnd opening closing m 0 (cs.drop k) := by
  induction cs generalizing k with
  | nil => cases k <;> cases m <;> simp [openEnd]
  | cons c cs ih =>
    cases k with
    | zero => rfl
    | succ k => simpa [openEnd] using ih k

/-- A marker that is passed is gone with its symbols. -/
lemma drop_marker {c : α} (h : ps ≠ []) : (c :: cs).drop ps.length = cs.drop (ps.length - 1) := by
  cases ps with
  | nil => exact absurd rfl h
  | cons p ps => simp

/-- What is shown of the text is what is shown on the way and what is shown of the rest. -/
theorem Reads.visible_eq (ho : opening ≠ []) (hc : closing ≠ [])
    (h : Reads opening closing m cs out m' cs') :
    visible opening closing m 0 cs = out ++ visible opening closing m' 0 cs' := by
  induction h with
  | refl m cs => rfl
  | step hb _ _ ih => simp [visible, hb, ih]
  | @enter cs out cs' m hb _ ih =>
    cases cs with
    | nil => exact absurd hb (by simp [not_begins_nil ho])
    | cons c cs =>
      rw [drop_marker ho, ← visible_skip] at ih
      simpa [visible, hb] using ih
  | skip hb _ ih => simpa [visible, hb] using ih
  | @leave cs out cs' m hb _ ih =>
    cases cs with
    | nil => exact absurd hb (by simp [not_begins_nil hc])
    | cons c cs =>
      rw [drop_marker hc, ← visible_skip] at ih
      simpa [visible, hb] using ih

/-- The end of the text is the end of the rest. -/
theorem Reads.openEnd_eq (ho : opening ≠ []) (hc : closing ≠ [])
    (h : Reads opening closing m cs out m' cs') :
    openEnd opening closing m 0 cs = openEnd opening closing m' 0 cs' := by
  induction h with
  | refl m cs => rfl
  | step hb hp _ ih => simp [openEnd, hb, hp, ih]
  | @enter cs out cs' m hb _ ih =>
    cases cs with
    | nil => exact absurd hb (by simp [not_begins_nil ho])
    | cons c cs =>
      rw [drop_marker ho, ← openEnd_skip] at ih
      simpa [openEnd, hb] using ih
  | skip hb _ ih => simpa [openEnd, hb] using ih
  | @leave cs out cs' m hb _ ih =>
    cases cs with
    | nil => exact absurd hb (by simp [not_begins_nil hc])
    | cons c cs =>
      rw [drop_marker hc, ← openEnd_skip] at ih
      simpa [openEnd, hb] using ih

lemma Reads.trans (h : Reads opening closing m cs out m' cs')
    (h' : Reads opening closing m' cs' out' m'' cs'') :
    Reads opening closing m cs (out ++ out') m'' cs'' := by
  induction h with
  | refl m cs => exact h'
  | step hb hp _ ih => exact .step hb hp (ih h')
  | enter hb _ ih => exact .enter hb (ih h')
  | skip hb _ ih => exact .skip hb (ih h')
  | leave hb _ ih => exact .leave hb (ih h')

/-- Without an opening marker, all but what is held back is shown. -/
lemma reads_released (h : find opening cs = none) :
    Reads opening closing .shown (cs ++ ds) (released opening cs) .shown
      (heldBack opening cs ++ ds) := by
  induction cs with
  | nil => exact .refl _ _
  | cons c cs ih =>
    obtain ⟨hb, hnone⟩ := find_cons_eq_none.mp h
    by_cases hpart : isPart opening (c :: cs) = true
    · simpa [released, heldBack_of_isPart hpart] using Reads.refl .shown (c :: cs ++ ds)
    · have hheld : heldBack opening (c :: cs) = heldBack opening cs := if_neg hpart
      rw [released_cons hpart, hheld]
      refine .step ?_ ?_ (ih hnone)
      · rcases hgo : begins opening (c :: cs ++ ds) with _ | _
        · exact hgo
        · rcases begins_or_isPart hgo with hb' | hp
          · exact absurd hb' (by simp [hb])
          · exact absurd hp hpart
      · rcases hgo : isPart opening (c :: cs ++ ds) with _ | _
        · exact hgo
        · exact absurd (isPart_of_append hgo) hpart

/-- Without a closing marker nothing is shown, and what is held back is left. -/
lemma reads_hidden (h : find closing cs = none) :
    Reads opening closing .hidden (cs ++ ds) [] .hidden (heldBack closing cs ++ ds) := by
  induction cs with
  | nil => exact .refl _ _
  | cons c cs ih =>
    obtain ⟨hb, hnone⟩ := find_cons_eq_none.mp h
    by_cases hpart : isPart closing (c :: cs) = true
    · simpa [heldBack_of_isPart hpart] using Reads.refl .hidden (c :: cs ++ ds)
    · rw [show heldBack closing (c :: cs) = heldBack closing cs from if_neg hpart]
      refine .skip ?_ (ih hnone)
      rcases hgo : begins closing (c :: cs ++ ds) with _ | _
      · exact hgo
      · rcases begins_or_isPart hgo with hb' | hp
        · exact absurd hb' (by simp [hb])
        · exact absurd hp hpart

/-- What stands before the opening marker is shown. -/
lemma reads_entered {j : ℕ} (h : find opening cs = some j) :
    Reads opening closing .shown (cs ++ ds) (cs.take j) .hidden
      (cs.drop (j + opening.length) ++ ds) := by
  induction cs generalizing j with
  | nil => exact nomatch h
  | cons c cs ih =>
    have hlen := length_le_of_find h
    rw [find] at h
    split at h
    · rename_i hb
      cases h
      refine .enter (begins_append hb) ?_
      rw [List.drop_append_of_le_length (length_le_of_begins hb), Nat.zero_add]
      exact .refl _ _
    · rename_i hb
      obtain ⟨i, hi, rfl⟩ := Option.map_eq_some_iff.mp h
      have hall : opening.length ≤ (c :: cs).length := by omega
      rw [List.take_succ_cons, Nat.add_right_comm, List.drop_succ_cons]
      refine .step (begins_append_eq_false (by simpa using hb) hall) ?_ (ih hi)
      refine isPart_eq_false (Nat.le_trans hall ?_)
      show (c :: cs).length ≤ (c :: cs ++ ds).length
      simp

/-- What stands before the closing marker is not shown. -/
lemma reads_left {j : ℕ} (h : find closing cs = some j) :
    Reads opening closing .hidden (cs ++ ds) [] .shown
      (cs.drop (j + closing.length) ++ ds) := by
  induction cs generalizing j with
  | nil => exact nomatch h
  | cons c cs ih =>
    have hlen := length_le_of_find h
    rw [find] at h
    split at h
    · rename_i hb
      cases h
      refine .leave (begins_append hb) ?_
      rw [List.drop_append_of_le_length (length_le_of_begins hb), Nat.zero_add]
      exact .refl _ _
    · rename_i hb
      obtain ⟨i, hi, rfl⟩ := Option.map_eq_some_iff.mp h
      have hall : closing.length ≤ (c :: cs).length := by omega
      rw [Nat.add_right_comm, List.drop_succ_cons]
      exact .skip (begins_append_eq_false (by simpa using hb) hall) (ih hi)

/-! ### Texts without a marker -/

lemma visible_of_find_none (h : find opening cs = none) :
    visible opening closing .shown 0 cs = cs := by
  induction cs with
  | nil => rfl
  | cons c cs ih =>
    obtain ⟨hb, hnone⟩ := find_cons_eq_none.mp h
    simp [visible, hb, ih hnone]

lemma visible_hidden_of_find_none (h : find closing cs = none) :
    visible opening closing .hidden 0 cs = [] := by
  induction cs with
  | nil => rfl
  | cons c cs ih =>
    obtain ⟨hb, hnone⟩ := find_cons_eq_none.mp h
    simp [visible, hb, ih hnone]

lemma openEnd_hidden_of_find_none (h : find closing cs = none) :
    openEnd opening closing .hidden 0 cs = [] := by
  induction cs with
  | nil => rfl
  | cons c cs ih =>
    obtain ⟨hb, hnone⟩ := find_cons_eq_none.mp h
    simp [openEnd, hb, ih hnone]

/-- Too short a text holds no marker. -/
lemma find_of_short (h : cs.length < ps.length) : find ps cs = none := by
  cases hfind : find ps cs with
  | none => rfl
  | some j =>
    have hlen := length_le_of_find hfind
    omega

/-- A part of the opening marker is the end of the text. -/
lemma openEnd_of_isPart (h : isPart opening cs = true) :
    openEnd opening closing .shown 0 cs = cs := by
  cases cs with
  | nil => rfl
  | cons c cs =>
    have hshort : (c :: cs).length < opening.length := by
      simp only [isPart, Bool.and_eq_true, decide_eq_true_eq] at h
      exact h.1
    have hb := (find_cons_eq_none.mp (find_of_short hshort)).1
    simp [openEnd, hb, h]

/-- The end is a part of the opening marker. -/
lemma isPart_openEnd (h : opening ≠ []) {k : ℕ} :
    isPart opening (openEnd opening closing m k cs) = true := by
  induction cs generalizing m k with
  | nil =>
    have hnil : openEnd opening closing m k [] = [] := by cases k <;> cases m <;> rfl
    rw [hnil]
    exact isPart_nil h
  | cons c cs ih =>
    cases k with
    | succ k => cases m <;> exact ih
    | zero =>
      cases m with
      | shown =>
        rw [openEnd]
        split
        · exact ih
        · split
          · assumption
          · exact ih
      | hidden =>
        rw [openEnd]
        split <;> exact ih

/-- Symbols with which no opening marker begins are shown. -/
lemma reads_plain {p : α → Bool} {us : List α} (hp : ∀ c ∈ us, p c = false) :
    Reads (p :: ps) closing .shown (us ++ cs) us .shown cs := by
  induction us with
  | nil => exact .refl _ _
  | cons u us ih =>
    have hu := hp u List.mem_cons_self
    refine .step ?_ ?_ (ih fun c hc => hp c (List.mem_cons_of_mem u hc))
    · simp [begins, hu]
    · simp [isPart, begins, hu]

/-- Symbols with which no closing marker begins leave the text hidden. -/
lemma reads_hidden_plain {p : α → Bool} {us : List α} (hp : ∀ c ∈ us, p c = false) :
    Reads opening (p :: ps) .hidden (us ++ cs) [] .hidden cs := by
  induction us with
  | nil => exact .refl _ _
  | cons u us ih =>
    have hu := hp u List.mem_cons_self
    refine .skip ?_ (ih fun c hc => hp c (List.mem_cons_of_mem u hc))
    simp [begins, hu]

end Blocks

end Markers
