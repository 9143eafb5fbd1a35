import Trion.Llm.ReasoningSanitizer

/-!
# Which texts are filtered however they are cut

A text comes out of the filter without its `<think>` blocks, in whatever chunks it arrives, just
where two things do not happen: it does not end, outside a block, in what may be the start of a
tag, which is never released; and no capital I with a dot, whose lower case is two characters
long, moves the place at which a tag is found and the buffer is cut.
-/

namespace Trion.Llm

open Trion.Python Markers

/-! ### The two tags -/

section Tags

variable (t : LowerCase)

/-- The tag that ends a part of the text. -/
def tagText : Mode → List Char
  | .shown => openTag
  | .hidden => closeTag

/-- The tag that ends a part of the text, in any letter case. -/
def tag (m : Mode) : List (Char → Bool) := m.marker (t.anyCase openTag) (t.anyCase closeTag)

/-- Reading on in a text with the two tags. -/
abbrev ReadsOn (t : LowerCase) : Mode → List Char → List Char → Mode → List Char → Prop :=
  Reads (t.anyCase openTag) (t.anyCase closeTag)

variable {t} {m : Mode} {c : Char} {cs ds out : List Char}

lemma tag_eq : tag t m = t.anyCase (tagText m) := by cases m <;> rfl

lemma tag_length : (tag t m).length = (tagText m).length := by
  rw [tag_eq, length_anyCase]

lemma tag_shown_length : (tag t .shown).length = openTag.length := tag_length

lemma tag_hidden_length : (tag t .hidden).length = closeTag.length := tag_length

lemma tagText_lower : IsLowerAscii (tagText m) := by cases m <;> decide

lemma tagText_ascii : ∀ d ∈ tagText m, IsAscii d := fun d hd => (tagText_lower d hd).1

lemma tagText_ne_nil : tagText m ≠ [] := by cases m <;> decide

lemma tag_ne_nil : tag t m ≠ [] := by
  rw [tag_eq, LowerCase.anyCase]
  exact fun h => tagText_ne_nil (List.map_eq_nil_iff.mp h)

lemma tagText_last : (tagText m).getLast? ≠ some 'i' := by cases m <;> decide

lemma two_le_length : 2 ≤ (tag t m).length := by
  rw [tag_length]
  cases m <;> decide

/-- No dotted capital belongs to a part of a tag. -/
lemma notMem_of_isPart (h : isPart (tag t m) cs = true) : 'İ' ∉ cs := by
  intro hmem
  simp only [isPart, Bool.and_eq_true, decide_eq_true_eq] at h
  obtain ⟨hlen, hb⟩ := h
  have hall : 'İ' ∈ cs.take ((tag t m).take cs.length).length := by
    rw [List.length_take, Nat.min_eq_left (Nat.le_of_lt hlen), List.take_length]
    exact hmem
  obtain ⟨p, hp, hpc⟩ := exists_of_begins hb hall
  rw [tag_eq] at hp
  exact ne_dotted_of_mem (List.mem_of_mem_take hp) hpc rfl

/-- A tag is found in the lower case at its place, moved by the dotted capitals before it. -/
lemma findText_lower : findText (tagText m) (t.lower cs) =
    (find (tag t m) cs).map fun j => j + dottedCount (cs.take j) := by
  rw [tag_eq]
  exact findText_lowerFrom tagText_ne_nil tagText_ascii tagText_last

end Tags

/-! ### What is kept back -/

section Kept

variable {t : LowerCase} {m : Mode} {cs : List Char} {n : ℕ}

/-- The lower case ends in a start of the tag where the text ends in a part of it. -/
lemma take_suffix_lower_iff (hpos : 0 < n) (hn : n < (tag t m).length) :
    (tagText m).take n <:+ t.lower cs ↔
      ∃ ending, ending <:+ cs ∧ ending.length = n ∧ isPart (tag t m) ending = true := by
  have hlen : ((tagText m).take n).length = n := by
    rw [List.length_take, ← tag_length (t := t)]
    omega
  have hne : (tagText m).take n ≠ [] := by
    intro h
    rw [h, List.length_nil] at hlen
    omega
  have hascii : ∀ d ∈ (tagText m).take n, IsAscii d := fun d hd =>
    tagText_ascii d (List.mem_of_mem_take hd)
  rw [LowerCase.lower, suffix_lowerFrom_iff hne hascii, hlen]
  have hpart : ∀ ending : List Char, ending.length = n →
      (begins (t.anyCase ((tagText m).take n)) ending = true ↔
        isPart (tag t m) ending = true) := by
    intro ending hending
    rw [isPart, hending, tag_eq, LowerCase.anyCase, List.map_take]
    rw [tag_length] at hn
    simp [LowerCase.anyCase, hn]
  constructor
  · rintro ⟨ending, hsuffix, hending, hb⟩
    exact ⟨ending, hsuffix, hending, (hpart ending hending).mp hb⟩
  · rintro ⟨ending, hsuffix, hending, hp⟩
    exact ⟨ending, hsuffix, hending, (hpart ending hending).mpr hp⟩

lemma lt_length_of_isPart {ps : List (Char → Bool)} (h : isPart ps cs = true) :
    cs.length < ps.length := by
  simp only [isPart, Bool.and_eq_true, decide_eq_true_eq] at h
  exact h.1

/-- What is kept is the longest end that is a part of the tag. -/
lemma longestMarkerPrefixSuffix_eq :
    longestMarkerPrefixSuffix t cs (tagText m) = (heldBack (tag t m) cs).length := by
  have hpart : isPart (tag t m) (heldBack (tag t m) cs) = true := isPart_heldBack tag_ne_nil
  have hlt := lt_length_of_isPart hpart
  have hbound : (heldBack (tag t m) cs).length ≤ (t.lower cs).length := by
    rcases Nat.eq_zero_or_pos (heldBack (tag t m) cs).length with h0 | hpos
    · omega
    · have hsuffix := (take_suffix_lower_iff hpos hlt).mpr ⟨_, heldBack_suffix, rfl, hpart⟩
      have hle := hsuffix.length_le
      rw [tag_length] at hlt
      rwa [List.length_take, Nat.min_eq_left (by omega)] at hle
  rw [longestMarkerPrefixSuffix, lower_eq_self tagText_lower, ← tag_length (t := t)]
  refine greatest_eq_heldBack tag_ne_nil hbound fun n hpos hn _ => ?_
  rw [List.isSuffixOf_iff_suffix]
  exact take_suffix_lower_iff hpos hn

lemma splitSafePrefix_eq :
    splitSafePrefix t cs (tagText m) = (released (tag t m) cs, heldBack (tag t m) cs) := by
  unfold splitSafePrefix
  rw [longestMarkerPrefixSuffix_eq]
  dsimp only
  split
  · rename_i h
    have hnone : heldBack (tag t m) cs = [] := List.length_eq_zero_iff.mp h
    rw [released, hnone]
    simp
  · rw [drop_eq_heldBack, released]

lemma keepPossiblePrefix_eq : keepPossiblePrefix t cs (tagText m) = heldBack (tag t m) cs := by
  unfold keepPossiblePrefix
  rw [longestMarkerPrefixSuffix_eq]
  dsimp only
  split
  · rw [drop_eq_heldBack]
  · rename_i h
    exact (List.length_eq_zero_iff.mp (by omega)).symm

end Kept

/-! ### Tags that are not displaced -/

section Displacement

variable (t : LowerCase)

/-- No tag is found at a wrong place, however the text is cut: before a tag, in the part of the
text that it ends, there is no dotted capital, or it is a closing tag and nothing follows.  The
flag says that there is a dotted capital in the part already, and the number counts the
characters of a tag that are still to be passed. -/
def undisplaced : Mode → Bool → ℕ → List Char → Bool
  | _, _, _, [] => true
  | m, dotted, k + 1, _ :: cs => undisplaced m dotted k cs
  | m, dotted, 0, c :: cs =>
    if begins (tag t m) (c :: cs) then
      (!dotted || m == .hidden && (cs.drop ((tag t m).length - 1)).isEmpty) &&
        undisplaced m.next false ((tag t m).length - 1) cs
    else undisplaced m (dotted || c == 'İ') 0 cs

variable {t} {m m' : Mode} {dotted : Bool} {k j : ℕ} {c : Char} {cs ds out cs' : List Char}

lemma undisplaced_skip :
    undisplaced t m dotted k cs = undisplaced t m dotted 0 (cs.drop k) := by
  induction cs generalizing k with
  | nil => cases k <;> simp [undisplaced]
  | cons c cs ih =>
    cases k with
    | zero => rfl
    | succ k => simpa [undisplaced] using ih (k := k)

lemma undisplaced_begins (hb : begins (tag t m) (c :: cs) = true) :
    undisplaced t m dotted 0 (c :: cs) =
      ((!dotted || m == .hidden && ((c :: cs).drop (tag t m).length).isEmpty) &&
        undisplaced t m.next false 0 ((c :: cs).drop (tag t m).length)) := by
  rw [undisplaced, if_pos hb, drop_marker tag_ne_nil, undisplaced_skip]

lemma undisplaced_next (hb : begins (tag t m) (c :: cs) = false) :
    undisplaced t m dotted 0 (c :: cs) = undisplaced t m (dotted || c == 'İ') 0 cs := by
  rw [undisplaced, if_neg (by simp [hb])]

/-- A text is better off without the dotted capitals before it. -/
lemma undisplaced_mono (h : undisplaced t m dotted 0 cs = true) :
    undisplaced t m false 0 cs = true := by
  induction cs generalizing dotted with
  | nil => rfl
  | cons c cs ih =>
    rcases hb : begins (tag t m) (c :: cs) with _ | _
    · rw [undisplaced_next hb] at h ⊢
      cases hc : c == 'İ' with
      | false =>
        rw [hc, Bool.or_false] at h
        exact ih h
      | true =>
        rw [hc, Bool.or_true] at h
        exact h
    · rw [undisplaced_begins hb] at h ⊢
      simp only [Bool.not_false, Bool.true_or, Bool.true_and]
      exact (Bool.and_eq_true_iff.mp h).2

/-- Too short a text holds no tag. -/
lemma undisplaced_of_short (h : cs.length < (tag t m).length) :
    undisplaced t m dotted 0 cs = true := by
  induction cs generalizing dotted with
  | nil => rfl
  | cons c cs ih =>
    have hb : begins (tag t m) (c :: cs) = false := by
      rcases hgo : begins (tag t m) (c :: cs) with _ | _
      · rfl
      · exact absurd (length_le_of_begins hgo) (Nat.not_le.mpr h)
    rw [undisplaced_next hb]
    exact ih (Nat.lt_of_succ_lt h)

/-- What holds of a text holds of its start. -/
lemma undisplaced_of_append (h : undisplaced t m dotted k (cs ++ ds) = true) :
    undisplaced t m dotted k cs = true := by
  induction cs generalizing m dotted k with
  | nil => cases k <;> rfl
  | cons c cs ih =>
    cases k with
    | succ k => exact ih h
    | zero =>
      rcases hb : begins (tag t m) (c :: cs) with _ | _
      · rw [undisplaced_next hb]
        rcases hgo : begins (tag t m) (c :: cs ++ ds) with _ | _
        · exact ih ((undisplaced_next hgo).symm.trans h)
        · have hshort : (c :: cs).length < (tag t m).length := by
            refine Nat.lt_of_not_le fun hlen => ?_
            exact absurd (begins_of_append hgo hlen) (by simp [hb])
          exact undisplaced_of_short (Nat.lt_of_succ_lt hshort)
      · have hgo : begins (tag t m) (c :: cs ++ ds) = true := begins_append hb
        rw [List.cons_append] at h hgo
        rw [undisplaced, if_pos hgo] at h
        rw [undisplaced, if_pos hb]
        simp only [Bool.and_eq_true, Bool.or_eq_true, List.isEmpty_iff] at h ⊢
        refine ⟨h.1.imp_right fun hlast => ⟨hlast.1, ?_⟩, ih h.2⟩
        have hlen := congrArg List.length hlast.2
        rw [List.length_drop, List.length_append, List.length_nil] at hlen
        rw [← List.length_eq_zero_iff, List.length_drop]
        omega

/-- Reading on keeps the tags in place. -/
lemma undisplaced_of_reads
    (hreads : ReadsOn t m cs out m' cs')
    (h : undisplaced t m dotted 0 cs = true) : undisplaced t m' false 0 cs' = true := by
  induction hreads generalizing dotted with
  | refl m cs => exact undisplaced_mono h
  | step hb _ _ ih => exact ih ((undisplaced_next (m := .shown) hb).symm.trans h)
  | @enter cs out cs' m hb _ ih =>
    cases cs with
    | nil => exact absurd ((not_begins_nil (tag_ne_nil (m := .shown))).symm.trans hb) (by simp)
    | cons c cs =>
      rw [undisplaced_begins (m := .shown) hb] at h
      exact ih (Bool.and_eq_true_iff.mp h).2
  | skip hb _ ih => exact ih ((undisplaced_next (m := .hidden) hb).symm.trans h)
  | @leave cs out cs' m hb _ ih =>
    cases cs with
    | nil => exact absurd ((not_begins_nil (tag_ne_nil (m := .hidden))).symm.trans hb) (by simp)
    | cons c cs =>
      rw [undisplaced_begins (m := .hidden) hb] at h
      exact ih (Bool.and_eq_true_iff.mp h).2

/-- Where the tags are in place, the next one is found where it stands, or it is a closing tag
and nothing follows. -/
lemma place_of_undisplaced (h : undisplaced t m dotted 0 cs = true)
    (hfind : find (tag t m) cs = some j) :
    dotted = false ∧ dottedCount (cs.take j) = 0 ∨
      m = .hidden ∧ cs.drop (j + (tag t m).length) = [] := by
  induction cs generalizing dotted j with
  | nil => cases hfind
  | cons c cs ih =>
    rw [find] at hfind
    rcases hb : begins (tag t m) (c :: cs) with _ | _
    · rw [hb] at hfind
      obtain ⟨i, hi, rfl⟩ := Option.map_eq_some_iff.mp hfind
      rw [undisplaced_next hb] at h
      rw [Nat.add_right_comm, List.drop_succ_cons]
      refine (ih h hi).imp_left fun hbefore => ?_
      obtain ⟨hnone, hcount⟩ := hbefore
      rw [Bool.or_eq_false_iff] at hnone
      refine ⟨hnone.1, ?_⟩
      rw [List.take_succ_cons, dottedCount, List.count_cons, hnone.2]
      exact hcount
    · rw [hb] at hfind
      cases hfind
      rw [undisplaced_begins hb, Bool.and_eq_true, Bool.or_eq_true] at h
      rw [Nat.zero_add]
      rcases h.1 with hnone | hlast
      · exact .inl ⟨by simpa using hnone, rfl⟩
      · exact .inr (by simpa using hlast)

/-- Where some tag is displaced, it is the next one, or one after it. -/
lemma exists_displaced (h : undisplaced t m dotted 0 cs = false) :
    ∃ j, find (tag t m) cs = some j ∧
      ((dotted = true ∨ 0 < dottedCount (cs.take j)) ∧
          (m = .hidden → cs.drop (j + (tag t m).length) ≠ []) ∨
        undisplaced t m.next false 0 (cs.drop (j + (tag t m).length)) = false) := by
  induction cs generalizing dotted with
  | nil => cases h
  | cons c cs ih =>
    rw [find]
    rcases hb : begins (tag t m) (c :: cs) with _ | _
    · rw [undisplaced_next hb] at h
      obtain ⟨j, hj, hcases⟩ := ih h
      refine ⟨j + 1, by simp [hj], ?_⟩
      rw [Nat.add_right_comm, List.drop_succ_cons]
      refine hcases.imp_left fun hleft => ⟨?_, hleft.2⟩
      rw [List.take_succ_cons, dottedCount, List.count_cons]
      rcases hleft.1 with hdot | hdot
      · rcases Bool.or_eq_true_iff.mp hdot with hdot | hdot
        · exact .inl hdot
        · exact .inr (by simp [hdot])
      · exact .inr (Nat.lt_of_lt_of_le hdot (Nat.le_add_right _ _))
    · refine ⟨0, rfl, ?_⟩
      rw [undisplaced_begins hb, Bool.and_eq_false_iff] at h
      rw [Nat.zero_add]
      refine h.imp_left fun h => ?_
      simp only [Bool.or_eq_false_iff, Bool.not_eq_false', Bool.and_eq_false_iff] at h
      refine ⟨.inl h.1, ?_⟩
      rintro rfl hnil
      rw [hnil] at h
      simp at h

/-- A dotted capital at the end of the text displaces nothing. -/
lemma undisplaced_append_singleton (h : 'İ' ∉ cs) :
    undisplaced t m false k (cs ++ [c]) = true := by
  induction cs generalizing m k with
  | nil =>
    cases k with
    | zero =>
      refine undisplaced_of_short ?_
      exact Nat.lt_of_lt_of_le (by simp) (two_le_length (t := t) (m := m))
    | succ k => cases k <;> rfl
  | cons d cs ih =>
    have hrest : 'İ' ∉ cs := fun hmem => h (List.mem_cons_of_mem d hmem)
    have hd : (d == 'İ') = false := by
      simpa using fun heq : d = 'İ' => h (heq ▸ List.mem_cons_self)
    cases k with
    | succ k => exact ih hrest
    | zero =>
      rcases hb : begins (tag t m) (d :: (cs ++ [c])) with _ | _
      · rw [List.cons_append, undisplaced_next hb, hd]
        exact ih hrest
      · rw [List.cons_append, undisplaced, if_pos hb]
        simpa using ih hrest

end Displacement

/-! ### Feeding -/

/-- The part of the text that is being read. -/
def StreamingReasoningSanitizer.mode (s : StreamingReasoningSanitizer) : Mode :=
  if s.insideThink then .hidden else .shown

/-- Only a proper part of the next tag is buffered. -/
def StreamingReasoningSanitizer.Pending (t : LowerCase) (s : StreamingReasoningSanitizer) : Prop :=
  isPart (tag t s.mode) s.buffer = true

section Feeding

variable {t : LowerCase} {s s' : StreamingReasoningSanitizer} {m : Mode} {rounds : ℕ}
  {chunk cs rest : List Char} {out pieces : List (List Char)} {chunks : List (List Char)}

/-- Reading on in the text to come, with what the filter emits. -/
def FeedReads (t : LowerCase) (s : StreamingReasoningSanitizer) (emitted : List Char)
    (s' : StreamingReasoningSanitizer) : Prop :=
  ∀ rest, ReadsOn t s.mode (s.buffer ++ rest) emitted s'.mode (s'.buffer ++ rest)

lemma flatten_append_ne_nil {emit : List Char} :
    (if emit = [] then out else out ++ [emit]).flatten = out.flatten ++ emit := by
  split
  · rename_i h
    simp [h]
  · simp

lemma feedLoop_nil {inside : Bool} :
    feedLoop t (rounds + 1) ⟨[], inside⟩ out = (⟨[], inside⟩, out) := if_pos rfl

/-- A round without a closing tag. -/
lemma feedLoop_hidden (hne : cs ≠ []) (h : find (tag t .hidden) cs = none) :
    feedLoop t (rounds + 1) ⟨cs, true⟩ out = (⟨heldBack (tag t .hidden) cs, true⟩, out) := by
  have hnone : findText closeTag (t.lower cs) = none := by
    rw [show closeTag = tagText .hidden from rfl, findText_lower, h, Option.map_none]
  have hkeep : keepPossiblePrefix t cs closeTag = heldBack (tag t .hidden) cs :=
    keepPossiblePrefix_eq (m := .hidden)
  simp [feedLoop, hne, hnone, hkeep]

/-- A round with a closing tag. -/
lemma feedLoop_leave {j : ℕ} (h : find (tag t .hidden) cs = some j) :
    feedLoop t (rounds + 1) ⟨cs, true⟩ out =
      feedLoop t rounds ⟨cs.drop (j + dottedCount (cs.take j) + closeTag.length), false⟩ out := by
  have hne : cs ≠ [] := by
    rintro rfl
    exact nomatch h
  have hsome : findText closeTag (t.lower cs) = some (j + dottedCount (cs.take j)) := by
    rw [show closeTag = tagText .hidden from rfl, findText_lower, h, Option.map_some]
  simp [feedLoop, hne, hsome]

/-- A round without an opening tag. -/
lemma feedLoop_shown (hne : cs ≠ []) (h : find (tag t .shown) cs = none) :
    feedLoop t (rounds + 1) ⟨cs, false⟩ out =
      (⟨heldBack (tag t .shown) cs, false⟩,
        if released (tag t .shown) cs = [] then out else out ++ [released (tag t .shown) cs]) := by
  have hnone : findText openTag (t.lower cs) = none := by
    rw [show openTag = tagText .shown from rfl, findText_lower, h, Option.map_none]
  have hsplit : splitSafePrefix t cs openTag =
      (released (tag t .shown) cs, heldBack (tag t .shown) cs) :=
    splitSafePrefix_eq (m := .shown)
  simp [feedLoop, hne, hnone, hsplit]

/-- A round with an opening tag. -/
lemma feedLoop_enter (rounds : ℕ) (out : List (List Char)) {j : ℕ}
    (h : find (tag t .shown) cs = some j) :
    ∃ out', out'.flatten = out.flatten ++ cs.take (j + dottedCount (cs.take j)) ∧
      feedLoop t (rounds + 1) ⟨cs, false⟩ out =
        feedLoop t rounds ⟨cs.drop (j + dottedCount (cs.take j) + openTag.length), true⟩ out' := by
  have hne : cs ≠ [] := by
    rintro rfl
    exact nomatch h
  have hsome : findText openTag (t.lower cs) = some (j + dottedCount (cs.take j)) := by
    rw [show openTag = tagText .shown from rfl, findText_lower, h, Option.map_some]
  refine ⟨if 0 < j + dottedCount (cs.take j) then
    out ++ [cs.take (j + dottedCount (cs.take j))] else out, ?_, ?_⟩
  · split
    · simp
    · rename_i hzero
      have hsum : j + dottedCount (cs.take j) = 0 := Nat.eq_zero_of_not_pos hzero
      rw [hsum]
      simp
  · simp [feedLoop, hne, hsome]

/-- Where no tag is displaced, a loop reads on in the text, emits what is shown on the way, and
buffers a part of the next tag. -/
lemma feedLoop_reads (out : List (List Char)) (hrounds : s.buffer.length < rounds)
    (h : undisplaced t s.mode false 0 s.buffer = true) :
    ∃ emitted, (feedLoop t rounds s out).2.flatten = out.flatten ++ emitted ∧
      FeedReads t s emitted (feedLoop t rounds s out).1 ∧
      (feedLoop t rounds s out).1.Pending t := by
  induction rounds generalizing s out with
  | zero => exact absurd hrounds (Nat.not_lt_zero _)
  | succ rounds ih =>
    obtain ⟨buffer, inside⟩ := s
    by_cases hnil : buffer = []
    · subst hnil
      rw [feedLoop_nil]
      exact ⟨[], by simp, fun rest => .refl _ _, isPart_nil tag_ne_nil⟩
    have hshorter : ∀ n, 0 < n → (buffer.drop n).length < rounds := by
      intro n hn
      have hpos := List.length_pos_iff.mpr hnil
      rw [List.length_drop]
      simp only at hrounds
      omega
    cases inside with
    | true =>
      change undisplaced t .hidden false 0 buffer = true at h
      cases hfind : find (tag t .hidden) buffer with
      | none =>
        rw [feedLoop_hidden hnil hfind]
        exact ⟨[], by simp, fun rest => reads_hidden hfind, isPart_heldBack tag_ne_nil⟩
      | some j =>
        rw [feedLoop_leave hfind]
        -- the cut is at the end of the tag, or the tag is all there is
        have hcut : buffer.drop (j + dottedCount (buffer.take j) + closeTag.length) =
            buffer.drop (j + (tag t .hidden).length) := by
          rw [tag_length]
          rcases place_of_undisplaced h hfind with ⟨-, hcount⟩ | ⟨-, hlast⟩
          · rw [hcount]
            rfl
          · rw [tag_length] at hlast
            rw [hlast, List.drop_eq_nil_iff]
            have hlen := List.drop_eq_nil_iff.mp hlast
            simp only [tagText] at hlen
            omega
        rw [hcut]
        have hreads : ∀ rest, ReadsOn t .hidden (buffer ++ rest) [] .shown
            (buffer.drop (j + (tag t .hidden).length) ++ rest) :=
          fun rest => reads_left hfind
        have hrest : undisplaced t .shown false 0
            (buffer.drop (j + (tag t .hidden).length)) = true :=
          undisplaced_of_reads (by simpa using hreads []) h
        obtain ⟨emitted, hout, hon, hpending⟩ :=
          ih (s := ⟨buffer.drop (j + (tag t .hidden).length), false⟩) out
            (hshorter _ (Nat.add_pos_right _ (List.length_pos_iff.mpr tag_ne_nil))) hrest
        exact ⟨emitted, hout, fun rest => (hreads rest).trans (hon rest), hpending⟩
    | false =>
      change undisplaced t .shown false 0 buffer = true at h
      cases hfind : find (tag t .shown) buffer with
      | none =>
        rw [feedLoop_shown hnil hfind]
        exact ⟨_, flatten_append_ne_nil, fun rest => reads_released hfind,
          isPart_heldBack tag_ne_nil⟩
      | some j =>
        obtain ⟨out', hout', hloop⟩ := feedLoop_enter rounds out hfind
        have hcount : dottedCount (buffer.take j) = 0 := by
          rcases place_of_undisplaced h hfind with ⟨-, hcount⟩ | ⟨hmode, -⟩
          · exact hcount
          · exact nomatch hmode
        simp only [hcount, Nat.add_zero] at hout' hloop
        rw [hloop]
        have hreads : ∀ rest, ReadsOn t .shown (buffer ++ rest) (buffer.take j) .hidden
            (buffer.drop (j + (tag t .shown).length) ++ rest) :=
          fun rest => reads_entered hfind
        have hrest : undisplaced t .hidden false 0
            (buffer.drop (j + (tag t .shown).length)) = true :=
          undisplaced_of_reads (by simpa using hreads []) h
        rw [tag_length] at hreads hrest
        obtain ⟨emitted, hout, hon, hpending⟩ :=
          ih (s := ⟨buffer.drop (j + openTag.length), true⟩) out'
            (hshorter _ (Nat.add_pos_right _ (by decide))) hrest
        refine ⟨buffer.take j ++ emitted, ?_, fun rest => (hreads rest).trans (hon rest), hpending⟩
        rw [hout, hout', List.append_assoc]

/-- A chunk that displaces no tag is read on as it is. -/
lemma feed_reads (hs : s.Pending t)
    (h : undisplaced t s.mode false 0 (s.buffer ++ chunk) = true) :
    (feed t s chunk).1.Pending t ∧
      FeedReads t ⟨s.buffer ++ chunk, s.insideThink⟩ (feed t s chunk).2.flatten
        (feed t s chunk).1 := by
  unfold feed
  split
  · rename_i hchunk
    subst hchunk
    refine ⟨hs, fun rest => ?_⟩
    rw [List.append_nil]
    exact .refl _ _
  · obtain ⟨emitted, hout, hreads, hpending⟩ :=
      feedLoop_reads (t := t) (s := ⟨s.buffer ++ chunk, s.insideThink⟩) []
        (Nat.lt_succ_self _) h
    rw [List.flatten_nil, List.nil_append] at hout
    refine ⟨hpending, ?_⟩
    show FeedReads t _ (feedLoop t _ _ []).2.flatten _
    rw [hout]
    exact hreads

/-- No chunk displaces a tag in what is buffered with it. -/
def Steady (t : LowerCase) : StreamingReasoningSanitizer → List (List Char) → Prop
  | _, [] => True
  | s, chunk :: chunks =>
    undisplaced t s.mode false 0 (s.buffer ++ chunk) = true ∧ Steady t (feed t s chunk).1 chunks

/-- The text that is left, from the part that is being read. -/
abbrev shownOf (t : LowerCase) (m : Mode) (cs : List Char) : List Char :=
  visible (t.anyCase openTag) (t.anyCase closeTag) m 0 cs

/-- The end of it that is a part of an opening tag. -/
abbrev endOf (t : LowerCase) (m : Mode) (cs : List Char) : List Char :=
  openEnd (t.anyCase openTag) (t.anyCase closeTag) m 0 cs

lemma open_ne_nil : t.anyCase openTag ≠ [] := tag_ne_nil (m := .shown)

lemma close_ne_nil : t.anyCase closeTag ≠ [] := tag_ne_nil (m := .hidden)

lemma shownOf_eq {m' : Mode} {cs' emitted : List Char} (h : ReadsOn t m cs emitted m' cs') :
    shownOf t m cs = emitted ++ shownOf t m' cs' :=
  h.visible_eq open_ne_nil close_ne_nil

lemma endOf_eq {m' : Mode} {cs' emitted : List Char} (h : ReadsOn t m cs emitted m' cs') :
    endOf t m cs = endOf t m' cs' :=
  h.openEnd_eq open_ne_nil close_ne_nil

/-- At the end of the stream a part of a tag is left, and not emitted. -/
lemma flush_pending (hs : s.Pending t) :
    (flush t s).2.flatten ++ endOf t s.mode s.buffer = shownOf t s.mode s.buffer := by
  obtain ⟨buffer, inside⟩ := s
  have hnone := find_of_short (lt_length_of_isPart hs)
  cases inside with
  | true =>
    have hend : endOf t .hidden buffer = [] := openEnd_hidden_of_find_none hnone
    have hshown : shownOf t .hidden buffer = [] := visible_hidden_of_find_none hnone
    show ([] : List (List Char)).flatten ++ endOf t .hidden buffer = shownOf t .hidden buffer
    rw [hend, hshown]
    rfl
  | false =>
    have hend : endOf t .shown buffer = buffer := openEnd_of_isPart hs
    have hshown : shownOf t .shown buffer = buffer := visible_of_find_none hnone
    have hheld : heldBack (tag t .shown) buffer = buffer := heldBack_of_isPart hs
    have hsplit : splitSafePrefix t buffer openTag = ([], buffer) := by
      rw [show openTag = tagText .shown from rfl, splitSafePrefix_eq, released, hheld]
      simp
    have hflush : (flush t ⟨buffer, false⟩).2 = [] := by simp [flush, hsplit]
    show (flush t ⟨buffer, false⟩).2.flatten ++ endOf t .shown buffer = shownOf t .shown buffer
    rw [hflush, hend, hshown]
    rfl

/-- What is emitted over a stream, and the part of a tag at its end, is what is shown of the
text, where no chunk displaces a tag. -/
theorem sanitizeStream_eq (hs : s.Pending t) (h : Steady t s chunks) :
    (sanitizeStream t s chunks).flatten ++ endOf t s.mode (s.buffer ++ chunks.flatten) =
      shownOf t s.mode (s.buffer ++ chunks.flatten) := by
  induction chunks generalizing s with
  | nil =>
    rw [List.flatten_nil, List.append_nil]
    exact flush_pending hs
  | cons chunk chunks ih =>
    obtain ⟨hpending, hreads⟩ := feed_reads hs h.1
    have hread := hreads chunks.flatten
    have hrest := ih hpending h.2
    rw [sanitizeStream, List.flatten_append, List.flatten_cons, ← List.append_assoc]
    have hshown : shownOf t s.mode (s.buffer ++ chunk ++ chunks.flatten) = _ := shownOf_eq hread
    have hend : endOf t s.mode (s.buffer ++ chunk ++ chunks.flatten) = _ := endOf_eq hread
    rw [hshown, hend, List.append_assoc, hrest]

/-- A text in which no tag is displaced is cut in steady chunks only. -/
lemma steady_of_undisplaced (hs : s.Pending t)
    (h : undisplaced t s.mode false 0 (s.buffer ++ chunks.flatten) = true) :
    Steady t s chunks := by
  induction chunks generalizing s with
  | nil => trivial
  | cons chunk chunks ih =>
    rw [List.flatten_cons, ← List.append_assoc] at h
    have hchunk := undisplaced_of_append h
    obtain ⟨hpending, hreads⟩ := feed_reads hs hchunk
    exact ⟨hchunk, ih hpending (undisplaced_of_reads (hreads chunks.flatten) h)⟩

/-- Chunks of one character are always steady. -/
lemma steady_singletons (hs : s.Pending t) : Steady t s (cs.map ([·])) := by
  induction cs generalizing s with
  | nil => trivial
  | cons c cs ih =>
    have hchunk : undisplaced t s.mode false 0 (s.buffer ++ [c]) = true :=
      undisplaced_append_singleton (notMem_of_isPart hs)
    exact ⟨hchunk, ih (feed_reads hs hchunk).1⟩

lemma flatten_singletons (cs : List Char) : (cs.map ([·])).flatten = cs := by
  induction cs with
  | nil => rfl
  | cons c cs ih => simpa using ih

/-- One character after the other, the text comes out as it should, up to its end. -/
lemma sanitizeStream_singletons (hs : s.Pending t) :
    (sanitizeStream t s (cs.map ([·]))).flatten ++ endOf t s.mode (s.buffer ++ cs) =
      shownOf t s.mode (s.buffer ++ cs) := by
  have hsteady : Steady t s (cs.map ([·])) := steady_singletons hs
  have hon := sanitizeStream_eq hs hsteady
  rwa [flatten_singletons] at hon

end Feeding

/-! ### What a displaced tag does -/

section Displaced

variable {t : LowerCase} {s : StreamingReasoningSanitizer} {c m m' : Char} {j : ℕ}
  {chunk cs us emitted : List Char}

/-- A character is the letter case of one character only. -/
lemma isCaseOf_unique (h : t.isCaseOf m c = true) (hne : m ≠ m') : t.isCaseOf m' c = false := by
  unfold LowerCase.isCaseOf at h ⊢
  rw [beq_iff_eq.mp h]
  simpa using hne

/-- Within a tag no other tag begins. -/
lemma not_open_of_begins {marker : List Char} (hb : begins (t.anyCase marker) (c :: cs) = true)
    (hmarker : '<' ∉ marker.tail) :
    ∀ d ∈ cs.take (marker.length - 1), t.isCaseOf '<' d = false := by
  cases marker with
  | nil => simp
  | cons m ms =>
    intro d hd
    simp only [LowerCase.anyCase, List.map_cons, begins, Bool.and_eq_true] at hb
    obtain ⟨p, hp, hpd⟩ := exists_of_begins hb.2 (by simpa using hd)
    obtain ⟨m', hm', rfl⟩ := List.mem_map.mp hp
    exact isCaseOf_unique hpd fun heq => hmarker (heq ▸ hm')

lemma openTag_eq : openTag = ['<', 't', 'h', 'i', 'n', 'k', '>'] := rfl

lemma closeTag_eq : closeTag = ['<', '/', 't', 'h', 'i', 'n', 'k', '>'] := rfl

/-- A text does not begin with both tags. -/
lemma not_begins_both (ho : begins (t.anyCase openTag) cs = true) :
    begins (t.anyCase closeTag) cs = false := by
  rcases hc : begins (t.anyCase closeTag) cs with _ | _
  · rfl
  · rw [openTag_eq] at ho
    rw [closeTag_eq] at hc
    rcases cs with _ | ⟨c, _ | ⟨d, cs⟩⟩
    · exact nomatch ho
    · simp [LowerCase.anyCase, begins] at ho
    · simp only [LowerCase.anyCase, List.map_cons, begins, Bool.and_eq_true] at ho hc
      exact absurd hc.2.1 (by simp [isCaseOf_unique ho.2.1 (show 't' ≠ '/' by decide)])

/-- After an opening tag the text is hidden. -/
lemma reads_enter (h : begins (t.anyCase openTag) (c :: cs) = true) :
    ReadsOn t .shown (c :: cs) [] .hidden (cs.drop (openTag.length - 1)) := by
  refine .enter h ?_
  rw [drop_marker open_ne_nil, length_anyCase]
  exact .refl _ _

/-- After a closing tag the text is shown. -/
lemma reads_leave (h : begins (t.anyCase closeTag) (c :: cs) = true) :
    ReadsOn t .hidden (c :: cs) [] .shown (cs.drop (closeTag.length - 1)) := by
  refine .leave h ?_
  rw [drop_marker close_ne_nil, length_anyCase]
  exact .refl _ _

/-- Characters with which no tag begins are shown in a text that is shown. -/
lemma reads_shown (h : ∀ d ∈ us, t.isCaseOf '<' d = false) :
    ReadsOn t .shown (us ++ cs) us .shown cs :=
  show Reads (t.isCaseOf '<' :: t.anyCase openTag.tail) _ _ _ _ _ _ from reads_plain h

/-- Characters with which no tag begins are passed over in a hidden text. -/
lemma reads_over (h : ∀ d ∈ us, t.isCaseOf '<' d = false) :
    ReadsOn t .hidden (us ++ cs) [] .hidden cs :=
  show Reads _ (t.isCaseOf '<' :: t.anyCase closeTag.tail) _ _ _ _ _ from reads_hidden_plain h

/-- An opening tag is passed over in a hidden text. -/
lemma reads_over_open (h : begins (t.anyCase openTag) (c :: cs) = true) :
    ReadsOn t .hidden (c :: cs) [] .hidden (cs.drop (openTag.length - 1)) := by
  have hover : ReadsOn t .hidden (cs.take (openTag.length - 1) ++ cs.drop (openTag.length - 1)) []
      .hidden (cs.drop (openTag.length - 1)) := reads_over (not_open_of_begins h (by decide))
  rw [List.take_append_drop] at hover
  exact .skip (not_begins_both h) hover

/-- A closing tag is shown in a text that is shown. -/
lemma reads_over_close (h : begins (t.anyCase closeTag) (c :: cs) = true) :
    ReadsOn t .shown (c :: cs) (c :: cs.take (closeTag.length - 1)) .shown
      (cs.drop (closeTag.length - 1)) := by
  have hshown : ReadsOn t .shown (cs.take (closeTag.length - 1) ++ cs.drop (closeTag.length - 1))
      (cs.take (closeTag.length - 1)) .shown (cs.drop (closeTag.length - 1)) :=
    reads_shown (not_open_of_begins h (by decide))
  rw [List.take_append_drop] at hshown
  have hlong : (t.anyCase openTag).length ≤ (c :: cs).length :=
    Nat.le_trans (by simp [openTag_eq, closeTag_eq]) (length_le_of_begins h)
  refine .step ?_ (isPart_eq_false hlong) hshown
  rcases ho : begins (t.anyCase openTag) (c :: cs) with _ | _
  · rfl
  · exact absurd h (by simp [not_begins_both ho])

/-- What is shown of a text that begins shown is not shorter than what is shown of it when it
begins hidden, up to the parts of tags at their ends. -/
lemma length_shown_hidden (cs : List Char) :
    (shownOf t .hidden cs).length + (endOf t .shown cs).length ≤
      (shownOf t .shown cs).length + (endOf t .hidden cs).length := by
  induction hn : cs.length using Nat.strongRecOn generalizing cs with
  | ind n ih =>
    cases cs with
    | nil => exact Nat.le_refl _
    | cons c cs =>
      have hless : ∀ k, (cs.drop k).length < n := by
        intro k
        rw [List.length_cons] at hn
        rw [List.length_drop]
        omega
      rcases hc : begins (t.anyCase closeTag) (c :: cs) with _ | _
      · rcases ho : begins (t.anyCase openTag) (c :: cs) with _ | _
        · by_cases hpart : isPart (t.anyCase openTag) (c :: cs) = true
          · -- the text ends here, and nothing of it is shown when it begins hidden
            have hnone : find (t.anyCase closeTag) (c :: cs) = none := by
              refine find_of_short (Nat.lt_trans (lt_length_of_isPart hpart) ?_)
              simp [openTag_eq, closeTag_eq]
            have hshown : shownOf t .hidden (c :: cs) = [] := visible_hidden_of_find_none hnone
            have hall : shownOf t .shown (c :: cs) = c :: cs :=
              visible_of_find_none (find_of_short (lt_length_of_isPart hpart))
            have hend : endOf t .shown (c :: cs) = c :: cs := openEnd_of_isPart hpart
            rw [hshown, hend, hall]
            simp
          · have hrest := ih cs.length (by simpa using hless 0) cs rfl
            have hshown : ReadsOn t .shown (c :: cs) [c] .shown cs :=
              .step ho (by simpa using hpart) (.refl _ _)
            have hhidden : ReadsOn t .hidden (c :: cs) [] .hidden cs := .skip hc (.refl _ _)
            rw [shownOf_eq hhidden, endOf_eq hhidden, shownOf_eq hshown, endOf_eq hshown]
            simp only [List.nil_append, List.length_append, List.length_cons, List.length_nil]
            omega
        · have hshown := reads_enter ho
          have hhidden := reads_over_open ho
          refine Nat.le_of_eq ?_
          simp only [shownOf_eq hhidden, endOf_eq hhidden, shownOf_eq hshown, endOf_eq hshown]
      · have hhidden := reads_leave hc
        have hshown := reads_over_close hc
        rw [shownOf_eq hhidden, endOf_eq hhidden, shownOf_eq hshown, endOf_eq hshown]
        simp only [List.nil_append, List.length_append, List.length_cons]
        omega

/-- A first character that is lost is missed. -/
lemma shown_ne_of_lost (hend : endOf t .shown (c :: cs) = [])
    (h : emitted ++ endOf t .shown cs = shownOf t .shown cs) :
    emitted ≠ shownOf t .shown (c :: cs) := by
  intro heq
  have hlen := congrArg List.length h
  rw [List.length_append, heq] at hlen
  rcases ho : begins (t.anyCase openTag) (c :: cs) with _ | _
  · have hpart : isPart (t.anyCase openTag) (c :: cs) = false := by
      rcases hp : isPart (t.anyCase openTag) (c :: cs) with _ | _
      · rfl
      · have hall : endOf t .shown (c :: cs) = c :: cs := openEnd_of_isPart hp
        exact absurd (hend.symm.trans hall) (by simp)
    have hshown : ReadsOn t .shown (c :: cs) [c] .shown cs := .step ho hpart (.refl _ _)
    rw [shownOf_eq hshown] at hlen
    simp only [List.length_append, List.length_cons, List.length_nil] at hlen
    omega
  · -- the tag is not recognised without its first character, and its others are shown
    have hrest : ReadsOn t .shown (cs.take (openTag.length - 1) ++ cs.drop (openTag.length - 1))
        (cs.take (openTag.length - 1)) .shown (cs.drop (openTag.length - 1)) :=
      reads_shown (not_open_of_begins ho (by decide))
    rw [List.take_append_drop] at hrest
    have hlonger := length_shown_hidden (t := t) (cs.drop (openTag.length - 1))
    have htag := length_le_of_begins ho
    rw [shownOf_eq (reads_enter ho), shownOf_eq hrest, endOf_eq hrest] at hlen
    rw [← endOf_eq (reads_enter ho), hend] at hlonger
    simp only [List.nil_append, List.length_append, List.length_take, List.length_nil,
      length_anyCase, List.length_cons, openTag_eq] at hlen hlonger htag
    omega

/-- A buffer that ends with its opening tag is taken as a whole, and emitted up to the place
that the dotted capitals move. -/
lemma feed_enter (hinside : s.insideThink = false) (hchunk : chunk ≠ [])
    (hfind : find (tag t .shown) (s.buffer ++ chunk) = some j)
    (hlen : (s.buffer ++ chunk).length = j + openTag.length) :
    (feed t s chunk).1 = ⟨[], true⟩ ∧
      (feed t s chunk).2.flatten =
        (s.buffer ++ chunk).take (j + dottedCount ((s.buffer ++ chunk).take j)) := by
  have hfeed : feed t s chunk =
      feedLoop t ((s.buffer ++ chunk).length + 1) ⟨s.buffer ++ chunk, false⟩ [] := by
    rw [feed, if_neg hchunk, hinside]
  obtain ⟨out, hout, hloop⟩ := feedLoop_enter (s.buffer ++ chunk).length [] hfind
  have hdrop : (s.buffer ++ chunk).drop
      (j + dottedCount ((s.buffer ++ chunk).take j) + openTag.length) = [] := by
    rw [List.drop_eq_nil_iff, hlen]
    omega
  rw [hfeed, hloop, hdrop, hlen, openTag_eq]
  exact ⟨congrArg Prod.fst feedLoop_nil, (congrArg (·.2.flatten) feedLoop_nil).trans hout⟩

/-- A hidden buffer with a closing tag, and no more after it than there are dotted capitals
before it, is taken as a whole. -/
lemma feed_leave (hinside : s.insideThink = true) (hchunk : chunk ≠ [])
    (hfind : find (tag t .hidden) (s.buffer ++ chunk) = some j)
    (hlen : (s.buffer ++ chunk).length ≤
      j + dottedCount ((s.buffer ++ chunk).take j) + closeTag.length) :
    feed t s chunk = (⟨[], false⟩, []) := by
  have hfeed : feed t s chunk =
      feedLoop t ((s.buffer ++ chunk).length + 1) ⟨s.buffer ++ chunk, true⟩ [] := by
    rw [feed, if_neg hchunk, hinside]
  obtain ⟨n, hn⟩ : ∃ n, (s.buffer ++ chunk).length = n + 1 :=
    ⟨_, (Nat.succ_pred_eq_of_pos (List.length_pos_iff.mpr (by simp [hchunk]))).symm⟩
  rw [hfeed, feedLoop_leave hfind, List.drop_eq_nil_iff.mpr hlen, hn, feedLoop_nil]

/-- A cut of the text to come, behind a place that lies after the buffer. -/
lemma cut_behind {buffer : List Char} {n : ℕ} (hbuffer : buffer.length < n)
    (hn : n ≤ (buffer ++ cs).length) :
    ∃ chunk rest, cs = chunk ++ rest ∧ chunk ≠ [] ∧ (buffer ++ chunk).length = n ∧
      buffer ++ chunk = (buffer ++ cs).take n ∧ rest = (buffer ++ cs).drop n := by
  rw [List.length_append] at hn
  have htake : buffer ++ cs.take (n - buffer.length) = (buffer ++ cs).take n := by
    rw [List.take_append, List.take_of_length_le (Nat.le_of_lt hbuffer)]
  have hdrop : cs.drop (n - buffer.length) = (buffer ++ cs).drop n := by
    rw [List.drop_append, List.drop_eq_nil_of_le (Nat.le_of_lt hbuffer), List.nil_append]
  refine ⟨_, _, (List.take_append_drop (n - buffer.length) cs).symm, ?_, ?_, htake, hdrop⟩
  · intro hnil
    have hlen := congrArg List.length hnil
    rw [List.length_take, List.length_nil] at hlen
    omega
  · rw [List.length_append, List.length_take]
    omega

/-- The text to come is cut behind the tag from which on a displaced one is found. -/
lemma exists_cut_tag {m : Mode} {buffer : List Char} (hs : isPart (tag t m) buffer = true)
    (h : undisplaced t m false 0 (buffer ++ cs) = false) :
    ∃ j chunk rest, cs = chunk ++ rest ∧ chunk ≠ [] ∧ rest.length < cs.length ∧
      (buffer ++ chunk).length = j + (tag t m).length ∧ find (tag t m) (buffer ++ chunk) = some j ∧
      (∀ more, (buffer ++ (chunk ++ more)).take j = (buffer ++ chunk).take j) ∧
      (0 < dottedCount ((buffer ++ chunk).take j) ∧ (m = .hidden → rest ≠ []) ∨
        undisplaced t m.next false 0 rest = false) := by
  obtain ⟨j, hj, hcases⟩ := exists_displaced h
  obtain ⟨chunk, rest, rfl, hchunk, hlen, htake, hdrop⟩ :=
    cut_behind (Nat.lt_of_lt_of_le (lt_length_of_isPart hs) (Nat.le_add_left _ j))
      (length_le_of_find hj)
  have htakej : ∀ more, (buffer ++ (chunk ++ more)).take j = (buffer ++ chunk).take j := by
    intro more
    rw [← List.append_assoc, List.take_append_of_le_length (hlen ▸ Nat.le_add_right _ _)]
  refine ⟨j, chunk, rest, rfl, hchunk, ?_, hlen, ?_, htakej, ?_⟩
  · have hpos := List.length_pos_iff.mpr hchunk
    rw [List.length_append]
    omega
  · rw [htake]
    exact find_take tag_ne_nil hj (Nat.le_refl _)
  · rw [htakej, ← hdrop] at hcases
    simpa using hcases

/-- The chunk with a displaced opening tag is emitted with characters of the tag. -/
lemma exists_cut_shown {buffer : List Char}
    (hs : StreamingReasoningSanitizer.Pending t ⟨buffer, false⟩)
    (hend : endOf t .shown (buffer ++ cs) = [])
    (h : undisplaced t .shown false 0 (buffer ++ cs) = false)
    (ih : ∀ rest, rest.length < cs.length → endOf t .hidden rest = [] →
      undisplaced t .hidden false 0 rest = false →
        ∃ chunks, chunks.flatten = rest ∧
          (sanitizeStream t ⟨[], true⟩ chunks).flatten ≠ shownOf t .hidden rest) :
    ∃ chunks, chunks.flatten = cs ∧
      (sanitizeStream t ⟨buffer, false⟩ chunks).flatten ≠ shownOf t .shown (buffer ++ cs) := by
  obtain ⟨j, chunk, rest, rfl, hchunk, hless, hlen, hfind, htakej, hcases⟩ :=
    exists_cut_tag (show isPart (tag t .shown) buffer = true from hs) h
  rw [tag_shown_length] at hlen
  obtain ⟨hstate, hout⟩ := feed_enter (s := ⟨buffer, false⟩) rfl hchunk hfind hlen
  have hreads : ReadsOn t .shown (buffer ++ (chunk ++ rest)) ((buffer ++ chunk).take j) .hidden
      rest := by
    have hentered : ReadsOn t .shown (buffer ++ chunk ++ rest) _ .hidden
        ((buffer ++ chunk).drop (j + (tag t .shown).length) ++ rest) := reads_entered hfind
    rw [tag_shown_length, List.drop_eq_nil_of_le (Nat.le_of_eq hlen), List.append_assoc] at hentered
    exact hentered
  rw [endOf_eq hreads] at hend
  rw [shownOf_eq hreads]
  rcases Nat.eq_zero_or_pos (dottedCount ((buffer ++ chunk).take j)) with hzero | hpos
  · have hrest : undisplaced t .hidden false 0 rest = false := by
      rcases hcases with ⟨hdot, -⟩ | hrest
      · simp [hzero] at hdot
      · exact hrest
    obtain ⟨chunks, hflat, hne⟩ := ih rest hless hend hrest
    refine ⟨chunk :: chunks, by rw [List.flatten_cons, hflat], fun heq => hne ?_⟩
    rw [sanitizeStream, List.flatten_append, hout, hstate, hzero] at heq
    exact List.append_cancel_left heq
  · refine ⟨chunk :: rest.map ([·]), by rw [List.flatten_cons, flatten_singletons],
      fun heq => ?_⟩
    have hon : (sanitizeStream t ⟨[], true⟩ (rest.map ([·]))).flatten ++ endOf t .hidden rest =
        shownOf t .hidden rest :=
      sanitizeStream_singletons (s := ⟨[], true⟩) (isPart_nil tag_ne_nil)
    rw [hend, List.append_nil] at hon
    rw [sanitizeStream, List.flatten_append, hout, hstate, hon] at heq
    -- more of the buffer is emitted than stands before the tag
    have hmore := congrArg List.length (List.append_cancel_right heq)
    rw [List.length_take, List.length_take, hlen, openTag_eq] at hmore
    simp only [List.length_cons, List.length_nil] at hmore
    omega

/-- What follows a displaced closing tag is lost. -/
lemma exists_cut_hidden {buffer : List Char}
    (hs : StreamingReasoningSanitizer.Pending t ⟨buffer, true⟩)
    (hend : endOf t .hidden (buffer ++ cs) = [])
    (h : undisplaced t .hidden false 0 (buffer ++ cs) = false)
    (ih : ∀ rest, rest.length < cs.length → endOf t .shown rest = [] →
      undisplaced t .shown false 0 rest = false →
        ∃ chunks, chunks.flatten = rest ∧
          (sanitizeStream t ⟨[], false⟩ chunks).flatten ≠ shownOf t .shown rest) :
    ∃ chunks, chunks.flatten = cs ∧
      (sanitizeStream t ⟨buffer, true⟩ chunks).flatten ≠ shownOf t .hidden (buffer ++ cs) := by
  obtain ⟨j, chunk, rest, rfl, hchunk, hless, hlen, hfind, htakej, hcases⟩ :=
    exists_cut_tag (show isPart (tag t .hidden) buffer = true from hs) h
  rw [tag_hidden_length] at hlen
  have hreads : ReadsOn t .hidden (buffer ++ (chunk ++ rest)) [] .shown rest := by
    have hleft : ReadsOn t .hidden (buffer ++ chunk ++ rest) [] .shown
        ((buffer ++ chunk).drop (j + (tag t .hidden).length) ++ rest) := reads_left hfind
    rw [tag_hidden_length, List.drop_eq_nil_of_le (Nat.le_of_eq hlen), List.append_assoc] at hleft
    exact hleft
  rw [endOf_eq hreads] at hend
  rw [shownOf_eq hreads, List.nil_append]
  rcases Nat.eq_zero_or_pos (dottedCount ((buffer ++ chunk).take j)) with hzero | hpos
  · have hrest : undisplaced t .shown false 0 rest = false := by
      rcases hcases with ⟨hdot, -⟩ | hrest
      · simp [hzero] at hdot
      · exact hrest
    obtain ⟨chunks, hflat, hne⟩ := ih rest hless hend hrest
    have hfeed : feed t ⟨buffer, true⟩ chunk = (⟨[], false⟩, []) :=
      feed_leave rfl hchunk hfind (by rw [hlen, hzero]; exact Nat.le_refl _)
    refine ⟨chunk :: chunks, by rw [List.flatten_cons, hflat], fun heq => hne ?_⟩
    rwa [sanitizeStream, hfeed, List.nil_append] at heq
  · cases rest with
    | nil =>
      rcases hcases with ⟨-, hrest⟩ | hrest
      · exact absurd rfl (hrest rfl)
      · exact nomatch hrest
    | cons c rest =>
      have hfind' : find (tag t .hidden) (buffer ++ (chunk ++ [c])) = some j := by
        rw [← List.append_assoc]
        exact find_append_of_some hfind
      have hfeed : feed t ⟨buffer, true⟩ (chunk ++ [c]) = (⟨[], false⟩, []) := by
        refine feed_leave rfl (by simp) hfind' ?_
        show (buffer ++ (chunk ++ [c])).length ≤
          j + dottedCount ((buffer ++ (chunk ++ [c])).take j) + closeTag.length
        rw [htakej, ← List.append_assoc, List.length_append, hlen, List.length_singleton]
        omega
      have hon : (sanitizeStream t ⟨[], false⟩ (rest.map ([·]))).flatten ++ endOf t .shown rest =
          shownOf t .shown rest :=
        sanitizeStream_singletons (s := ⟨[], false⟩) (isPart_nil tag_ne_nil)
      refine ⟨(chunk ++ [c]) :: rest.map ([·]), ?_, ?_⟩
      · rw [List.flatten_cons, flatten_singletons, List.append_assoc]
        rfl
      · rw [sanitizeStream, hfeed, List.nil_append]
        exact shown_ne_of_lost hend hon

/-- Where some tag is displaced, some cut of the text shows it. -/
theorem exists_cut (hs : s.Pending t) (hend : endOf t s.mode (s.buffer ++ cs) = [])
    (h : undisplaced t s.mode false 0 (s.buffer ++ cs) = false) :
    ∃ chunks, chunks.flatten = cs ∧
      (sanitizeStream t s chunks).flatten ≠ shownOf t s.mode (s.buffer ++ cs) := by
  induction hn : cs.length using Nat.strongRecOn generalizing s cs with
  | ind n ih =>
    obtain ⟨buffer, inside⟩ := s
    have hnil : ∀ inside, StreamingReasoningSanitizer.Pending t ⟨[], inside⟩ :=
      fun _ => isPart_nil tag_ne_nil
    cases inside with
    | false =>
      exact exists_cut_shown hs hend h fun rest hless hend' h' =>
        ih rest.length (hn ▸ hless) (hnil true) hend' h' rfl
    | true =>
      exact exists_cut_hidden hs hend h fun rest hless hend' h' =>
        ih rest.length (hn ▸ hless) (hnil false) hend' h' rfl

end Displaced

/-! ### The texts that are filtered -/

/-- The text ends, outside a block, in a proper part of an opening tag. -/
def EndsInPart (t : LowerCase) (text : List Char) : Prop := endOf t .shown text ≠ []

/-- A text is filtered however it is cut just where it does not end in a part of an opening tag
and no tag of it is displaced. -/
theorem filtersAnyCut_iff (t : LowerCase) (text : List Char) :
    FiltersAnyCut t text ↔ ¬EndsInPart t text ∧ undisplaced t .shown false 0 text = true := by
  have hstart : StreamingReasoningSanitizer.Pending t {} := isPart_nil tag_ne_nil
  constructor
  · intro hcut
    have hend : endOf t .shown text = [] := by
      have hon : (sanitizeStream t {} (text.map ([·]))).flatten ++ endOf t .shown text =
          shownOf t .shown text := sanitizeStream_singletons hstart
      have hout : _ = shownOf t .shown text := hcut _ (flatten_singletons text)
      rw [hout] at hon
      exact List.append_right_eq_self.mp hon
    refine ⟨fun hne => hne hend, ?_⟩
    by_contra hdisplaced
    have hfalse : undisplaced t .shown false 0 text = false := by simpa using hdisplaced
    obtain ⟨chunks, hflat, hne⟩ :=
      exists_cut hstart (show endOf t .shown ([] ++ text) = [] from hend)
        (show undisplaced t .shown false 0 ([] ++ text) = false from hfalse)
    exact hne (hcut chunks hflat)
  · rintro ⟨hend, hplace⟩ chunks rfl
    have hon := sanitizeStream_eq hstart (steady_of_undisplaced hstart hplace)
    change _ ++ endOf t .shown chunks.flatten = shownOf t .shown chunks.flatten at hon
    rwa [not_not.mp hend, List.append_nil] at hon

/-- The last character of `a <` is lost at the end of the stream. -/
theorem not_filtersAnyCut : ¬∀ (t : LowerCase) (text : List Char), FiltersAnyCut t text := by
  intro h
  exact absurd (h .basic "a <".toList ["a <".toList] (by decide)) (by decide)

end Trion.Llm
