import Trion.Library.Patterns

/-!
# Substitution of matches

The matches of a pattern are replaced by texts that depend on what its items have matched.  A
text without matches stays as it is, and where the items of a pattern refuse a character, what
follows that character makes no difference to a match before it.
-/

namespace Patterns

/-- What the items of a match have taken. -/
def pieces : List Char → List ℕ → List (List Char)
  | _, [] => []
  | cs, n :: lengths => cs.take n :: pieces (cs.drop n) lengths

/-- Replaces the matches from a place on, some of whose characters belong to the last match. -/
def substituteFrom (items : List Item) (replace : List (List Char) → List Char) :
    List Char → Option Char → ℕ → List Char
  | [], before, skip =>
    if skip = 0 then ((matchAt items before []).map fun ls => replace (pieces [] ls)).getD []
    else []
  | c :: cs, before, skip =>
    if skip ≠ 0 then substituteFrom items replace cs (some c) (skip - 1)
    else match matchAt items before (c :: cs) with
      | some lengths =>
        replace (pieces (c :: cs) lengths) ++
          if lengths.sum = 0 then c :: substituteFrom items replace cs (some c) 0
          else substituteFrom items replace cs (some c) (lengths.sum - 1)
      | none => c :: substituteFrom items replace cs (some c) 0

/-- `re.sub`. -/
def substitute (items : List Item) (replace : List (List Char) → List Char)
    (text : List Char) : List Char := substituteFrom items replace text none 0

variable {items : List Item} {replace : List (List Char) → List Char} {before : Option Char}
  {after : List Char} {p : Char → Bool}

/-! ### Substitution -/

lemma substituteFrom_cons_of_none {c : Char} {cs : List Char}
    (h : matchAt items before (c :: cs) = none) :
    substituteFrom items replace (c :: cs) before 0 =
      c :: substituteFrom items replace cs (some c) 0 := by
  rw [substituteFrom, if_neg (by simp), h]

/-- The characters that belong to the last match are passed over. -/
lemma substituteFrom_skip (items : List Item) (replace : List (List Char) → List Char)
    (before : Option Char) (cs rest : List Char) :
    ∃ before', substituteFrom items replace (cs ++ rest) before cs.length =
      substituteFrom items replace rest before' 0 := by
  induction cs generalizing before with
  | nil => exact ⟨before, rfl⟩
  | cons c cs ih =>
    obtain ⟨before', heq⟩ := ih (some c)
    refine ⟨before', ?_⟩
    rw [List.cons_append, substituteFrom, if_pos (by simp), List.length_cons,
      Nat.add_sub_cancel]
    exact heq

/-- A pattern matches at no place of a text. -/
def Unmatched (items : List Item) : Option Char → List Char → Prop
  | before, [] => matchAt items before [] = none
  | before, c :: cs => matchAt items before (c :: cs) = none ∧ Unmatched items (some c) cs

lemma substituteFrom_of_unmatched (h : Unmatched items before after) :
    substituteFrom items replace after before 0 = after := by
  induction after generalizing before with
  | nil =>
    have hnone : matchAt items before [] = none := h
    rw [substituteFrom, if_pos rfl, hnone]
    rfl
  | cons c cs ih => rw [substituteFrom_cons_of_none h.1, ih h.2]

/-! ### What items match -/

/-- A run takes characters of its class, at least as many as it has to. -/
lemma Run.of_mem_counts {r : Run} {n : ℕ} (h : n ∈ r.counts after) :
    r.least ≤ n ∧ ∃ taken rest, after = taken ++ rest ∧ taken.length = n ∧
      ∀ c ∈ taken, r.accepts c = true := by
  have hmem : n ∈ (List.range (((r.within after).takeWhile r.accepts).length + 1)).filter
      (r.least ≤ ·) := by
    unfold Run.counts at h
    dsimp only at h
    split at h
    · exact h
    · exact List.mem_reverse.mp h
  obtain ⟨hrange, hleast⟩ := List.mem_filter.mp hmem
  have hlt := List.mem_range.mp hrange
  have hwithin : r.within after <+: after := by
    unfold Run.within
    split
    · exact List.prefix_rfl
    · exact List.take_prefix _ _
  have hprefix := (List.take_prefix n _).trans ((List.takeWhile_prefix r.accepts).trans hwithin)
  obtain ⟨rest, hrest⟩ := hprefix
  refine ⟨of_decide_eq_true hleast, _, rest, hrest.symm, ?_, fun c hc => ?_⟩
  · rw [List.length_take]
    omega
  · have hall := List.all_takeWhile (p := r.accepts) (l := r.within after)
    exact List.all_eq_true.mp hall c (List.mem_of_mem_take hc)

lemma matchAt_run {r : Run} {lengths : List ℕ}
    (h : matchAt (.run r :: items) before after = some lengths) :
    ∃ taken rest before' ls, after = taken ++ rest ∧ r.least ≤ taken.length ∧
      (∀ c ∈ taken, r.accepts c = true) ∧ matchAt items before' rest = some ls ∧
      lengths = taken.length :: ls := by
  obtain ⟨n, hn, hrest⟩ := List.exists_of_findSome?_eq_some h
  obtain ⟨ls, hmatch, rfl⟩ := Option.map_eq_some_iff.mp hrest
  obtain ⟨hleast, taken, rest, rfl, rfl, hall⟩ := Run.of_mem_counts hn
  rw [List.drop_left] at hmatch
  exact ⟨taken, rest, _, ls, rfl, hleast, hall, hmatch, rfl⟩

lemma counts_one (c : Char) (cs : List Char) :
    Run.counts ⟨p, 1, some 1, false⟩ (c :: cs) = if p c then [1] else [] := by
  cases hc : p c <;> simp [Run.counts, Run.within, hc, List.range_succ]

lemma matchAt_one_cons (c : Char) (cs : List Char) :
    matchAt (one p :: items) before (c :: cs) =
      if p c then (matchAt items (some c) cs).map (1 :: ·) else none := by
  rw [one, matchAt, counts_one]
  split <;> simp [lastOf]

lemma matchAt_one_nil : matchAt (one p :: items) before [] = none := by
  simp [one, matchAt, Run.counts, Run.within]

/-- A run of a class takes all it can, where a character of another class has to follow. -/
lemma matchAt_atLeast_one {p' : Char → Bool} {gap : List Char} {c : Char} {rest : List Char}
    (hgap : ∀ w ∈ gap, p w = true) (hc : p c = false) (hc' : p' c = true) :
    matchAt [atLeast 0 p, one p'] before (gap ++ c :: rest) = some [gap.length, 1] := by
  have htake : (gap ++ c :: rest).takeWhile p = gap := by
    rw [List.takeWhile_append_of_pos hgap, List.takeWhile_cons_of_neg (by simp [hc]),
      List.append_nil]
  have hcounts : Run.counts ⟨p, 0, none, false⟩ (gap ++ c :: rest) =
      gap.length :: (List.range gap.length).reverse := by
    simp [Run.counts, Run.within, htake, List.range_succ]
  rw [atLeast, matchAt, hcounts, List.findSome?_cons, List.drop_left, matchAt_one_cons, if_pos hc']
  rfl

/-! ### Matches before a character that is refused -/

/-- An item that takes no such character, and for which it makes no difference what follows one. -/
def Item.Stops (q : Char) : Item → Prop
  | .run r => r.accepts q = false
  | .choice _ => False
  | .assertion holds =>
    ∀ before x y y', holds before (x ++ q :: y) = holds before (x ++ q :: y')

lemma Run.counts_append {r : Run} {q : Char} (hq : r.accepts q = false) (x y : List Char) :
    r.counts (x ++ q :: y) = r.counts x := by
  have hwhile : ∀ l : List Char, (l ++ q :: y).takeWhile r.accepts = l.takeWhile r.accepts := by
    intro l
    induction l with
    | nil => simp [hq]
    | cons c l ih => simp [List.takeWhile_cons, ih]
  have htake : ∀ (m : ℕ) (l : List Char),
      ((l ++ q :: y).take m).takeWhile r.accepts = (l.take m).takeWhile r.accepts := by
    intro m l
    induction l generalizing m with
    | nil => cases m <;> simp [hq]
    | cons c l ih => cases m <;> simp [List.takeWhile_cons, ih]
  unfold Run.counts Run.within
  cases r.most with
  | none =>
    dsimp only
    rw [hwhile]
  | some m =>
    dsimp only
    rw [htake]

lemma findSome?_congr {α β : Type} {f g : α → Option β} {l : List α}
    (h : ∀ a ∈ l, f a = g a) : l.findSome? f = l.findSome? g := by
  induction l with
  | nil => rfl
  | cons a l ih =>
    rw [List.findSome?_cons, List.findSome?_cons, h a List.mem_cons_self,
      ih fun b hb => h b (List.mem_cons_of_mem a hb)]

/-- What follows such a character makes no difference. -/
theorem matchAt_append_congr {q : Char} (h : ∀ item ∈ items, item.Stops q) (x y y' : List Char) :
    matchAt items before (x ++ q :: y) = matchAt items before (x ++ q :: y') := by
  induction items generalizing before x with
  | nil => rfl
  | cons item items ih =>
    have hitem := h item List.mem_cons_self
    have hitems := fun i hi => h i (List.mem_cons_of_mem item hi)
    cases item with
    | run r =>
      have hq : r.accepts q = false := hitem
      rw [matchAt, matchAt, Run.counts_append hq, Run.counts_append hq]
      refine findSome?_congr fun n hn => ?_
      have hle := Run.le_of_mem_counts hn
      have hlast : ∀ z, lastOf before (x ++ q :: z) n = lastOf before x n := fun z => by
        rw [lastOf, lastOf, List.take_append_of_le_length hle]
      rw [hlast, hlast, List.drop_append_of_le_length hle, List.drop_append_of_le_length hle,
        ih hitems]
    | choice alternatives => exact absurd hitem id
    | assertion holds =>
      have hholds := hitem before x y y'
      rw [matchAt, matchAt, hholds, ih hitems]

end Patterns
