import Mathlib.Algebra.GroupWithZero.Nat
import Mathlib.Data.List.Basic

/-!
# Patterns

A pattern is a sequence of items: runs of characters of a class, choices between sequences of
runs, and assertions about what stands before and after a place.  It is matched by backtracking:
every item tries its possibilities in its own order, and the first way in which the rest of the
pattern matches too is taken.  The matches in a text are found from left to right and do not
overlap.
-/

namespace Patterns

/-- A run of characters of a class, as long as possible first, or as short as possible. -/
structure Run where
  accepts : Char → Bool
  least : ℕ
  most : Option ℕ
  lazy : Bool := false

inductive Item where
  | run (r : Run)
  | choice (alternatives : List (List Run))
  /-- An assertion about the character before and the characters after a place. -/
  | assertion (holds : Option Char → List Char → Bool)

/-- One character of a class. -/
def one (accepts : Char → Bool) : Item := .run ⟨accepts, 1, some 1, false⟩

/-- A run of at least so many characters. -/
def atLeast (least : ℕ) (accepts : Char → Bool) : Item := .run ⟨accepts, least, none, false⟩

/-- A run of `least` to `most` characters. -/
def between (least most : ℕ) (accepts : Char → Bool) : Item :=
  .run ⟨accepts, least, some most, false⟩

/-- The beginning of a line. -/
def lineStart : Item := .assertion fun before _ => before.all (· = '\n')

/-- The end of a line. -/
def lineEnd : Item := .assertion fun _ after => after.head?.all (· = '\n')

/-- The next character is of a class. -/
def ahead (accepts : Char → Bool) : Item := .assertion fun _ after => after.head?.any accepts

/-! ### Matching -/

/-- The characters a run may take at most. -/
def Run.within (r : Run) (after : List Char) : List Char :=
  match r.most with
  | none => after
  | some most => after.take most

/-- The numbers of characters a run may take, in the order in which they are tried. -/
def Run.counts (r : Run) (after : List Char) : List ℕ :=
  let longest := ((r.within after).takeWhile r.accepts).length
  let counts := (List.range (longest + 1)).filter (r.least ≤ ·)
  if r.lazy then counts else counts.reverse

/-- The character before a place, some characters further on. -/
def lastOf (before : Option Char) (after : List Char) (n : ℕ) : Option Char :=
  ((after.take n).getLast?).or before

/-- Matches runs, and goes on with the number of characters they have taken. -/
def matchRuns {β : Type} (go : ℕ → Option Char → List Char → Option β) :
    List Run → ℕ → Option Char → List Char → Option β
  | [], taken, before, after => go taken before after
  | r :: runs, taken, before, after =>
    (r.counts after).findSome? fun n =>
      matchRuns go runs (taken + n) (lastOf before after n) (after.drop n)

/-- The numbers of characters the items of a pattern take, where it matches at a place. -/
def matchAt : List Item → Option Char → List Char → Option (List ℕ)
  | [], _, _ => some []
  | .run r :: items, before, after =>
    (r.counts after).findSome? fun n =>
      (matchAt items (lastOf before after n) (after.drop n)).map (n :: ·)
  | .choice alternatives :: items, before, after =>
    alternatives.findSome? fun runs =>
      matchRuns (fun n before after => (matchAt items before after).map (n :: ·)) runs 0 before after
  | .assertion holds :: items, before, after =>
    if holds before after then (matchAt items before after).map (0 :: ·) else none

/-- A match: where it begins, and what its items take. -/
structure Match where
  start : ℕ
  lengths : List ℕ
deriving DecidableEq, Repr

def Match.length (m : Match) : ℕ := m.lengths.sum

def Match.stop (m : Match) : ℕ := m.start + m.length

/-- Looks for matches from a place on, some of whose characters belong to the last match. -/
def findFrom (items : List Item) : List Char → Option Char → ℕ → ℕ → List Match
  | [], before, start, skip =>
    if skip = 0 then ((matchAt items before []).map fun lengths => Match.mk start lengths).toList
    else []
  | c :: cs, before, start, skip =>
    if skip ≠ 0 then findFrom items cs (some c) (start + 1) (skip - 1)
    else match matchAt items before (c :: cs) with
      | some lengths =>
        ⟨start, lengths⟩ :: findFrom items cs (some c) (start + 1) (lengths.sum - 1)
      | none => findFrom items cs (some c) (start + 1) 0

/-- The matches in a text, from left to right. -/
def findIter (items : List Item) (text : List Char) : List Match := findFrom items text none 0 0

/-! ### Where matches lie -/

variable {items : List Item} {before : Option Char} {after : List Char}

lemma Run.le_of_mem_counts {r : Run} {n : ℕ} (h : n ∈ r.counts after) : n ≤ after.length := by
  have hlongest : n < ((r.within after).takeWhile r.accepts).length + 1 := by
    unfold Run.counts at h
    dsimp only at h
    split at h
    · exact List.mem_range.mp (List.mem_filter.mp h).1
    · exact List.mem_range.mp (List.mem_filter.mp (List.mem_reverse.mp h)).1
  have hwhile := (List.takeWhile_sublist (l := r.within after) r.accepts).length_le
  have hwithin : (r.within after).length ≤ after.length := by
    unfold Run.within
    split
    · exact Nat.le_refl _
    · exact List.length_take_le' ..
  omega

lemma matchRuns_some {β : Type} {go : ℕ → Option Char → List Char → Option β} {runs : List Run}
    {taken : ℕ} {b : β} (h : matchRuns go runs taken before after = some b) :
    ∃ n before', n ≤ after.length ∧ go (taken + n) before' (after.drop n) = some b := by
  induction runs generalizing taken before after with
  | nil => exact ⟨0, before, Nat.zero_le _, h⟩
  | cons r runs ih =>
    obtain ⟨n, hn, hrest⟩ := List.exists_of_findSome?_eq_some h
    obtain ⟨k, before', hk, hgo⟩ := ih hrest
    have hle := Run.le_of_mem_counts hn
    rw [List.length_drop] at hk
    rw [List.drop_drop, Nat.add_assoc] at hgo
    exact ⟨n + k, before', by omega, hgo⟩

/-- A match ends within the text. -/
lemma sum_le_of_matchAt {lengths : List ℕ} (h : matchAt items before after = some lengths) :
    lengths.sum ≤ after.length := by
  induction items generalizing before after lengths with
  | nil =>
    obtain rfl := Option.some.inj h
    exact Nat.zero_le _
  | cons item items ih =>
    unfold matchAt at h
    cases item with
    | run r =>
      obtain ⟨n, hn, hrest⟩ := List.exists_of_findSome?_eq_some h
      obtain ⟨rest, hmatch, rfl⟩ := Option.map_eq_some_iff.mp hrest
      have hle := Run.le_of_mem_counts hn
      have hsum := ih hmatch
      rw [List.length_drop] at hsum
      rw [List.sum_cons]
      omega
    | choice alternatives =>
      obtain ⟨runs, -, hruns⟩ := List.exists_of_findSome?_eq_some h
      obtain ⟨n, before', hn, hgo⟩ := matchRuns_some hruns
      obtain ⟨rest, hrest, rfl⟩ := Option.map_eq_some_iff.mp hgo
      have hsum := ih hrest
      rw [List.length_drop] at hsum
      rw [List.sum_cons]
      omega
    | assertion holds =>
      dsimp only at h
      split at h
      · obtain ⟨rest, hrest, rfl⟩ := Option.map_eq_some_iff.mp h
        rw [List.sum_cons, Nat.zero_add]
        exact ih hrest
      · cases h

/-- The matches found from a place on lie between it and the end of the text. -/
lemma of_mem_findFrom {start skip : ℕ} {m : Match} (h : m ∈ findFrom items after before start skip) :
    start ≤ m.start ∧ m.stop ≤ start + after.length := by
  induction after generalizing before start skip with
  | nil =>
    unfold findFrom at h
    split at h
    · obtain ⟨lengths, hmatch, rfl⟩ := Option.map_eq_some_iff.mp (Option.mem_toList.mp h)
      exact ⟨Nat.le_refl _, Nat.add_le_add_left (sum_le_of_matchAt hmatch) _⟩
    · exact absurd h List.not_mem_nil
  | cons c cs ih =>
    have hrest : ∀ before skip, m ∈ findFrom items cs before (start + 1) skip →
        start ≤ m.start ∧ m.stop ≤ start + (c :: cs).length := by
      intro before skip hmem
      obtain ⟨hstart, hstop⟩ := ih hmem
      rw [List.length_cons]
      omega
    unfold findFrom at h
    split at h
    · exact hrest _ _ h
    · split at h
      next lengths hmatch =>
        rcases List.mem_cons.mp h with rfl | h
        · exact ⟨Nat.le_refl _, Nat.add_le_add_left (sum_le_of_matchAt hmatch) _⟩
        · exact hrest _ _ h
      next => exact hrest _ _ h

/-- A match lies in the text. -/
theorem stop_le_of_mem_findIter {text : List Char} {m : Match} (h : m ∈ findIter items text) :
    m.stop ≤ text.length := by
  have hstop := (of_mem_findFrom h).2
  omega

/-- The empty pattern matches at every place first. -/
lemma findIter_nil (text : List Char) : ∃ rest, findIter [] text = ⟨0, []⟩ :: rest := by
  cases text with
  | nil => exact ⟨[], rfl⟩
  | cons c cs => exact ⟨findFrom [] cs (some c) 1 0, rfl⟩

end Patterns
