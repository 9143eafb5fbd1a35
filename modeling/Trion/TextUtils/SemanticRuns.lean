import Trion.TextUtils.Chunker

/-!
# Runs of the semantic chunker

The loop moves on where the overlap before the end of a chunk holds no place to start at or
before the start of that chunk.  Where it always does, it ends with chunks that leave no gap; and
it stops ten characters before the end of the text, so that some may be left over.
-/

namespace Trion.TextUtils

open Trion.Python Patterns

variable {rt : ChunkerRuntime} {self : Chunker} {text : List Char} {start stop : ℤ}
  {boundaries : List Boundary}

/-! ### The end of a chunk -/

lemma cutAtSpace_le (text : List Char) (bound : ℤ) (turns : ℕ) (cutPoint : ℤ) :
    cutAtSpace text bound turns cutPoint ≤ cutPoint := by
  induction turns generalizing cutPoint with
  | zero => exact le_refl _
  | succ turns ih =>
    unfold cutAtSpace
    split
    · split
      · exact le_refl _
      · exact (ih (cutPoint - 1)).trans (by omega)
    · exact le_refl _

/-- A chunk ends after its start and within the text, where the limit is a character at least. -/
lemma lt_findChunkEnd (hlimit : 1 ≤ rt.charsOfTokens self.maxTokens) (hstart : start < text.length)
    (boundaries : List Boundary) :
    start < self.findChunkEnd rt text start boundaries ∧
      self.findChunkEnd rt text start boundaries ≤ text.length := by
  unfold Chunker.findChunkEnd
  dsimp only
  generalize hhard : min (start + rt.charsOfTokens self.maxTokens) (text.length : ℤ) = hardEnd
  have hbetween : ∀ b ∈ boundaries.filter fun b =>
      start < b.position && (b.position : ℤ) < hardEnd,
      start < b.position ∧ (b.position : ℤ) ≤ text.length := by
    intro b hb
    have hplace := (List.mem_filter.mp hb).2
    simp only [Bool.and_eq_true, decide_eq_true_eq] at hplace
    omega
  split
  next =>
    have hle := cutAtSpace_le text (start + rt.charsOfTokens self.maxTokens / 2)
      (hardEnd - (start + rt.charsOfTokens self.maxTokens / 2)).toNat hardEnd
    split <;> omega
  next hne =>
    generalize boundaries.filter (fun b => start < b.position && (b.position : ℤ) < hardEnd) =
      relevant at hbetween hne
    split
    next b hfound =>
      exact hbetween b ((List.mem_insertionSort _).mp (List.mem_of_find?_eq_some hfound))
    next =>
      obtain ⟨b, hlast⟩ := Option.isSome_iff_exists.mp (List.getLast?_isSome.mpr
        (show relevant.insertionSort (fun a b =>
          b.priority < a.priority ∨ a.priority = b.priority ∧ b.position ≤ a.position) ≠ [] by
            intro hnil
            have hlength := congrArg List.length hnil
            rw [List.length_insertionSort] at hlength
            exact hne (List.length_eq_zero_iff.mp hlength)))
      rw [hlast]
      exact hbetween b ((List.mem_insertionSort _).mp (List.mem_of_getLast? hlast))

/-- Without a character in the limit no chunk ends after its start. -/
lemma findChunkEnd_le (hlimit : rt.charsOfTokens self.maxTokens ≤ 0) (start : ℤ)
    (boundaries : List Boundary) : self.findChunkEnd rt text start boundaries ≤ start := by
  unfold Chunker.findChunkEnd
  dsimp only
  generalize hhard : min (start + rt.charsOfTokens self.maxTokens) (text.length : ℤ) = hardEnd
  have hnone : boundaries.filter (fun b =>
      start < b.position && (b.position : ℤ) < hardEnd) = [] := by
    refine List.filter_eq_nil_iff.mpr fun b _ hplace => ?_
    simp only [Bool.and_eq_true, decide_eq_true_eq] at hplace
    omega
  have hle := cutAtSpace_le text (start + rt.charsOfTokens self.maxTokens / 2)
    (hardEnd - (start + rt.charsOfTokens self.maxTokens / 2)).toNat hardEnd
  rw [if_pos hnone]
  split <;> omega

/-! ### The start of the next chunk -/

/-- The loop over the overlap ends behind its first white space. -/
lemma startAtSpace_spec (text : List Char) (start : ℤ) {turns : ℕ} {overlapStart : ℤ}
    (hturns : overlapStart + turns = stop) :
    overlapStart ≤ startAtSpace text stop turns overlapStart ∧
      startAtSpace text stop turns overlapStart ≤ stop ∧
      (start < startAtSpace text stop turns overlapStart ↔ start < stop ∧
        ∀ q, overlapStart ≤ q → q < stop → isSpaceAt text q = true → start ≤ q) := by
  induction turns generalizing overlapStart with
  | zero =>
    refine ⟨by unfold startAtSpace; omega, by unfold startAtSpace; omega, ?_⟩
    unfold startAtSpace
    exact ⟨fun h => ⟨h, fun q hq hq' => by omega⟩, fun h => h.1⟩
  | succ turns ih =>
    unfold startAtSpace
    split
    next hspace =>
      refine ⟨by omega, by omega, ?_⟩
      constructor
      · intro h
        exact ⟨by omega, fun q hq _ _ => by omega⟩
      · rintro ⟨-, h⟩
        have hfirst := h overlapStart (le_refl _) (by omega) hspace
        omega
    next hspace =>
      obtain ⟨hlower, hupper, hiff⟩ := ih (show overlapStart + 1 + turns = stop by omega)
      refine ⟨by omega, hupper, hiff.trans ?_⟩
      constructor
      · rintro ⟨hlt, h⟩
        refine ⟨hlt, fun q hq hq' hqspace => ?_⟩
        by_cases heq : q = overlapStart
        · exact absurd (heq ▸ hqspace) hspace
        · exact h q (by omega) hq' hqspace
      · rintro ⟨hlt, h⟩
        exact ⟨hlt, fun q hq hq' => h q (by omega) hq'⟩

lemma length_pySlice_le (text : List Char) {i j : ℤ} (hi : 0 ≤ i) (hj : 0 ≤ j) :
    ((pySlice text i j).length : ℤ) ≤ max 0 (j - i) := by
  unfold pySlice
  dsimp only
  rw [if_neg (by omega), if_neg (by omega), List.length_drop, List.length_take]
  omega

/-- No place to start lies in the overlap before an end at or before the start of the chunk. -/
structure OverlapClear (rt : ChunkerRuntime) (chunker : Chunker) (text : List Char)
    (start stop : ℤ) : Prop where
  boundaries : ∀ b ∈ findBoundaries (pySlice text (chunker.windowStart rt stop) stop),
    start < chunker.windowStart rt stop + b.position
  spaces : findBoundaries (pySlice text (chunker.windowStart rt stop) stop) = [] →
    ∀ q, chunker.windowStart rt stop ≤ q → q < stop → isSpaceAt text q = true → start ≤ q

/-- The next chunk starts within the text before the end of this one; and it starts after this
one where the overlap is clear. -/
lemma findOverlapStart_spec (hstart : 0 ≤ start) (hstop : start < stop) :
    0 ≤ self.findOverlapStart rt text stop ∧ self.findOverlapStart rt text stop ≤ stop ∧
      (start < self.findOverlapStart rt text stop ↔
        self.overlapTokens = 0 ∨ (text.length : ℤ) ≤ stop ∨
          OverlapClear rt self text start stop) := by
  unfold Chunker.findOverlapStart
  split
  next hnone =>
    refine ⟨by omega, le_refl _, fun _ => ?_, fun _ => hstop⟩
    exact hnone.imp_right .inl
  next hoverlap =>
    obtain ⟨hzero, hlength⟩ := not_or.mp hoverlap
    have hwindow : 0 ≤ self.windowStart rt stop := le_max_left _ _
    dsimp only
    split
    next b bs hfound =>
      have hmem : b ∈ findBoundaries (pySlice text (self.windowStart rt stop) stop) := by
        rw [hfound]
        exact List.mem_cons_self
      have hposition := position_le_of_mem_findBoundaries hmem
      have hslice := length_pySlice_le text hwindow (show 0 ≤ stop by omega)
      -- a window that is not empty begins before its end
      have hopen : self.windowStart rt stop ≤ stop := by
        by_contra hnot
        have hempty : pySlice text (self.windowStart rt stop) stop = [] :=
          List.length_eq_zero_iff.mp (by omega)
        have hnone : findBoundaries [] = [] := by decide
        rw [hempty, hnone] at hfound
        cases hfound
      refine ⟨by omega, by omega, fun hlt => .inr (.inr ⟨fun b' hb' => ?_, fun hnil => ?_⟩), ?_⟩
      · have hfirst := head_findBoundaries hfound b' hb'
        omega
      · rw [hnil] at hfound
        cases hfound
      · rintro (hno | hno | hclear)
        · exact absurd hno hzero
        · exact absurd hno hlength
        · have hfirst := hclear.boundaries b hmem
          omega
    next hnil =>
      rcases le_or_gt (self.windowStart rt stop) stop with hle | hgt
      · obtain ⟨hlower, hupper, hiff⟩ := startAtSpace_spec text start
          (show self.windowStart rt stop + (stop - self.windowStart rt stop).toNat = stop by omega)
        refine ⟨by omega, hupper, fun hlt => .inr (.inr ⟨?_, fun _ => (hiff.mp hlt).2⟩), ?_⟩
        · rw [hnil]
          exact fun b hb => absurd hb List.not_mem_nil
        · rintro (hno | hno | hclear)
          · exact absurd hno hzero
          · exact absurd hno hlength
          · exact hiff.mpr ⟨hstop, hclear.spaces hnil⟩
      · have hturns : (stop - self.windowStart rt stop).toNat = 0 := by omega
        rw [hturns]
        unfold startAtSpace
        refine ⟨by omega, le_refl _, fun _ => .inr (.inr ⟨?_, ?_⟩), fun _ => hstop⟩
        · rw [hnil]
          exact fun b hb => absurd hb List.not_mem_nil
        · intro _ q hq hq'
          omega

/-! ### Runs -/

section Runs

variable (rt self text)

/-- Where the chunk from a start ends. -/
def endOf (start : ℤ) : ℤ := self.findChunkEnd rt text start (findBoundaries text)

/-- Where the chunk after the one from a start begins. -/
def nextOf (start : ℤ) : ℤ := self.findOverlapStart rt text (endOf rt self text start)

/-- The loop goes on after the chunk from a start. -/
def GoesOn (start : ℤ) : Prop :=
  start < text.length ∧ nextOf rt self text start < text.length - 10

/-- The starts the loop comes to from a start. -/
inductive Reached : ℤ → ℤ → Prop
  | refl (start : ℤ) : Reached start start
  | next {start start' : ℤ} : GoesOn rt self text start →
      Reached (nextOf rt self text start) start' → Reached start start'

/-- The chunks the loop makes from a start on. -/
inductive Trace : ℤ → List TextChunk → Prop
  | finished {start : ℤ} : (text.length : ℤ) ≤ start → Trace start []
  | last {start : ℤ} {chunk : TextChunk} : start < text.length →
      (text.length : ℤ) - 10 ≤ nextOf rt self text start → chunk.startChar = start →
      chunk.endChar = endOf rt self text start → Trace start [chunk]
  | more {start : ℤ} {chunk : TextChunk} {chunks : List TextChunk} : GoesOn rt self text start →
      chunk.startChar = start → chunk.endChar = endOf rt self text start →
      Trace (nextOf rt self text start) chunks → Trace start (chunk :: chunks)

end Runs

variable {turns chunkIndex : ℕ} {start' : ℤ} {chunk : TextChunk} {chunks result : List TextChunk}

/-- What the loop returns are the chunks of its run. -/
lemma trace_of_semanticLoop (h : self.semanticLoop rt text (findBoundaries text) turns start
      chunkIndex chunks = some result) :
    ∃ new, result = chunks ++ new ∧ Trace rt self text start new := by
  induction turns generalizing start chunkIndex chunks with
  | zero => cases h
  | succ turns ih =>
    unfold Chunker.semanticLoop at h
    dsimp only at h
    split at h
    next hlt =>
      split at h
      next hlast =>
        obtain rfl := Option.some.inj h
        exact ⟨_, rfl, .last hlt hlast rfl rfl⟩
      next hmore =>
        obtain ⟨new, rfl, htrace⟩ := ih h
        rw [List.append_assoc]
        exact ⟨_, rfl, .more ⟨hlt, not_le.mp hmore⟩ rfl rfl htrace⟩
    next hge =>
      obtain rfl := Option.some.inj h
      exact ⟨[], (List.append_nil _).symm, .finished (not_lt.mp hge)⟩

/-- A chunk of a run is one from a start that the loop comes to. -/
lemma Trace.reached (h : Trace rt self text start chunks) (hmem : chunk ∈ chunks) :
    Reached rt self text start chunk.startChar ∧ chunk.startChar < text.length ∧
      chunk.endChar = endOf rt self text chunk.startChar := by
  induction h with
  | finished => exact absurd hmem List.not_mem_nil
  | last hlt _ hstart hend =>
    obtain rfl := List.mem_singleton.mp hmem
    rw [hstart, hend]
    exact ⟨.refl _, hlt, rfl⟩
  | more hgoes hstart hend _ ih =>
    rcases List.mem_cons.mp hmem with rfl | hmem
    · rw [hstart, hend]
      exact ⟨.refl _, hgoes.1, rfl⟩
    · obtain ⟨hreached, hrest⟩ := ih hmem
      exact ⟨.next hgoes hreached, hrest⟩

/-- Where the starts of the chunks increase, the loop moves on at every start it comes to. -/
lemma Trace.lt_nextOf (h : Trace rt self text start chunks)
    (hsorted : chunks.Pairwise fun chunk chunk' => chunk.startChar < chunk'.startChar)
    (hreached : Reached rt self text start start') (hgoes : GoesOn rt self text start') :
    start' < nextOf rt self text start' := by
  induction hreached generalizing chunks with
  | refl start =>
    cases h with
    | finished hge => exact absurd hgoes.1 (not_lt.mpr hge)
    | last _ hlast => exact absurd hgoes.2 (not_lt.mpr hlast)
    | more _ hstart _ htrace =>
      have hfirst := (List.pairwise_cons.mp hsorted).1
      cases htrace with
      | finished hge =>
        have hnext := hgoes.2
        omega
      | last _ _ hstart' =>
        have hlt := hfirst _ List.mem_cons_self
        rwa [hstart, hstart'] at hlt
      | more _ hstart' =>
        have hlt := hfirst _ List.mem_cons_self
        rwa [hstart, hstart'] at hlt
  | next hgoes' _ ih =>
    cases h with
    | finished hge => exact absurd hgoes'.1 (not_lt.mpr hge)
    | last _ hlast => exact absurd hgoes'.2 (not_lt.mpr hlast)
    | more _ _ _ htrace => exact ih htrace (List.pairwise_cons.mp hsorted).2 hgoes

/-- Where the loop moves on at every start, the starts of the chunks increase. -/
lemma Trace.increasing (h : Trace rt self text start chunks)
    (hmoves : ∀ start', Reached rt self text start start' → GoesOn rt self text start' →
      start' < nextOf rt self text start') :
    (chunks.Pairwise fun chunk chunk' => chunk.startChar < chunk'.startChar) ∧
      ∀ chunk ∈ chunks, start ≤ chunk.startChar := by
  induction h with
  | finished => exact ⟨.nil, fun _ hmem => absurd hmem List.not_mem_nil⟩
  | last _ _ hstart =>
    refine ⟨List.pairwise_singleton _ _, fun chunk hmem => ?_⟩
    obtain rfl := List.mem_singleton.mp hmem
    exact le_of_eq hstart.symm
  | more hgoes hstart _ _ ih =>
    obtain ⟨hsorted, hbound⟩ := ih fun start' hreached => hmoves start' (.next hgoes hreached)
    have hnext := hmoves _ (.refl _) hgoes
    refine ⟨List.pairwise_cons.mpr ⟨fun chunk hmem => ?_, hsorted⟩, fun chunk hmem => ?_⟩
    · rw [hstart]
      exact lt_of_lt_of_le hnext (hbound chunk hmem)
    · rcases List.mem_cons.mp hmem with rfl | hmem
      · exact le_of_eq hstart.symm
      · exact le_trans (le_of_lt hnext) (hbound chunk hmem)

section Limit

variable (hlimit : 1 ≤ rt.charsOfTokens self.maxTokens)
include hlimit

lemma lt_endOf (hlt : start < text.length) :
    start < endOf rt self text start ∧ endOf rt self text start ≤ text.length :=
  lt_findChunkEnd hlimit hlt _

/-- The next chunk leaves no gap, and starts later where the overlap is clear. -/
lemma nextOf_spec (hstart : 0 ≤ start) (hlt : start < text.length) :
    0 ≤ nextOf rt self text start ∧ nextOf rt self text start ≤ endOf rt self text start ∧
      (start < nextOf rt self text start ↔ self.overlapTokens = 0 ∨
        (text.length : ℤ) ≤ endOf rt self text start ∨
        OverlapClear rt self text start (endOf rt self text start)) :=
  findOverlapStart_spec hstart (lt_endOf hlimit hlt).1

lemma nonneg_of_reached (hstart : 0 ≤ start) (h : Reached rt self text start start') :
    0 ≤ start' := by
  induction h with
  | refl => exact hstart
  | next hgoes _ ih => exact ih (nextOf_spec hlimit hstart hgoes.1).1

/-- What lies before the end of some chunk of a run lies in one. -/
lemma Trace.exists_chunk (h : Trace rt self text start chunks) (hstart : 0 ≤ start)
    (hreached : Reached rt self text start start') (hlt : start' < text.length) {p : ℤ}
    (hp : start ≤ p) (hend : p < endOf rt self text start') :
    ∃ chunk ∈ chunks, chunk.startChar ≤ p ∧ p < chunk.endChar := by
  -- by induction on the run: a place before the next start lies in the first chunk
  induction hreached generalizing chunks with
  | refl start =>
    cases h with
    | finished hge => exact absurd hlt (not_lt.mpr hge)
    | last _ _ hstart' hend' =>
      exact ⟨_, List.mem_cons_self, le_of_eq_of_le hstart' hp, lt_of_lt_of_eq hend hend'.symm⟩
    | more _ hstart' hend' =>
      exact ⟨_, List.mem_cons_self, le_of_eq_of_le hstart' hp, lt_of_lt_of_eq hend hend'.symm⟩
  | @next first _ hgoes _ ih =>
    cases h with
    | finished hge => exact absurd hgoes.1 (not_lt.mpr hge)
    | last _ hlast => exact absurd hgoes.2 (not_lt.mpr hlast)
    | more _ hstart' hend' htrace =>
      obtain ⟨hnonneg, hgap, -⟩ := nextOf_spec hlimit hstart hgoes.1
      by_cases hfirst : p < nextOf rt self text first
      · exact ⟨_, List.mem_cons_self, le_of_eq_of_le hstart' hp,
          lt_of_lt_of_eq (lt_of_lt_of_le hfirst hgap) hend'.symm⟩
      · obtain ⟨chunk, hmem, hchunk⟩ := ih htrace hnonneg hlt (not_lt.mp hfirst) hend
        exact ⟨chunk, List.mem_cons_of_mem _ hmem, hchunk⟩

/-- Where the loop moves on at every start, it ends. -/
lemma exists_semanticLoop (hstart : 0 ≤ start)
    (hmoves : ∀ start', Reached rt self text start start' → GoesOn rt self text start' →
      start' < nextOf rt self text start') (chunkIndex : ℕ) (chunks : List TextChunk) :
    ∃ result enough, ∀ turns, enough ≤ turns → self.semanticLoop rt text (findBoundaries text)
      turns start chunkIndex chunks = some result := by
  -- by induction on the length of the text behind the start
  generalize hrest : (text.length - start).toNat = rest
  induction rest using Nat.strong_induction_on generalizing start chunkIndex chunks with
  | _ rest ih =>
    by_cases hlt : start < text.length
    · by_cases hlast : (text.length : ℤ) - 10 ≤ nextOf rt self text start
      · refine ⟨chunks ++ [self.chunkAt rt text chunkIndex start (endOf rt self text start)], 1,
          fun turns hturns => ?_⟩
        obtain ⟨turns, rfl⟩ := Nat.exists_eq_add_of_le' hturns
        unfold Chunker.semanticLoop
        dsimp only
        rw [if_pos hlt]
        exact if_pos hlast
      · have hgoes : GoesOn rt self text start := ⟨hlt, not_le.mp hlast⟩
        have hnext := hmoves start (.refl _) hgoes
        obtain ⟨result, enough, hresult⟩ := ih _ (by omega) (nextOf_spec hlimit hstart hlt).1
          (fun start' hreached => hmoves start' (.next hgoes hreached)) (chunkIndex + 1)
          (chunks ++ [self.chunkAt rt text chunkIndex start (endOf rt self text start)]) rfl
        refine ⟨result, enough + 1, fun turns hturns => ?_⟩
        obtain ⟨turns, rfl⟩ := Nat.exists_eq_add_of_le' (Nat.le_trans (Nat.le_add_left 1 _) hturns)
        unfold Chunker.semanticLoop
        dsimp only
        rw [if_pos hlt]
        refine (if_neg hlast).trans (hresult turns (by omega))
    · refine ⟨chunks, 1, fun turns hturns => ?_⟩
      obtain ⟨turns, rfl⟩ := Nat.exists_eq_add_of_le' hturns
      unfold Chunker.semanticLoop
      exact if_neg hlt

end Limit

/-! ### When the chunks cover the text -/

/-- The condition under which semantic chunking does what it should: a chunk has room for a
character; wherever the loop goes on, there is no overlap, or it is clear; and what lies behind the
ends of all the chunks is white space. -/
structure LeavesNothing (rt : ChunkerRuntime) (chunker : Chunker) (text : List Char) : Prop where
  limit : 1 ≤ rt.charsOfTokens chunker.maxTokens
  clear : ∀ start, Reached rt chunker text 0 start → GoesOn rt chunker text start →
    chunker.overlapTokens = 0 ∨ (text.length : ℤ) ≤ endOf rt chunker text start ∨
      OverlapClear rt chunker text start (endOf rt chunker text start)
  rest : ∀ (p : ℕ) (c : Char), text[p]? = some c → isSpace c = false →
    ∃ start, Reached rt chunker text 0 start ∧ start < text.length ∧
      (p : ℤ) < endOf rt chunker text start

/-- Semantic chunking.  The loop ends with chunks whose starts increase and which cover every
character that is no white space exactly where it leaves nothing. -/
theorem chunkSemantic_covers_iff (rt : ChunkerRuntime) (chunker : Chunker) (text : List Char)
    (h : 1 ≤ rt.charsOfTokens chunker.maxTokens ∨ ∃ c ∈ text, isSpace c = false) :
    (∃ chunks, (∃ enough, ∀ turns, enough ≤ turns →
        chunker.chunkSemantic rt turns text = some chunks) ∧
      (chunks.Pairwise fun chunk chunk' => chunk.startChar < chunk'.startChar) ∧
      Covers text chunks) ↔ LeavesNothing rt chunker text := by
  constructor
  · rintro ⟨chunks, ⟨enough, hrun⟩, hsorted, hcovers⟩
    obtain ⟨new, rfl, htrace⟩ := trace_of_semanticLoop (hrun enough (Nat.le_refl _))
    have hlimit : 1 ≤ rt.charsOfTokens chunker.maxTokens := by
      by_contra hnone
      obtain ⟨c, hc, hspace⟩ := h.resolve_left hnone
      obtain ⟨p, hp⟩ := List.mem_iff_getElem?.mp hc
      obtain ⟨chunk, hmem, hle, hlt⟩ := hcovers p c hp hspace
      obtain ⟨-, -, hend⟩ := htrace.reached hmem
      have hshort : endOf rt chunker text chunk.startChar ≤ chunk.startChar :=
        findChunkEnd_le (by omega) _ _
      omega
    refine ⟨hlimit, fun start hreached hgoes => ?_, fun p c hp hspace => ?_⟩
    · have hnonneg := nonneg_of_reached hlimit (le_refl 0) hreached
      exact (nextOf_spec hlimit hnonneg hgoes.1).2.2.mp (htrace.lt_nextOf hsorted hreached hgoes)
    · obtain ⟨chunk, hmem, -, hlt⟩ := hcovers p c hp hspace
      obtain ⟨hreached, hbefore, hend⟩ := htrace.reached hmem
      exact ⟨chunk.startChar, hreached, hbefore, hend ▸ hlt⟩
  · intro hleaves
    have hmoves : ∀ start', Reached rt chunker text 0 start' → GoesOn rt chunker text start' →
        start' < nextOf rt chunker text start' := fun start' hreached hgoes =>
      (nextOf_spec hleaves.limit (nonneg_of_reached hleaves.limit (le_refl 0) hreached)
        hgoes.1).2.2.mpr (hleaves.clear start' hreached hgoes)
    obtain ⟨result, enough, hresult⟩ :=
      exists_semanticLoop hleaves.limit (le_refl 0) hmoves 1 []
    obtain ⟨new, rfl, htrace⟩ := trace_of_semanticLoop (hresult enough (Nat.le_refl _))
    refine ⟨_, ⟨enough, hresult⟩, (htrace.increasing hmoves).1, fun p c hp hspace => ?_⟩
    obtain ⟨start, hreached, hlt, hend⟩ := hleaves.rest p c hp hspace
    exact htrace.exists_chunk hleaves.limit (le_refl 0) hreached hlt (Int.natCast_nonneg p) hend

/-- Nine words. -/
def nineWords : List Char := "aaaa bbbb cccc dddd eeee ffff gggg hhhh iiii".toList

/-- Two chunks, of which the second begins in the overlap of the first. -/
theorem chunkSemantic_covers_nineWords :
    LeavesNothing approximate ⟨10, 2, true, true⟩ nineWords := by
  refine (chunkSemantic_covers_iff approximate ⟨10, 2, true, true⟩ nineWords
    (.inl (by decide))).mp ?_
  have hlength : ((nineWords.length : ℕ) : ℤ) = 44 := rfl
  have hends : endOf approximate ⟨10, 2, true, true⟩ nineWords 0 = 34 ∧
      endOf approximate ⟨10, 2, true, true⟩ nineWords 30 = 44 := by decide +kernel
  have hnext : nextOf approximate ⟨10, 2, true, true⟩ nineWords 0 = 30 ∧
      34 ≤ nextOf approximate ⟨10, 2, true, true⟩ nineWords 30 := by decide +kernel
  unfold nextOf at hnext
  rw [hends.1, hends.2] at hnext
  unfold endOf at hends
  refine ⟨[Chunker.chunkAt approximate ⟨10, 2, true, true⟩ nineWords 1 0 34,
    Chunker.chunkAt approximate ⟨10, 2, true, true⟩ nineWords 2 30 44],
    ⟨2, fun turns hturns => ?_⟩, List.pairwise_pair.mpr (by decide), fun p c hp _ => ?_⟩
  · obtain ⟨turns, rfl⟩ := Nat.exists_eq_add_of_le' hturns
    unfold Chunker.chunkSemantic Chunker.semanticLoop
    dsimp only
    rw [hends.1, hnext.1, hlength, if_pos (by decide), if_neg (by decide)]
    unfold Chunker.semanticLoop
    dsimp only
    rw [hends.2, hlength, if_pos (by decide), if_pos (by omega)]
    rfl
  · obtain ⟨hlt, -⟩ := List.getElem?_eq_some_iff.mp hp
    have hp44 : (p : ℤ) < 44 := hlength ▸ Int.ofNat_lt.mpr hlt
    rcases lt_or_ge (p : ℤ) 34 with hfirst | hsecond
    · exact ⟨_, List.mem_cons_self, Int.natCast_nonneg p, hfirst⟩
    · exact ⟨_, List.mem_cons_of_mem _ List.mem_cons_self, le_trans (by decide) hsecond, hp44⟩
/-- Two texts with a limit of ten tokens.  With an overlap of five the loop comes back to the first
paragraph of the one for ever; and without an overlap the last six characters of the other are in
no chunk. -/
theorem chunkSemantic_loops_and_drops :
    (∀ turns, Chunker.chunkSemantic approximate ⟨10, 5, true, true⟩ turns
      "aaaaa\n\nbbbbb\n\nccccccccccccc".toList = none) ∧
    ∃ chunks, Chunker.chunkSemantic approximate ⟨10, 0, true, true⟩ 5 (List.replicate 40 'a') =
        some chunks ∧ ¬ Covers (List.replicate 40 'a') chunks := by
  constructor
  · have hfirst : nextOf approximate ⟨10, 5, true, true⟩
        "aaaaa\n\nbbbbb\n\nccccccccccccc".toList 0 = 5 := by decide +kernel
    have hagain : nextOf approximate ⟨10, 5, true, true⟩
        "aaaaa\n\nbbbbb\n\nccccccccccccc".toList 5 = 5 := by decide +kernel
    have hstuck : ∀ turns start chunkIndex chunks, (start = 0 ∨ start = 5) →
        Chunker.semanticLoop approximate ⟨10, 5, true, true⟩
          "aaaaa\n\nbbbbb\n\nccccccccccccc".toList
          (findBoundaries "aaaaa\n\nbbbbb\n\nccccccccccccc".toList) turns start chunkIndex chunks =
            none := by
      intro turns
      induction turns with
      | zero => exact fun _ _ _ _ => rfl
      | succ turns ih =>
        intro start chunkIndex chunks hstart
        have hnext : nextOf approximate ⟨10, 5, true, true⟩
            "aaaaa\n\nbbbbb\n\nccccccccccccc".toList start = 5 := by
          rcases hstart with rfl | rfl
          · exact hfirst
          · exact hagain
        have hlength : (("aaaaa\n\nbbbbb\n\nccccccccccccc".toList.length : ℕ) : ℤ) = 27 := rfl
        unfold nextOf endOf at hnext
        unfold Chunker.semanticLoop
        dsimp only
        rw [hnext, hlength, if_pos (by omega), if_neg (by decide)]
        exact ih 5 _ _ (.inr rfl)
    exact fun turns => hstuck turns 0 1 [] (.inl rfl)
  · have hends : (Chunker.chunkSemantic approximate ⟨10, 0, true, true⟩ 5
        (List.replicate 40 'a')).map (List.map TextChunk.endChar) = some [17, 34] := by
      decide +kernel
    obtain ⟨chunks, hrun, hplaces⟩ := Option.map_eq_some_iff.mp hends
    refine ⟨chunks, hrun, fun hcovers => ?_⟩
    obtain ⟨chunk, hmem, -, hlt⟩ := hcovers 34 'a' rfl (by decide)
    have hend : chunk.endChar ∈ [17, 34] := hplaces ▸ List.mem_map_of_mem hmem
    simp only [List.mem_cons, List.not_mem_nil, or_false] at hend
    omega

end Trion.TextUtils
