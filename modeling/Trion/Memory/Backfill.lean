import Mathlib.Data.List.Nodup
import Mathlib.Order.WellFounded
import Trion.Library.StepMachine
import Trion.Memory.VectorStore

/-!
# Repeated backfills

A backfill is repeated until a call processes nothing.  Every call takes the first stale rows, and
those that have no embedding stay stale and are taken again.  So a row is reached exactly if fewer
rows without an embedding stand before it than a call takes.
-/

namespace Trion.Memory

open StepMachine StepMachine.Machine

/-! ### The run -/

section Run

variable (service : EmbeddingService) (filter : EntryFilter) (batchSize : ℕ)

/-- Calls of `backfill_embeddings`, until one processes nothing. -/
def backfills : Machine VectorTable BackfillAnswer VectorTable := fun t =>
  let (answer, after) := t.backfillEmbeddings service batchSize filter false
  if answer.processed = 0 then ([answer], .halt after) else ([answer], .next after)

/-- The row is asked for and stale. -/
def IsOpen (entry : Entry) : Prop := entry.IsStale service ∧ filter.Admits entry

instance : DecidablePred (IsOpen service filter) := fun _ => inferInstanceAs (Decidable (_ ∧ _))

/-- The service has an embedding for the row. -/
def HasEmbedding (entry : Entry) : Prop :=
  (service.getEmbeddingWithMetadata entry.id entry.content).isSome = true

instance : DecidablePred (HasEmbedding service) := fun _ => inferInstanceAs (Decidable (_ = _))

/-- How many open rows without an embedding stand before a row. -/
def stuckBefore (t : VectorTable) (entry : Entry) : ℕ :=
  t.rows.countP fun other => (IsOpen service filter other ∧ ¬HasEmbedding service other) ∧
    other.id < entry.id

/-- The repeated backfill ends, no open row that could have an embedding is left, and the rows of
the active version are as before. -/
def Drains (t : VectorTable) : Prop :=
  ∃ answers after, (backfills service filter batchSize).HaltsWith t answers after ∧
    (∀ entry ∈ after.rows, IsOpen service filter entry → ¬HasEmbedding service entry) ∧
    ∀ entry ∈ t.rows, ¬entry.IsStale service → entry ∈ after.rows

/-- Fewer open rows without an embedding than a call takes stand before each open row that has
one. -/
def IsReachable (t : VectorTable) : Prop :=
  ∀ entry ∈ t.rows, IsOpen service filter entry → HasEmbedding service entry →
    stuckBefore service filter t entry < batchSize

end Run

/-! ### Sorted rows -/

section Sorted

variable {rows : List Entry} {entry : Entry} {n : ℕ}

/-- A row is among the first ones if few rows stand before it. -/
lemma mem_take_iff (hsorted : rows.Pairwise fun a b => a.id < b.id) (hmem : entry ∈ rows) :
    entry ∈ rows.take n ↔ (rows.countP fun other => other.id < entry.id) < n := by
  induction rows generalizing n with
  | nil => exact absurd hmem List.not_mem_nil
  | cons first rows ih =>
    obtain ⟨hfirst, hrest⟩ := List.pairwise_cons.mp hsorted
    cases n with
    | zero => simp
    | succ n =>
      rw [List.take_succ_cons, List.mem_cons, List.countP_cons]
      rcases List.mem_cons.mp hmem with rfl | hlater
      · have hnone : rows.countP (fun other => decide (other.id < entry.id)) = 0 := by
          refine List.countP_eq_zero.mpr fun other hother => ?_
          simpa using (hfirst other hother).le
        simp [hnone]
      · have hne : entry ≠ first := by
          rintro rfl
          exact absurd (hfirst entry hlater) (lt_irrefl _)
        rw [if_pos (decide_eq_true (hfirst entry hlater)), ih hrest hlater]
        simp [hne]

/-- The rows of the start stand before one that is not among them. -/
lemma le_countP_of_notMem_take (hsorted : rows.Pairwise fun a b => a.id < b.id)
    (hmem : entry ∈ rows) (hout : entry ∉ rows.take n) {p : Entry → Bool}
    (hp : ∀ other ∈ rows.take n, p other = true) :
    n ≤ rows.countP fun other => p other && decide (other.id < entry.id) := by
  have hdrop : entry ∈ rows.drop n := by
    rw [← List.take_append_drop n rows, List.mem_append] at hmem
    exact hmem.resolve_left hout
  have hlen : (rows.take n).length = n := by
    have hlt : n < rows.length := by
      by_contra hle
      rw [List.drop_eq_nil_of_le (Nat.not_lt.mp hle)] at hdrop
      exact absurd hdrop List.not_mem_nil
    rw [List.length_take, Nat.min_eq_left hlt.le]
  have hbefore : ∀ other ∈ rows.take n, other.id < entry.id := by
    rw [← List.take_append_drop n rows] at hsorted
    exact fun other hother => (List.pairwise_append.mp hsorted).2.2 other hother entry hdrop
  have hall : (rows.take n).countP (fun other => p other && decide (other.id < entry.id)) =
      (rows.take n).length := by
    refine List.countP_eq_length.mpr fun other hother => ?_
    simp [hp other hother, hbefore other hother]
  calc n = (rows.take n).countP (fun other => p other && decide (other.id < entry.id)) :=
        hlen.symm.trans hall.symm
    _ ≤ _ := (List.take_sublist n rows).countP_le

end Sorted

/-! ### One call -/

section Call

variable {service : EmbeddingService} {filter : EntryFilter} {batchSize : ℕ} {t : VectorTable}
  {entry row : Entry} {rows : List Entry} {s : BackfillState}

/-- The row with the embedding of the service, if it has one. -/
def refreshed (service : EmbeddingService) (entry : Entry) : Entry :=
  match service.getEmbeddingWithMetadata entry.id entry.content with
  | none => entry
  | some emb => entry.embedded emb

@[simp] lemma refreshed_id : (refreshed service entry).id = entry.id := by
  unfold refreshed
  split <;> rfl

lemma refreshed_of_not (h : ¬HasEmbedding service entry) : refreshed service entry = entry := by
  unfold refreshed
  cases hemb : service.getEmbeddingWithMetadata entry.id entry.content with
  | none => rfl
  | some emb => exact absurd (by rw [HasEmbedding, hemb]; rfl) h

/-- A row that gets an embedding has the active version. -/
lemma not_isStale_refreshed (h : HasEmbedding service entry) :
    ¬(refreshed service entry).IsStale service := by
  unfold HasEmbedding at h
  unfold refreshed
  cases hemb : service.getEmbeddingWithMetadata entry.id entry.content with
  | none =>
    rw [hemb] at h
    exact absurd h Bool.false_ne_true
  | some emb =>
    obtain ⟨vector, -, rfl⟩ := Option.map_eq_some_iff.mp hemb
    exact not_not_intro rfl

lemma eq_of_id_eq (hentry : entry ∈ t.rows) (hrow : row ∈ t.rows) (hid : entry.id = row.id) :
    entry = row := by
  have hids : (t.rows.map Entry.id).Nodup :=
    List.pairwise_map.mpr (t.sorted.imp fun hlt => ne_of_lt hlt)
  exact List.inj_on_of_nodup_map hids hentry hrow hid

/-- One turn of the loop refreshes its row. -/
lemma rows_backfillRow (service : EmbeddingService) (hrow : row ∈ s.table.rows) :
    (backfillRow service s row).table.rows =
      s.table.rows.map fun entry => if entry = row then refreshed service entry else entry := by
  unfold backfillRow
  cases hemb : service.getEmbeddingWithMetadata row.id row.content with
  | none =>
    have hsame : ∀ entry ∈ s.table.rows,
        (if entry = row then refreshed service entry else entry) = entry := by
      intro entry _
      split
      · rename_i heq
        exact refreshed_of_not (by rw [heq, HasEmbedding, hemb]; exact Bool.false_ne_true)
      · rfl
    exact ((List.map_congr_left hsame).trans (List.map_id _)).symm
  | some emb =>
    refine List.map_congr_left fun entry hentry => ?_
    by_cases heq : entry = row
    · rw [if_pos heq, if_pos (congrArg Entry.id heq), refreshed, heq, hemb]
    · rw [if_neg heq, if_neg fun hid => heq (eq_of_id_eq hentry hrow hid)]

/-- The loop refreshes the rows it goes through. -/
lemma rows_backfill (hrows : rows.Pairwise fun a b => a.id < b.id)
    (hmem : ∀ row ∈ rows, row ∈ s.table.rows) :
    (rows.foldl (backfillRow service) s).table.rows =
      s.table.rows.map fun entry => if entry ∈ rows then refreshed service entry else entry := by
  induction rows generalizing s with
  | nil => simp
  | cons row rows ih =>
    obtain ⟨hfirst, hrest⟩ := List.pairwise_cons.mp hrows
    obtain ⟨hrow, hlater⟩ := List.forall_mem_cons.mp hmem
    have hout : ∀ {entry : Entry}, entry.id = row.id → entry ∉ rows := by
      intro entry hid hin
      exact absurd (hfirst entry hin) (by rw [hid]; exact lt_irrefl _)
    have hstep := rows_backfillRow service hrow
    rw [List.foldl_cons, ih hrest, hstep, List.map_map]
    · refine List.map_congr_left fun entry _ => ?_
      by_cases heq : entry = row
      · rw [Function.comp_apply, if_pos heq, if_neg (hout (refreshed_id.trans (congrArg _ heq))),
          if_pos (List.mem_cons.mpr (.inl heq))]
      · simp [heq]
    · intro other hother
      rw [hstep]
      refine List.mem_map.mpr ⟨other, hlater other hother, if_neg ?_⟩
      rintro rfl
      exact hout rfl hother

lemma processed_backfill :
    (rows.foldl (backfillRow service) s).processed =
      s.processed + rows.countP fun row => HasEmbedding service row := by
  induction rows generalizing s with
  | nil => rfl
  | cons row rows ih =>
    rw [List.foldl_cons, ih, List.countP_cons]
    unfold backfillRow
    cases hemb : service.getEmbeddingWithMetadata row.id row.content with
    | none =>
      have hnone : ¬HasEmbedding service row := by simp [HasEmbedding, hemb]
      simp [hnone]
    | some emb =>
      have hsome : HasEmbedding service row := by simp [HasEmbedding, hemb]
      simp only [hsome, decide_true, if_true]
      omega

lemma selected_sorted :
    (t.selected service filter batchSize).Pairwise fun a b => a.id < b.id :=
  t.sorted.sublist ((List.take_sublist _ _).trans List.filter_sublist)

lemma of_mem_selected (h : entry ∈ t.selected service filter batchSize) :
    entry ∈ t.rows ∧ IsOpen service filter entry := by
  obtain ⟨hmem, hopen⟩ := List.mem_filter.mp (List.mem_of_mem_take h)
  exact ⟨hmem, of_decide_eq_true hopen⟩

/-- The table after a call. -/
lemma rows_backfillEmbeddings :
    (t.backfillEmbeddings service batchSize filter false).2.rows =
      t.rows.map fun entry =>
        if entry ∈ t.selected service filter batchSize then refreshed service entry else entry :=
  rows_backfill selected_sorted fun _ hrow => (of_mem_selected hrow).1

lemma processed_backfillEmbeddings :
    (t.backfillEmbeddings service batchSize filter false).1.processed =
      (t.selected service filter batchSize).countP fun row => HasEmbedding service row :=
  processed_backfill.trans (Nat.zero_add _)

end Call

/-! ### All calls -/

section Calls

variable {service : EmbeddingService} {filter : EntryFilter} {batchSize : ℕ}
  {t t' after : VectorTable} {entry : Entry} {answers answers' : List BackfillAnswer}

/-- What the calls do to a table: rows without an embedding stay where they are, open rows with
one are as they were or have been reached, and the rows of the active version stay. -/
structure Follows (service : EmbeddingService) (filter : EntryFilter) (batchSize : ℕ)
    (t t' : VectorTable) : Prop where
  stuck : ∀ entry, stuckBefore service filter t' entry = stuckBefore service filter t entry
  remaining : ∀ entry ∈ t'.rows, IsOpen service filter entry → entry ∈ t.rows
  reached : ∀ entry ∈ t.rows, IsOpen service filter entry → HasEmbedding service entry →
    entry ∈ t'.rows ∨ stuckBefore service filter t entry < batchSize
  active : ∀ entry ∈ t.rows, ¬entry.IsStale service → entry ∈ t'.rows

lemma Follows.refl : Follows service filter batchSize t t where
  stuck _ := rfl
  remaining _ h _ := h
  reached _ h _ _ := .inl h
  active _ h _ := h

lemma Follows.trans {t'' : VectorTable} (h : Follows service filter batchSize t t')
    (h' : Follows service filter batchSize t' t'') : Follows service filter batchSize t t'' where
  stuck entry := (h'.stuck entry).trans (h.stuck entry)
  remaining entry hmem hopen := h.remaining entry (h'.remaining entry hmem hopen) hopen
  reached entry hmem hopen hemb := (h.reached entry hmem hopen hemb).elim
    (fun hleft => (h'.reached entry hleft hopen hemb).imp_right fun hlt => h.stuck entry ▸ hlt)
    .inr
  active entry hmem hstale := h'.active entry (h.active entry hmem hstale) hstale

/-- A row that a call takes is reached. -/
lemma stuckBefore_of_mem_selected (h : entry ∈ t.selected service filter batchSize) :
    stuckBefore service filter t entry < batchSize := by
  have hmem : entry ∈ t.rows.filter fun entry => IsOpen service filter entry :=
    List.mem_of_mem_take h
  have hlt := (mem_take_iff (t.sorted.sublist List.filter_sublist) hmem).mp h
  rw [List.countP_filter] at hlt
  refine Nat.lt_of_le_of_lt (List.countP_mono_left fun other _ hother => ?_) hlt
  simp only [Bool.and_eq_true, decide_eq_true_eq] at hother ⊢
  exact ⟨hother.2, hother.1.1⟩

/-- A row that a call does not take, or for which there is no embedding, stays as it is. -/
lemma untaken (h : ¬(entry ∈ t.selected service filter batchSize ∧ HasEmbedding service entry)) :
    (if entry ∈ t.selected service filter batchSize then refreshed service entry else entry) =
      entry := by
  by_cases hselected : entry ∈ t.selected service filter batchSize
  · rw [if_pos hselected, refreshed_of_not fun hemb => h ⟨hselected, hemb⟩]
  · rw [if_neg hselected]

/-- What one call does. -/
lemma follows_backfillEmbeddings :
    Follows service filter batchSize t
      (t.backfillEmbeddings service batchSize filter false).2 := by
  refine ⟨fun entry => ?_, fun entry hmem hopen => ?_, fun entry hmem hopen hemb => ?_,
    fun entry hmem hstale => ?_⟩
  · unfold stuckBefore
    rw [rows_backfillEmbeddings, List.countP_map]
    refine List.countP_congr fun other _ => ?_
    simp only [Function.comp_apply, decide_eq_true_eq]
    by_cases htaken : other ∈ t.selected service filter batchSize ∧ HasEmbedding service other
    · rw [if_pos htaken.1]
      exact ⟨fun h => absurd h.1.1.1 (not_isStale_refreshed htaken.2),
        fun h => absurd htaken.2 h.1.2⟩
    · rw [untaken htaken]
  · rw [rows_backfillEmbeddings, List.mem_map] at hmem
    obtain ⟨old, hold, rfl⟩ := hmem
    by_cases htaken : old ∈ t.selected service filter batchSize ∧ HasEmbedding service old
    · rw [if_pos htaken.1] at hopen
      exact absurd hopen.1 (not_isStale_refreshed htaken.2)
    · rwa [untaken htaken]
  · by_cases hselected : entry ∈ t.selected service filter batchSize
    · exact .inr (stuckBefore_of_mem_selected hselected)
    · rw [rows_backfillEmbeddings]
      exact .inl (List.mem_map.mpr ⟨entry, hmem, if_neg hselected⟩)
  · rw [rows_backfillEmbeddings]
    refine List.mem_map.mpr ⟨entry, hmem, if_neg fun hselected => ?_⟩
    exact hstale (of_mem_selected hselected).2.1

/-- How many open rows could have an embedding. -/
def waiting (service : EmbeddingService) (filter : EntryFilter) (t : VectorTable) : ℕ :=
  t.rows.countP fun entry => IsOpen service filter entry ∧ HasEmbedding service entry

/-- A count goes down where a property is lost somewhere and gained nowhere. -/
lemma countP_lt {α : Type*} {p q : α → Bool} {xs : List α} (hle : ∀ x ∈ xs, p x = true → q x = true)
    (hlt : ∃ x ∈ xs, q x = true ∧ p x = false) : xs.countP p < xs.countP q := by
  induction xs with
  | nil =>
    obtain ⟨x, hmem, -⟩ := hlt
    exact absurd hmem List.not_mem_nil
  | cons x xs ih =>
    rw [List.forall_mem_cons] at hle
    have hrest : xs.countP p ≤ xs.countP q := List.countP_mono_left hle.2
    rw [List.countP_cons, List.countP_cons]
    obtain ⟨y, hmem, hq, hp⟩ := hlt
    rcases List.mem_cons.mp hmem with rfl | hmem
    · rw [hp, hq, if_neg Bool.false_ne_true, if_pos rfl]
      omega
    · have hstrict := ih hle.2 ⟨y, hmem, hq, hp⟩
      have hhead : (if p x = true then 1 else 0) ≤ if q x = true then 1 else 0 := by
        split
        · rename_i hx
          rw [if_pos (hle.1 hx)]
        · exact Nat.zero_le _
      omega

/-- A call that processes something leaves fewer rows waiting. -/
lemma waiting_lt (h : (t.backfillEmbeddings service batchSize filter false).1.processed ≠ 0) :
    waiting service filter (t.backfillEmbeddings service batchSize filter false).2 <
      waiting service filter t := by
  rw [processed_backfillEmbeddings] at h
  obtain ⟨entry, hselected, hemb⟩ := List.countP_pos_iff.mp (Nat.pos_of_ne_zero h)
  have hrefreshed : ∀ {other : Entry}, HasEmbedding service other →
      ¬IsOpen service filter (refreshed service other) :=
    fun hother hopen => not_isStale_refreshed hother hopen.1
  unfold waiting
  rw [rows_backfillEmbeddings, List.countP_map]
  refine countP_lt (fun other _ hother => ?_) ⟨entry, (of_mem_selected hselected).1, ?_, ?_⟩
  · by_cases htaken : other ∈ t.selected service filter batchSize ∧ HasEmbedding service other
    · rw [Function.comp_apply, if_pos htaken.1] at hother
      exact absurd (of_decide_eq_true hother).1 (hrefreshed htaken.2)
    · rwa [Function.comp_apply, untaken htaken] at hother
  · exact decide_eq_true ⟨(of_mem_selected hselected).2, of_decide_eq_true hemb⟩
  · rw [Function.comp_apply, if_pos hselected]
    exact decide_eq_false fun hopen => hrefreshed (of_decide_eq_true hemb) hopen.1

lemma backfills_of_processed
    (h : (t.backfillEmbeddings service batchSize filter false).1.processed ≠ 0) :
    backfills service filter batchSize t =
      ([(t.backfillEmbeddings service batchSize filter false).1],
        .next (t.backfillEmbeddings service batchSize filter false).2) := if_neg h

lemma backfills_of_none
    (h : (t.backfillEmbeddings service batchSize filter false).1.processed = 0) :
    backfills service filter batchSize t =
      ([(t.backfillEmbeddings service batchSize filter false).1],
        .halt (t.backfillEmbeddings service batchSize filter false).2) := if_pos h

/-- The repeated backfill ends. -/
lemma halts_backfills (service : EmbeddingService) (filter : EntryFilter) (batchSize : ℕ)
    (t : VectorTable) : (backfills service filter batchSize).Halts t := by
  refine halts_of_wellFounded (I := fun _ => True) Nat.lt_wfRel.wf (waiting service filter) ?_
    trivial
  intro s answers next _ hstep
  by_cases hnone : (s.backfillEmbeddings service batchSize filter false).1.processed = 0
  · rw [backfills_of_none hnone] at hstep
    cases hstep
  · rw [backfills_of_processed hnone] at hstep
    cases hstep
    exact ⟨trivial, waiting_lt hnone⟩

lemma Follows.of_reaches (h : (backfills service filter batchSize).Reaches t answers t') :
    Follows service filter batchSize t t' := by
  refine h.invariant (I := Follows service filter batchSize t) ?_ .refl
  intro s answers next hs hstep
  refine hs.trans ?_
  by_cases hnone : (s.backfillEmbeddings service batchSize filter false).1.processed = 0
  · rw [backfills_of_none hnone] at hstep
    cases hstep
  · rw [backfills_of_processed hnone] at hstep
    cases hstep
    exact follows_backfillEmbeddings

/-- After the last call, the first open rows are rows without an embedding. -/
lemma exists_last (h : (backfills service filter batchSize).HaltsWith t answers after) :
    Follows service filter batchSize t after ∧
      ∀ entry ∈ after.selected service filter batchSize, ¬HasEmbedding service entry := by
  obtain ⟨last, before, answer, hreach, hlast, -⟩ := h.exists_last
  by_cases hnone : (last.backfillEmbeddings service batchSize filter false).1.processed = 0
  · rw [backfills_of_none hnone] at hlast
    cases hlast
    rw [processed_backfillEmbeddings, List.countP_eq_zero] at hnone
    have hrows : (last.backfillEmbeddings service batchSize filter false).2.rows = last.rows := by
      rw [rows_backfillEmbeddings]
      refine (List.map_congr_left fun entry _ => untaken fun htaken => ?_).trans (List.map_id _)
      exact hnone entry htaken.1 (decide_eq_true htaken.2)
    refine ⟨(Follows.of_reaches hreach).trans follows_backfillEmbeddings, fun entry hmem hemb => ?_⟩
    rw [VectorTable.selected, hrows] at hmem
    exact hnone entry hmem (decide_eq_true hemb)
  · rw [backfills_of_processed hnone] at hlast
    cases hlast

/-- The first open rows of a table are no embedding's, so no open row behind them is reachable. -/
lemma le_stuckBefore
    (h : ∀ other ∈ t.selected service filter batchSize, ¬HasEmbedding service other)
    (hmem : entry ∈ t.rows) (hopen : IsOpen service filter entry)
    (hemb : HasEmbedding service entry) : batchSize ≤ stuckBefore service filter t entry := by
  have hsorted := t.sorted.sublist
    (List.filter_sublist (p := fun entry => decide (IsOpen service filter entry)))
  have hle := le_countP_of_notMem_take (n := batchSize)
    (p := fun other => decide ¬HasEmbedding service other) hsorted
    (List.mem_filter.mpr ⟨hmem, decide_eq_true hopen⟩) (fun hselected => h entry hselected hemb)
    (fun other hother => decide_eq_true (h other hother))
  rw [List.countP_filter] at hle
  refine hle.trans (List.countP_mono_left fun other _ hother => ?_)
  simp only [Bool.and_eq_true, decide_eq_true_eq] at hother ⊢
  exact ⟨⟨hother.2, hother.1.1⟩, hother.1.2⟩

/-- The repeated backfill leaves nothing behind that could have an embedding exactly if fewer rows
without one than a call takes stand before each row that has one. -/
theorem drains_iff (service : EmbeddingService) (filter : EntryFilter) (batchSize : ℕ)
    (t : VectorTable) :
    Drains service filter batchSize t ↔ IsReachable service filter batchSize t := by
  constructor
  · rintro ⟨answers, after, hhalts, hdrained, -⟩ entry hmem hopen hemb
    obtain ⟨hfollows, -⟩ := exists_last hhalts
    exact (hfollows.reached entry hmem hopen hemb).resolve_left fun hleft =>
      hdrained entry hleft hopen hemb
  · intro h
    obtain ⟨answers, after, hhalts⟩ := halts_backfills service filter batchSize t
    obtain ⟨hfollows, hlast⟩ := exists_last hhalts
    refine ⟨answers, after, hhalts, fun entry hmem hopen hemb => ?_, hfollows.active⟩
    have hlt := h entry (hfollows.remaining entry hmem hopen) hopen hemb
    rw [← hfollows.stuck entry] at hlt
    exact absurd (le_stuckBefore hlast hmem hopen hemb) (Nat.not_le.mpr hlt)

end Calls

/-! ### A row behind a blank one -/

/-- A service with a vector for every text that is not blank. -/
def plainService : EmbeddingService where
  model := "nomic-embed-text"
  policy := "auto"
  lower := id
  sha256 := id
  request _ _ := some [1]

/-- A blank row and one behind it. -/
def blankFirst : VectorTable where
  rows := [⟨1, "c", " ", some "fact", none, none, none, none⟩,
    ⟨2, "c", "Tee", some "fact", none, none, none, none⟩]
  sorted := by decide

/-- Calls that take one row each take the blank one again and again. -/
theorem not_drains_blankFirst :
    ¬∀ (service : EmbeddingService) (filter : EntryFilter) (batchSize : ℕ) (t : VectorTable),
      1 ≤ batchSize → Drains service filter batchSize t := by
  intro h
  obtain ⟨answers, after, hhalts, hdrained, -⟩ := h plainService {} 1 blankFirst (Nat.le_refl 1)
  have hopen : IsOpen plainService {} ⟨2, "c", "Tee", some "fact", none, none, none, none⟩ := by
    decide
  have hemb : HasEmbedding plainService ⟨2, "c", "Tee", some "fact", none, none, none, none⟩ := by
    decide +kernel
  have hstuck : stuckBefore plainService {} blankFirst
      ⟨2, "c", "Tee", some "fact", none, none, none, none⟩ = 1 := by decide +kernel
  rcases (exists_last hhalts).1.reached _ (List.mem_cons_of_mem _ List.mem_cons_self) hopen hemb
    with hleft | hlt
  · exact hdrained _ hleft hopen hemb
  · exact absurd hlt (by rw [hstuck]; exact lt_irrefl 1)

end Trion.Memory
