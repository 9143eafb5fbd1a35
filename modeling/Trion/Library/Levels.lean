import Mathlib.Data.List.Nodup
import Mathlib.Order.WellFounded

/-!
# A graph searched level by level

A search visits the nodes of one level after the other, each node once, and gathers the next
level from the nodes that it visits for the first time.  A level can name a node several times,
and nodes of earlier levels too; the search can also stop after any level.  Each node is visited
with the number of its level, and this is its distance from the starts.
-/

namespace Levels

variable {α : Type*}

/-! ### Distances -/

section Distances

variable (leads : α → α → Prop) (starts : List α)

/-- A walk of so many steps leads from a start to the node. -/
inductive Reaches : ℕ → α → Prop where
  | start {a : α} (h : a ∈ starts) : Reaches 0 a
  | step {n : ℕ} {a b : α} (h : Reaches n a) (hleads : leads a b) : Reaches (n + 1) b

/-- The least number of steps to the node. -/
structure IsDistance (n : ℕ) (a : α) : Prop where
  reaches : Reaches leads starts n a
  least : ∀ m < n, ¬Reaches leads starts m a

end Distances

variable {leads : α → α → Prop} {starts : List α} {m n : ℕ} {a b : α}

lemma IsDistance.le (h : IsDistance leads starts n a) (hm : Reaches leads starts m a) : n ≤ m :=
  Nat.not_lt.mp fun hlt => h.least m hlt hm

lemma IsDistance.unique (hm : IsDistance leads starts m a) (hn : IsDistance leads starts n a) :
    m = n := Nat.le_antisymm (hm.le hn.reaches) (hn.le hm.reaches)

lemma exists_isDistance (h : Reaches leads starts n a) :
    ∃ m ≤ n, IsDistance leads starts m a := by
  induction n using Nat.strong_induction_on with
  | _ n ih =>
    by_cases hleast : ∀ m < n, ¬Reaches leads starts m a
    · exact ⟨n, Nat.le_refl n, h, hleast⟩
    · push Not at hleast
      obtain ⟨m, hlt, hm⟩ := hleast
      obtain ⟨k, hk, hdist⟩ := ih m hlt hm
      exact ⟨k, hk.trans (Nat.le_of_lt hlt), hdist⟩

/-- The last step of a shortest walk comes from a node that is one step nearer. -/
lemma IsDistance.pred (h : IsDistance leads starts (n + 1) b) :
    ∃ a, IsDistance leads starts n a ∧ leads a b := by
  cases h.reaches with
  | step ha hleads =>
    rename_i a
    refine ⟨a, ⟨ha, fun m hlt hm => ?_⟩, hleads⟩
    exact h.least (m + 1) (Nat.succ_lt_succ hlt) (.step hm hleads)

/-! ### The search -/

/-- The nodes that have been visited, with their levels, and those gathered for the next level. -/
structure Search (α : Type*) where
  visited : List (α × ℕ) := []
  frontier : List α := []

variable [DecidableEq α]

section Search

variable (next : α → List α) (stop : List (α × ℕ) → Bool)

/-- The nodes that have been visited. -/
def Search.nodes (s : Search α) : List α := s.visited.map Prod.fst

/-- A node is visited once; its neighbours that have not been visited yet are gathered. -/
def visit (d : ℕ) (s : Search α) (a : α) : Search α :=
  if a ∈ s.nodes then s
  else ⟨s.visited ++ [(a, d)], s.frontier ++ (next a).filter fun b => b ∉ a :: s.nodes⟩

/-- The visits of one level. -/
def sweep (d : ℕ) (level : List α) (visited : List (α × ℕ)) : Search α :=
  level.foldl (visit next d) ⟨visited, []⟩

/-- The visits of so many levels, up to the one after which the search stops. -/
def search : ℕ → ℕ → List α → List (α × ℕ) → List (α × ℕ)
  | 0, _, _, visited => visited
  | rounds + 1, d, level, visited =>
    let s := sweep next d level visited
    if stop s.visited then s.visited else search rounds (d + 1) s.frontier s.visited

end Search

/-! ### One level -/

section Sweep

variable {next : α → List α} {d : ℕ} {s : Search α} {level : List α}

lemma visit_of_mem (h : a ∈ s.nodes) : visit next d s a = s := if_pos h

lemma visit_of_notMem (h : a ∉ s.nodes) :
    visit next d s a =
      ⟨s.visited ++ [(a, d)], s.frontier ++ (next a).filter fun b => b ∉ a :: s.nodes⟩ := if_neg h

lemma nodes_visit (h : a ∉ s.nodes) : (visit next d s a).nodes = s.nodes ++ [a] := by
  rw [visit_of_notMem h, Search.nodes, List.map_append]
  rfl

lemma mem_nodes_visit : b ∈ (visit next d s a).nodes ↔ b ∈ s.nodes ∨ b = a := by
  by_cases h : a ∈ s.nodes
  · rw [visit_of_mem h]
    exact ⟨.inl, fun hb => hb.elim id fun hba => hba ▸ h⟩
  · rw [nodes_visit h, List.mem_append, List.mem_singleton]

/-- The visits of a level: which nodes come with which label. -/
lemma mem_visited_foldl :
    (a, n) ∈ (level.foldl (visit next d) s).visited ↔
      (a, n) ∈ s.visited ∨ n = d ∧ a ∈ level ∧ a ∉ s.nodes := by
  induction level generalizing s with
  | nil => simp
  | cons b level ih =>
    rw [List.foldl_cons, ih]
    by_cases h : b ∈ s.nodes
    · rw [visit_of_mem h, List.mem_cons]
      have hne : a ∉ s.nodes → a ≠ b := fun ha hab => ha (hab ▸ h)
      exact or_congr_right (and_congr_right fun _ =>
        ⟨fun ⟨hmem, hnew⟩ => ⟨.inr hmem, hnew⟩,
          fun ⟨hmem, hnew⟩ => ⟨hmem.resolve_left (hne hnew), hnew⟩⟩)
    · rw [nodes_visit h, visit_of_notMem h]
      simp only [List.mem_append, List.mem_cons, List.not_mem_nil, or_false, Prod.mk.injEq, not_or]
      constructor
      · rintro ((hold | ⟨rfl, rfl⟩) | ⟨rfl, hmem, hnew, -⟩)
        · exact .inl hold
        · exact .inr ⟨rfl, .inl rfl, h⟩
        · exact .inr ⟨rfl, .inr hmem, hnew⟩
      · rintro (hold | ⟨rfl, rfl | hmem, hnew⟩)
        · exact .inl (.inl hold)
        · exact .inl (.inr ⟨rfl, rfl⟩)
        · by_cases hab : a = b
          · exact .inl (.inr ⟨hab, rfl⟩)
          · exact .inr ⟨rfl, hmem, hnew, hab⟩

lemma nodup_nodes_foldl (h : s.nodes.Nodup) :
    (level.foldl (visit next d) s).nodes.Nodup := by
  induction level generalizing s with
  | nil => exact h
  | cons a level ih =>
    rw [List.foldl_cons]
    refine ih ?_
    by_cases ha : a ∈ s.nodes
    · rwa [visit_of_mem ha]
    · rw [nodes_visit ha, ← List.concat_eq_append]
      exact h.concat ha

lemma mem_nodes_of_mem_visit (h : b ∈ s.nodes) : b ∈ (level.foldl (visit next d) s).nodes := by
  induction level generalizing s with
  | nil => exact h
  | cons a level ih => exact ih (mem_nodes_visit.mpr (.inl h))

/-- What is gathered comes from a node of the level. -/
lemma of_mem_frontier (h : b ∈ (level.foldl (visit next d) s).frontier) :
    b ∈ s.frontier ∨ ∃ a ∈ level, b ∈ next a := by
  induction level generalizing s with
  | nil => exact .inl h
  | cons c level ih =>
    rcases ih h with hfront | ⟨a, hmem, hnext⟩
    · by_cases hc : c ∈ s.nodes
      · rw [visit_of_mem hc] at hfront
        exact .inl hfront
      · rw [visit_of_notMem hc] at hfront
        rcases List.mem_append.mp hfront with hold | hnew
        · exact .inl hold
        · exact .inr ⟨c, List.mem_cons_self, List.mem_of_mem_filter hnew⟩
    · exact .inr ⟨a, List.mem_cons_of_mem c hmem, hnext⟩

lemma mem_frontier_of_mem (h : b ∈ s.frontier) :
    b ∈ (level.foldl (visit next d) s).frontier := by
  induction level generalizing s with
  | nil => exact h
  | cons a level ih =>
    refine ih ?_
    by_cases ha : a ∈ s.nodes
    · rwa [visit_of_mem ha]
    · rw [visit_of_notMem ha]
      exact List.mem_append_left _ h

/-- A neighbour of a node that is new in the level is gathered, unless it is visited itself. -/
lemma mem_frontier (ha : a ∈ level) (hnew : a ∉ s.nodes) (hnext : b ∈ next a)
    (hb : b ∉ (level.foldl (visit next d) s).nodes) :
    b ∈ (level.foldl (visit next d) s).frontier := by
  induction level generalizing s with
  | nil => exact absurd ha List.not_mem_nil
  | cons c level ih =>
    rw [List.foldl_cons] at hb ⊢
    by_cases hac : a = c
    · subst hac
      refine mem_frontier_of_mem ?_
      have hout : b ∉ (visit next d s a).nodes := fun hvisit => hb (mem_nodes_of_mem_visit hvisit)
      rw [nodes_visit hnew, List.mem_append, List.mem_singleton, not_or] at hout
      rw [visit_of_notMem hnew]
      refine List.mem_append_right _ (List.mem_filter.mpr ⟨hnext, decide_eq_true ?_⟩)
      exact fun hmem => (List.mem_cons.mp hmem).elim hout.2 hout.1
    · refine ih ((List.mem_cons.mp ha).resolve_left hac) (fun hvisit => ?_) hb
      exact (mem_nodes_visit.mp hvisit).elim hnew hac

end Sweep

/-! ### All levels -/

section Search

variable (next : α → List α) (starts : List α)

/-- The steps of the search. -/
def Leads (a b : α) : Prop := b ∈ next a

/-- The nodes that are less than so many steps away have been visited once, each with its
distance. -/
structure Labelled (d : ℕ) (visited : List (α × ℕ)) : Prop where
  nodup : (visited.map Prod.fst).Nodup
  label : ∀ a n, (a, n) ∈ visited ↔ n < d ∧ IsDistance (Leads next) starts n a

/-- Between two levels, the next level names nodes that so many steps reach, and all that are so
many steps away. -/
structure Swept (d : ℕ) (level : List α) (visited : List (α × ℕ)) : Prop
    extends Labelled next starts d visited where
  sound : ∀ a ∈ level, Reaches (Leads next) starts d a
  full : ∀ a, IsDistance (Leads next) starts d a → a ∈ level

variable {next starts} {stop : List (α × ℕ) → Bool} {d rounds : ℕ} {level : List α}
  {visited : List (α × ℕ)}

omit [DecidableEq α] in
lemma Labelled.mem_nodes (h : Labelled next starts d visited) :
    a ∈ visited.map Prod.fst ↔ ∃ n < d, IsDistance (Leads next) starts n a := by
  rw [List.mem_map]
  constructor
  · rintro ⟨⟨b, n⟩, hmem, rfl⟩
    exact ⟨n, (h.label b n).mp hmem⟩
  · rintro ⟨n, hdist⟩
    exact ⟨(a, n), (h.label a n).mpr hdist, rfl⟩

omit [DecidableEq α] in
lemma swept_start (next : α → List α) (starts : List α) : Swept next starts 0 starts [] where
  nodup := List.nodup_nil
  label a n := by simp
  sound _ h := .start h
  full a h := by
    cases h.reaches with
    | start ha => exact ha

/-- The visits of a level carry the search to the next one. -/
lemma Swept.sweep (h : Swept next starts d level visited) :
    Swept next starts (d + 1) (sweep next d level visited).frontier
      (sweep next d level visited).visited := by
  have hnew : ∀ {a}, a ∈ level → a ∉ visited.map Prod.fst → IsDistance (Leads next) starts d a := by
    intro a hmem hout
    refine ⟨h.sound a hmem, fun m hlt hm => hout (h.mem_nodes.mpr ?_)⟩
    obtain ⟨k, hk, hdist⟩ := exists_isDistance hm
    exact ⟨k, Nat.lt_of_le_of_lt hk hlt, hdist⟩
  have hout : ∀ {a}, IsDistance (Leads next) starts d a → a ∉ visited.map Prod.fst := by
    intro a hdist hmem
    obtain ⟨n, hlt, hn⟩ := h.mem_nodes.mp hmem
    exact absurd (hdist.unique hn) (Nat.ne_of_gt hlt)
  have hlabelled : Labelled next starts (d + 1) (Levels.sweep next d level visited).visited := by
    refine ⟨nodup_nodes_foldl h.nodup, fun a n => ?_⟩
    rw [Levels.sweep, mem_visited_foldl, h.label, Nat.lt_succ_iff_lt_or_eq, or_and_right]
    refine or_congr_right ⟨?_, ?_⟩
    · rintro ⟨rfl, hmem, hvisit⟩
      exact ⟨rfl, hnew hmem hvisit⟩
    · rintro ⟨rfl, hdist⟩
      exact ⟨rfl, h.full a hdist, hout hdist⟩
  refine ⟨hlabelled, fun b hb => ?_, fun b hb => ?_⟩
  · obtain hnil | ⟨a, hmem, hnext⟩ := of_mem_frontier hb
    · exact absurd hnil List.not_mem_nil
    · exact .step (h.sound a hmem) hnext
  · obtain ⟨a, hdist, hnext⟩ := hb.pred
    refine mem_frontier (h.full a hdist) (hout hdist) hnext fun hvisit => ?_
    obtain ⟨n, hlt, hn⟩ := hlabelled.mem_nodes.mp hvisit
    exact absurd (hb.unique hn) (Nat.ne_of_gt hlt)

/-- The search ends with the nodes below some level, and if this is not the last one, then
because it stops there. -/
theorem Swept.search (stop : List (α × ℕ) → Bool) (rounds : ℕ)
    (h : Swept next starts d level visited) :
    ∃ e ≤ d + rounds, Labelled next starts e (search next stop rounds d level visited) ∧
      (stop (Levels.search next stop rounds d level visited) = true ∨ e = d + rounds) := by
  induction rounds generalizing d level visited with
  | zero => exact ⟨d, Nat.le_refl d, h.toLabelled, .inr rfl⟩
  | succ rounds ih =>
    rw [Levels.search]
    split
    · rename_i hstop
      exact ⟨d + 1, by omega, h.sweep.toLabelled, .inl hstop⟩
    · obtain ⟨e, hle, hlabelled, hend⟩ := ih h.sweep
      exact ⟨e, by omega, hlabelled, hend.imp_right fun he => by omega⟩

end Search

end Levels
