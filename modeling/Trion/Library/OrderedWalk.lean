import Mathlib.Data.List.Sort

/-!
# Walks in increasing order

A walk keeps what is still to be visited in a queue, takes the least element, and puts the
children its visit finds into the queue.  The number of visits is bounded.  Where every child
comes after its parent, and is the child of nothing else, the visits are strictly increasing,
whatever the bound.
-/

namespace OrderedWalk

variable {α σ ε : Type} [LinearOrder α]

/-- Puts the elements into the queue, which is kept in increasing order. -/
def enqueue (pending children : List α) : List α :=
  children.foldl (fun pending child => pending.orderedInsert (· ≤ ·) child) pending

/-- At most `n` visits, each of the least element of the queue.  A visit is told how many may
still follow; it finds children and changes the state, or it fails. -/
def walk (visit : ℕ → α → σ → Except ε (List α × σ)) :
    ℕ → List α → σ → Except ε (List α × σ)
  | 0, pending, s => .ok (pending, s)
  | _ + 1, [], s => .ok ([], s)
  | n + 1, a :: pending, s => do
    let (children, s) ← visit n a s
    walk visit n (enqueue pending children) s

/-- The visits of a walk up to some point. -/
inductive Visits (visit : ℕ → α → σ → Except ε (List α × σ)) :
    ℕ → List α → σ → List α → ℕ → List α → σ → Prop
  | done (n : ℕ) (pending : List α) (s : σ) : Visits visit n pending s [] n pending s
  | turn {n m : ℕ} {a : α} {pending children visited rest : List α} {s s' t : σ} :
      visit n a s = .ok (children, s') →
      Visits visit n (enqueue pending children) s' visited m rest t →
      Visits visit (n + 1) (a :: pending) s (a :: visited) m rest t

variable {visit visit' : ℕ → α → σ → Except ε (List α × σ)} {n m : ℕ} {a b c : α}
  {pending children visited rest : List α} {s s' t : σ}

/-! ### The queue -/

lemma enqueue_perm (pending children : List α) :
    (enqueue pending children).Perm (children ++ pending) := by
  induction children generalizing pending with
  | nil => exact .refl _
  | cons child children ih =>
    refine (ih _).trans ?_
    refine (List.Perm.append_left children (List.perm_orderedInsert _ child pending)).trans ?_
    exact List.perm_middle

lemma mem_enqueue : a ∈ enqueue pending children ↔ a ∈ children ∨ a ∈ pending := by
  rw [(enqueue_perm pending children).mem_iff, List.mem_append]

lemma pairwise_enqueue (h : pending.Pairwise (· ≤ ·)) :
    (enqueue pending children).Pairwise (· ≤ ·) := by
  induction children generalizing pending with
  | nil => exact h
  | cons child children ih => exact ih (h.orderedInsert child pending)

/-! ### Runs -/

/-- A walk that returns has visited something, and it has used up the visits or the queue. -/
lemma visits_of_walk (h : walk visit n pending s = .ok (rest, t)) :
    ∃ visited m, Visits visit n pending s visited m rest t ∧ (m = 0 ∨ rest = []) := by
  induction n generalizing pending s with
  | zero =>
    obtain ⟨rfl, rfl⟩ := Prod.mk.inj (Except.ok.inj h)
    exact ⟨[], 0, .done .., .inl rfl⟩
  | succ n ih =>
    cases pending with
    | nil =>
      obtain ⟨rfl, rfl⟩ := Prod.mk.inj (Except.ok.inj h)
      exact ⟨[], n + 1, .done .., .inr rfl⟩
    | cons a pending =>
      unfold walk at h
      cases hvisit : visit n a s with
      | error e =>
        rw [hvisit] at h
        exact Except.noConfusion rfl rfl (heq_of_eq h)
      | ok found =>
        obtain ⟨children, s'⟩ := found
        rw [hvisit] at h
        obtain ⟨visited, m, hvisits, hend⟩ := ih h
        exact ⟨a :: visited, m, .turn hvisit hvisits, hend⟩

/-- A walk whose visits do not fail returns. -/
lemma exists_walk (I : α → Prop) (hvisit : ∀ n a s, I a →
      ∃ children s', visit n a s = .ok (children, s') ∧ ∀ c ∈ children, I c)
    (hpending : ∀ a ∈ pending, I a) : ∃ rest t, walk visit n pending s = .ok (rest, t) := by
  induction n generalizing pending s with
  | zero => exact ⟨pending, s, rfl⟩
  | succ n ih =>
    cases pending with
    | nil => exact ⟨[], s, rfl⟩
    | cons a pending =>
      obtain ⟨children, s', hok, hchildren⟩ := hvisit n a s (hpending a List.mem_cons_self)
      have hall : ∀ b ∈ enqueue pending children, I b := by
        intro b hb
        rcases mem_enqueue.mp hb with hb | hb
        · exact hchildren b hb
        · exact hpending b (List.mem_cons_of_mem _ hb)
      obtain ⟨rest, t, hrest⟩ := ih (s := s') hall
      refine ⟨rest, t, ?_⟩
      unfold walk
      rw [hok]
      exact hrest

/-- What holds of the queue and of every child holds of everything that is met. -/
lemma Visits.forall_mem (h : Visits visit n pending s visited m rest t) (I : α → Prop)
    (hpending : ∀ a ∈ pending, I a)
    (hvisit : ∀ n a s children s', I a → visit n a s = .ok (children, s') →
      ∀ c ∈ children, I c) : ∀ a, a ∈ visited ∨ a ∈ rest → I a := by
  induction h with
  | done n pending s =>
    rintro a (ha | ha)
    · exact absurd ha List.not_mem_nil
    · exact hpending a ha
  | @turn n m b pending children visited rest s s' t hok _ ih =>
    have hb := hpending b List.mem_cons_self
    have hall : ∀ a ∈ enqueue pending children, I a := by
      intro a ha
      rcases mem_enqueue.mp ha with ha | ha
      · exact hvisit n b s children s' hb hok a ha
      · exact hpending a (List.mem_cons_of_mem _ ha)
    rintro a (ha | ha)
    · rcases List.mem_cons.mp ha with rfl | ha
      · exact hb
      · exact ih hall a (.inl ha)
    · exact ih hall a (.inr ha)

/-- An invariant of what has been visited so far, the queue and the state. -/
lemma Visits.invariant (h : Visits visit n pending s visited m rest t)
    (J : List α → List α → σ → Prop) (I : α → Prop) (hpending : ∀ a ∈ pending, I a)
    (hvisit : ∀ n a s children s', I a → visit n a s = .ok (children, s') →
      (∀ c ∈ children, I c) ∧ ∀ before pending, J before (a :: pending) s →
        J (before ++ [a]) (enqueue pending children) s')
    {before : List α} (hstart : J before pending s) : J (before ++ visited) rest t := by
  induction h generalizing before with
  | done =>
    rw [List.append_nil]
    exact hstart
  | @turn n m b pending children visited rest s s' t hok _ ih =>
    obtain ⟨hchildren, hkept⟩ := hvisit n b s children s' (hpending b List.mem_cons_self) hok
    have hall : ∀ a ∈ enqueue pending children, I a := by
      intro a ha
      rcases mem_enqueue.mp ha with ha | ha
      · exact hchildren a ha
      · exact hpending a (List.mem_cons_of_mem _ ha)
    have hrest := ih hall (hkept before pending hstart)
    rwa [List.append_assoc, List.singleton_append] at hrest

/-! ### Increasing visits -/

/-- Every child comes after its parent, and has one parent only. -/
structure Grows (Child : α → α → Prop) : Prop where
  lt : ∀ {a c : α}, Child a c → a < c
  unique : ∀ {a b c : α}, Child a c → Child b c → a = b

/-- The queue is strictly increasing, and the parents of its elements lie before it. -/
structure Ascending (Child : α → α → Prop) (pending : List α) : Prop where
  sorted : pending.Pairwise (· < ·)
  parents : ∀ {a b c : α}, c ∈ pending → Child a c → b ∈ pending → a < b

variable {Child : α → α → Prop}

/-- A turn keeps the queue. -/
lemma Ascending.turn (h : Ascending Child (a :: pending)) (hgrows : Grows Child)
    (hchildren : ∀ c ∈ children, Child a c) (hnodup : children.Nodup) :
    Ascending Child (enqueue pending children) ∧ ∀ b ∈ enqueue pending children, a < b := by
  obtain ⟨hfirst, hrest⟩ := List.pairwise_cons.mp h.sorted
  have hafter : ∀ b ∈ enqueue pending children, a < b := by
    intro b hb
    rcases mem_enqueue.mp hb with hb | hb
    · exact hgrows.lt (hchildren b hb)
    · exact hfirst b hb
  -- a child of `a` is new: the parents of the queue lie before `a`
  have hdisjoint : children.Disjoint pending := by
    intro c hc hpending
    exact lt_irrefl a (h.parents (List.mem_cons_of_mem _ hpending) (hchildren c hc)
      List.mem_cons_self)
  have hall : (enqueue pending children).Nodup := by
    rw [(enqueue_perm pending children).nodup_iff]
    exact List.Nodup.append hnodup (hrest.imp fun hlt => ne_of_lt hlt) hdisjoint
  have hsorted : (enqueue pending children).Pairwise (· ≤ ·) :=
    pairwise_enqueue (hrest.imp fun hlt => le_of_lt hlt)
  refine ⟨⟨?_, ?_⟩, hafter⟩
  · exact (hsorted.and hall).imp fun hboth => lt_of_le_of_ne hboth.1 hboth.2
  · intro p b c hc hp hb
    rcases mem_enqueue.mp hc with hc | hc
    · rw [hgrows.unique hp (hchildren c hc)]
      exact hafter b hb
    · exact (h.parents (List.mem_cons_of_mem _ hc) hp List.mem_cons_self).trans (hafter b hb)

/-- The visits are strictly increasing, and what is left comes after them. -/
theorem Visits.increasing (h : Visits visit n pending s visited m rest t)
    (hgrows : Grows Child) (hpending : Ascending Child pending) (I : α → Prop)
    (hall : ∀ a ∈ pending, I a)
    (hvisit : ∀ n a s children s', I a → visit n a s = .ok (children, s') →
      children.Nodup ∧ ∀ c ∈ children, Child a c ∧ I c) :
    visited.Pairwise (· < ·) ∧ ∀ a ∈ visited, ∀ b ∈ rest, a < b := by
  have main : visited.Pairwise (· < ·) ∧ (∀ a ∈ visited, ∀ b ∈ rest, a < b) ∧
      ∀ a, (∀ b ∈ pending, a < b) → ∀ b, b ∈ visited ∨ b ∈ rest → a < b := by
    induction h with
    | done => exact ⟨.nil, by simp, fun a ha b hb => hb.elim (absurd · List.not_mem_nil) (ha b)⟩
    | @turn n m a pending children visited rest s s' t hok _ ih =>
      obtain ⟨hnodup, hchildren⟩ := hvisit n a s children s' (hall a List.mem_cons_self) hok
      obtain ⟨hascending, hafter⟩ :=
        hpending.turn hgrows (fun c hc => (hchildren c hc).1) hnodup
      have hall' : ∀ b ∈ enqueue pending children, I b := by
        intro b hb
        rcases mem_enqueue.mp hb with hb | hb
        · exact (hchildren b hb).2
        · exact hall b (List.mem_cons_of_mem _ hb)
      obtain ⟨hsorted, hbefore, hbounds⟩ := ih hascending hall'
      refine ⟨List.pairwise_cons.mpr ⟨fun b hb => hbounds a hafter b (.inl hb), hsorted⟩, ?_, ?_⟩
      · intro b hb c hc
        rcases List.mem_cons.mp hb with rfl | hb
        · exact hbounds b hafter c (.inr hc)
        · exact hbefore b hb c hc
      · intro b hb c hc
        have hba := hb a List.mem_cons_self
        rcases hc with hc | hc
        · rcases List.mem_cons.mp hc with rfl | hc
          · exact hba
          · exact hba.trans (hbounds a hafter c (.inl hc))
        · exact hba.trans (hbounds a hafter c (.inr hc))
  exact ⟨main.1, main.2.1⟩

/-! ### Two visits -/

/-- Walks whose visits agree on everything that is met agree. -/
lemma walk_congr
    (hvisit : ∀ m b s' visited rest, Visits visit n pending s visited (m + 1) (b :: rest) s' →
      visit m b s' = visit' m b s') :
    walk visit n pending s = walk visit' n pending s := by
  induction n generalizing pending s with
  | zero => rfl
  | succ n ih =>
    cases pending with
    | nil => rfl
    | cons a pending =>
      have hfirst := hvisit n a s [] pending (.done ..)
      unfold walk
      rw [← hfirst]
      cases hok : visit n a s with
      | error e => rfl
      | ok found =>
        obtain ⟨children, s'⟩ := found
        exact ih fun m b u visited rest hvisits =>
          hvisit m b u (a :: visited) rest (.turn hok hvisits)

end OrderedWalk
