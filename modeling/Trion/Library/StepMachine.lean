import Mathlib.Order.WellFounded
import Mathlib.Data.List.Forall2

/-!
# Deterministic machines that emit events

A machine maps a state to the events its next step emits and to what the step leads to:
another state, or the end of the run with a result.  This file holds the vocabulary of
such machines and the rules their users reason with: the invariant rule over runs and
the events emitted so far, termination by a decreasing measure, evaluation with fuel, and
simulation between two machines, one of which may take silent steps.
-/

namespace StepMachine

/-- What one step leads to. -/
inductive Outcome (σ ρ : Type*) where
  | next (s : σ)
  | halt (r : ρ)

/-- A deterministic machine over states `σ`, with events `ε` and results `ρ`. -/
abbrev Machine (σ ε ρ : Type*) := σ → List ε × Outcome σ ρ

variable {σ τ ε φ ρ ω : Type*}

namespace Machine

/-- `m.Reaches s es t`: some steps lead from `s` to `t` and emit `es`. -/
inductive Reaches (m : Machine σ ε ρ) : σ → List ε → σ → Prop
  | refl (s : σ) : Reaches m s [] s
  | step {s t u : σ} {es fs : List ε} :
      Reaches m s es t → m t = (fs, .next u) → Reaches m s (es ++ fs) u

/-- `m.HaltsWith s es r`: the run from `s` ends with the result `r`, having emitted `es`. -/
inductive HaltsWith (m : Machine σ ε ρ) : σ → List ε → ρ → Prop
  | halt {s : σ} {es : List ε} {r : ρ} : m s = (es, .halt r) → HaltsWith m s es r
  | step {s t : σ} {es fs : List ε} {r : ρ} :
      m s = (es, .next t) → HaltsWith m t fs r → HaltsWith m s (es ++ fs) r

/-- The run from `s` ends. -/
def Halts (m : Machine σ ε ρ) (s : σ) : Prop := ∃ es r, m.HaltsWith s es r

/-- Some step of the run from `s` emits `e`. -/
def Emits (m : Machine σ ε ρ) (s : σ) (e : ε) : Prop := ∃ es t, m.Reaches s es t ∧ e ∈ (m t).1

/-- `es` is what the run from `s` has emitted at the end of one of its steps. -/
def Traces (m : Machine σ ε ρ) (s : σ) (es : List ε) : Prop :=
  ∃ fs t, m.Reaches s fs t ∧ es = fs ++ (m t).1

variable {m : Machine σ ε ρ} {s t u : σ} {es fs : List ε} {r r' : ρ}

lemma Reaches.single (h : m s = (es, .next t)) : m.Reaches s es t := by
  simpa using (Reaches.refl s).step h

lemma Reaches.trans (h₁ : m.Reaches s es t) (h₂ : m.Reaches t fs u) :
    m.Reaches s (es ++ fs) u := by
  induction h₂ with
  | refl => simpa using h₁
  | step _ hstep ih => simpa [List.append_assoc] using ih.step hstep

/-- The first step of a run, if it has one. -/
lemma Reaches.head (h : m.Reaches s es t) :
    (s = t ∧ es = []) ∨
      ∃ u fs gs, m s = (fs, .next u) ∧ m.Reaches u gs t ∧ es = fs ++ gs := by
  induction h with
  | refl => exact .inl ⟨rfl, rfl⟩
  | @step t u es fs _ hstep ih =>
    refine .inr ?_
    obtain ⟨rfl, rfl⟩ | ⟨v, gs, hs, hv, hreach, rfl⟩ := ih
    · exact ⟨u, fs, [], hstep, .refl u, by simp⟩
    · exact ⟨v, gs, hs ++ fs, hv, hreach.step hstep, by simp⟩

/-- The end of a run is the end of every run that leads into it. -/
lemma Reaches.haltsWith (h₁ : m.Reaches s es t) (h₂ : m.HaltsWith t fs r) :
    m.HaltsWith s (es ++ fs) r := by
  induction h₁ generalizing fs with
  | refl => simpa using h₂
  | step _ hstep ih => simpa [List.append_assoc] using ih (.step hstep h₂)

/-- The last step of a run that ends. -/
lemma HaltsWith.exists_last (h : m.HaltsWith s es r) :
    ∃ t es₁ es₂, m.Reaches s es₁ t ∧ m t = (es₂, .halt r) ∧ es = es₁ ++ es₂ := by
  induction h with
  | @halt s es r hs => exact ⟨s, [], es, .refl s, hs, rfl⟩
  | step hs _ ih =>
    obtain ⟨t, es₁, es₂, hreach, hhalt, rfl⟩ := ih
    exact ⟨t, _, es₂, (Reaches.single hs).trans hreach, hhalt, by simp⟩

/-- A run has one end. -/
lemma HaltsWith.unique (h : m.HaltsWith s es r) (h' : m.HaltsWith s fs r') :
    es = fs ∧ r = r' := by
  induction h generalizing fs with
  | halt hs =>
    cases h' with
    | halt hs' => simp_all
    | step hs' _ => simp_all
  | step hs _ ih =>
    cases h' with
    | halt hs' => simp_all
    | step hs' ht' =>
      obtain ⟨rfl, heq⟩ : _ = _ ∧ _ = _ := by simpa using hs.symm.trans hs'
      obtain rfl : _ = _ := by simpa using heq
      obtain ⟨rfl, rfl⟩ := ih ht'
      exact ⟨rfl, rfl⟩

/-! ### Invariants -/

/-- A property of the events so far and the state that every step preserves holds
throughout the run. -/
theorem Reaches.trace_invariant {I : List ε → σ → Prop}
    (hstep : ∀ es s fs t, I es s → m s = (fs, .next t) → I (es ++ fs) t)
    (h : m.Reaches s es t) (hs : I [] s) : I es t := by
  induction h with
  | refl => exact hs
  | step _ ht ih => exact hstep _ _ _ _ ih ht

/-- A property of the state that every step preserves holds throughout the run. -/
theorem Reaches.invariant {I : σ → Prop}
    (hstep : ∀ s fs t, I s → m s = (fs, .next t) → I t)
    (h : m.Reaches s es t) (hs : I s) : I t :=
  h.trace_invariant (I := fun _ => I) (fun _ => hstep) hs

/-! ### Termination -/

/-- A run whose steps decrease a well-founded measure ends, if an invariant supplies the
decrease. -/
theorem halts_of_wellFounded {α : Type*} {rel : α → α → Prop} (hwf : WellFounded rel)
    (μ : σ → α) {I : σ → Prop}
    (hstep : ∀ s fs t, I s → m s = (fs, .next t) → I t ∧ rel (μ t) (μ s)) (hs : I s) :
    m.Halts s := by
  induction hμ : μ s using hwf.induction generalizing s with
  | _ a ih =>
    subst hμ
    rcases hms : m s with ⟨fs, t | r⟩
    · obtain ⟨ht, hlt⟩ := hstep s fs t hs hms
      obtain ⟨gs, r, hr⟩ := ih _ hlt ht rfl
      exact ⟨_, r, .step hms hr⟩
    · exact ⟨fs, r, .halt hms⟩

/-! ### Evaluation -/

/-- The run of at most `fuel` steps: the events and the result, if the run has ended. -/
def runFor (m : Machine σ ε ρ) : ℕ → σ → List ε × Option ρ
  | 0, _ => ([], none)
  | fuel + 1, s =>
    match m s with
    | (es, .halt r) => (es, some r)
    | (es, .next t) => ((es ++ (runFor m fuel t).1), (runFor m fuel t).2)

/-- An evaluation that reaches the end of the run has found its end. -/
theorem haltsWith_of_runFor {fuel : ℕ} (h : m.runFor fuel s = (es, some r)) :
    m.HaltsWith s es r := by
  induction fuel generalizing s es with
  | zero => simp [runFor] at h
  | succ fuel ih =>
    rw [runFor] at h
    split at h
    · rename_i hs
      obtain ⟨rfl, rfl⟩ : _ = _ ∧ _ = _ := by simpa using h
      exact .halt hs
    · rename_i fs t hs
      obtain ⟨rfl, hr⟩ := Prod.mk.inj h
      exact .step hs (ih (Prod.ext rfl hr))

/-! ### Simulation -/

/-- Two outcomes agree: both runs go on in related states, or both end with related
results. -/
inductive OutcomeRel (R : σ → τ → Prop) (Q : ρ → ω → Prop) :
    Outcome σ ρ → Outcome τ ω → Prop
  | next {s : σ} {t : τ} : R s t → OutcomeRel R Q (.next s) (.next t)
  | halt {r : ρ} {r' : ω} : Q r r' → OutcomeRel R Q (.halt r) (.halt r')

/-- The machine `n` follows the machine `m`: from states related by `R`, silent steps of `n` lead
to states related by `S`, and from these both take steps that emit related events and lead to
states related by `R` again, or to related results. -/
structure Follows (m : Machine σ ε ρ) (n : Machine τ φ ω) (R S : σ → τ → Prop) (E : ε → φ → Prop)
    (Q : ρ → ω → Prop) : Prop where
  silent : ∀ s t, R s t → ∃ t', n.Reaches t [] t' ∧ S s t'
  step : ∀ s t, S s t → List.Forall₂ E (m s).1 (n t).1 ∧ OutcomeRel R Q (m s).2 (n t).2

section Follows

variable {n : Machine τ φ ω} {R S : σ → τ → Prop} {E : ε → φ → Prop} {Q : ρ → ω → Prop}

/-- A run that is followed and ends has a follower that ends alike. -/
theorem Follows.haltsWith (h : Follows m n R S E Q) {s : σ} {t : τ} (hst : R s t)
    (hm : m.HaltsWith s es r) :
    ∃ es' r', n.HaltsWith t es' r' ∧ List.Forall₂ E es es' ∧ Q r r' := by
  induction hm generalizing t with
  | @halt s es r hs =>
    obtain ⟨t', hreach, hS⟩ := h.silent s t hst
    obtain ⟨hevents, hout⟩ := h.step s t' hS
    rw [hs] at hevents hout
    rcases hn : n t' with ⟨es', out⟩
    rw [hn] at hevents hout
    cases hout with
    | halt hQ => exact ⟨es', _, by simpa using hreach.haltsWith (.halt hn), hevents, hQ⟩
  | @step s u es fs r hs _ ih =>
    obtain ⟨t', hreach, hS⟩ := h.silent s t hst
    obtain ⟨hevents, hout⟩ := h.step s t' hS
    rw [hs] at hevents hout
    rcases hn : n t' with ⟨es', out⟩
    rw [hn] at hevents hout
    cases hout with
    | next hR =>
      obtain ⟨fs', r', hhalt, hrest, hQ⟩ := ih hR
      exact ⟨es' ++ fs', r', by simpa using hreach.haltsWith (.step hn hhalt),
        List.rel_append hevents hrest, hQ⟩

/-- A follower that ends has followed a run that ends alike. -/
theorem Follows.haltsWith_of (h : Follows m n R S E Q) {s : σ} {t : τ} {es' : List φ} {r' : ω}
    (hst : R s t) (hn : n.HaltsWith t es' r') :
    ∃ es r, m.HaltsWith s es r ∧ List.Forall₂ E es es' ∧ Q r r' := by
  -- the induction needs to stop in the middle of the silent steps
  suffices hmid : ∀ s, (∃ t', n.Reaches t [] t' ∧ S s t') →
      ∃ es r, m.HaltsWith s es r ∧ List.Forall₂ E es es' ∧ Q r r' from
    hmid s (h.silent s t hst)
  clear hst
  induction hn with
  | @halt t es' r' ht =>
    rintro s ⟨t', hreach, hS⟩
    obtain ⟨rfl, -⟩ | ⟨u, fs, gs, hu, -, -⟩ := hreach.head
    · obtain ⟨hevents, hout⟩ := h.step s t hS
      rw [ht] at hevents hout
      rcases hm : m s with ⟨es, out⟩
      rw [hm] at hevents hout
      cases hout with
      | halt hQ => exact ⟨es, _, .halt hm, hevents, hQ⟩
    · rw [ht] at hu
      simp at hu
  | @step t u es' fs' r' ht _ ih =>
    rintro s ⟨t', hreach, hS⟩
    obtain ⟨rfl, -⟩ | ⟨u', fs, gs, hu, hrest, hnil⟩ := hreach.head
    · obtain ⟨hevents, hout⟩ := h.step s t hS
      rw [ht] at hevents hout
      rcases hm : m s with ⟨es, out⟩
      rw [hm] at hevents hout
      cases hout with
      | next hR =>
        obtain ⟨fs, r, hhalt, hrest, hQ⟩ := ih _ (h.silent _ _ hR)
        exact ⟨es ++ fs, r, .step hm hhalt, List.rel_append hevents hrest, hQ⟩
    · obtain ⟨rfl, rfl⟩ : fs = [] ∧ gs = [] := by simpa using hnil.symm
      obtain ⟨rfl, rfl⟩ : es' = [] ∧ u = u' := by simpa [ht] using hu
      exact ih s ⟨t', hrest, hS⟩

end Follows

end Machine

end StepMachine
