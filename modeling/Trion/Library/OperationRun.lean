import Mathlib.Data.List.Basic

/-!
# Systems driven by operations

A system answers one operation after the other: an operation takes the state to the next one
and yields an answer.  Which operation comes next is up to the clients, so a run is any list
of operations, in the order in which they were carried out.  This file holds the vocabulary
of such runs and the invariant rules: for all runs, for the runs whose operations meet a
condition on the state they are called in, and for invariants that also speak of the answers
given so far.
-/

namespace OperationRun

/-- A system with states `σ`, operations `ο` and answers `α`. -/
abbrev System (σ ο α : Type*) := σ → ο → σ × α

variable {σ ο α : Type*}

namespace System

/-- The state after the operations. -/
def after (sys : System σ ο α) : σ → List ο → σ
  | s, [] => s
  | s, o :: os => after sys (sys s o).1 os

/-- The answers to the operations. -/
def answers (sys : System σ ο α) : σ → List ο → List α
  | _, [] => []
  | s, o :: os => (sys s o).2 :: answers sys (sys s o).1 os

/-- Every operation of the run meets the condition in the state it is called in. -/
def Always (sys : System σ ο α) (C : σ → ο → Prop) : σ → List ο → Prop
  | _, [] => True
  | s, o :: os => C s o ∧ Always sys C (sys s o).1 os

/-- Whether a run meets a condition can be computed where the condition can. -/
instance decidableAlways (sys : System σ ο α) (C : σ → ο → Prop) [∀ s, DecidablePred (C s)] :
    ∀ s os, Decidable (sys.Always C s os)
  | _, [] => inferInstanceAs (Decidable True)
  | s, o :: os =>
    have := decidableAlways sys C (sys s o).1 os
    inferInstanceAs (Decidable (C s o ∧ sys.Always C (sys s o).1 os))

variable {sys : System σ ο α} {C D : σ → ο → Prop} {s : σ} {os os' : List ο} {o : ο}

@[simp] lemma after_nil : sys.after s [] = s := rfl

@[simp] lemma after_cons : sys.after s (o :: os) = sys.after (sys s o).1 os := rfl

@[simp] lemma answers_nil : sys.answers s [] = [] := rfl

@[simp] lemma answers_cons :
    sys.answers s (o :: os) = (sys s o).2 :: sys.answers (sys s o).1 os := rfl

lemma after_append : sys.after s (os ++ os') = sys.after (sys.after s os) os' := by
  induction os generalizing s with
  | nil => rfl
  | cons o os ih => exact ih

lemma answers_append :
    sys.answers s (os ++ os') = sys.answers s os ++ sys.answers (sys.after s os) os' := by
  induction os generalizing s with
  | nil => rfl
  | cons o os ih => simpa using ih

lemma always_append :
    sys.Always C s (os ++ os') ↔ sys.Always C s os ∧ sys.Always C (sys.after s os) os' := by
  induction os generalizing s with
  | nil => simp [Always]
  | cons o os ih => simp [Always, ih, and_assoc]

/-- A condition that every operation meets in every state. -/
lemma always_of_forall (h : ∀ s o, C s o) : sys.Always C s os := by
  induction os generalizing s with
  | nil => trivial
  | cons o os ih => exact ⟨h s o, ih⟩

/-- A condition on the operation alone, which every operation of the run meets. -/
lemma always_of_mem {P : ο → Prop} (h : ∀ o ∈ os, P o) : sys.Always (fun _ o => P o) s os := by
  induction os generalizing s with
  | nil => trivial
  | cons o os ih =>
    exact ⟨h o List.mem_cons_self, ih fun o' ho' => h o' (List.mem_cons_of_mem o ho')⟩

/-- Two conditions that every operation meets. -/
lemma Always.and (h : sys.Always C s os) (h' : sys.Always D s os) :
    sys.Always (fun s o => C s o ∧ D s o) s os := by
  induction os generalizing s with
  | nil => trivial
  | cons o os ih => exact ⟨⟨h.1, h'.1⟩, ih h.2 h'.2⟩

/-! ### Invariants -/

/-- A property that every operation keeps, when it is called as `C` allows, holds at the end
of every run of such operations. -/
theorem invariant {I : σ → Prop} (hstep : ∀ s o, I s → C s o → I (sys s o).1)
    (hall : sys.Always C s os) (hs : I s) : I (sys.after s os) := by
  induction os generalizing s with
  | nil => exact hs
  | cons o os ih => exact ih hall.2 (hstep s o hs hall.1)

/-- A property of the answers so far and the state that every operation keeps. -/
theorem answers_invariant {I : List α → σ → Prop}
    (hstep : ∀ as s o, I as s → C s o → I (as ++ [(sys s o).2]) (sys s o).1)
    (hall : sys.Always C s os) (hs : I [] s) : I (sys.answers s os) (sys.after s os) := by
  suffices hgo : ∀ as s os, sys.Always C s os → I as s →
      I (as ++ sys.answers s os) (sys.after s os) by
    simpa using hgo [] s os hall hs
  intro as s os hall
  induction os generalizing as s with
  | nil => simp
  | cons o os ih =>
    intro hI
    have hrest := ih (as ++ [(sys s o).2]) (sys s o).1 hall.2 (hstep as s o hI hall.1)
    simpa using hrest

/-! ### Events -/

/-- What happens in the course of the operations, where the answer to an operation is the list
of what it makes happen. -/
def events {ε : Type*} (sys : System σ ο (List ε)) (s : σ) (os : List ο) : List ε :=
  (sys.answers s os).flatten

@[simp] lemma events_nil {ε : Type*} {sys : System σ ο (List ε)} : sys.events s [] = [] := rfl

@[simp] lemma events_cons {ε : Type*} {sys : System σ ο (List ε)} :
    sys.events s (o :: os) = (sys s o).2 ++ sys.events (sys s o).1 os := rfl

/-- A property of what has happened so far and the state that every operation keeps. -/
theorem events_invariant {ε : Type*} {sys : System σ ο (List ε)} {I : List ε → σ → Prop}
    (hstep : ∀ es s o, I es s → C s o → I (es ++ (sys s o).2) (sys s o).1)
    (hall : sys.Always C s os) (hs : I [] s) : I (sys.events s os) (sys.after s os) := by
  refine answers_invariant (I := fun as s => I as.flatten s) (fun as s o hI hC => ?_) hall hs
  rw [List.flatten_append, List.flatten_singleton]
  exact hstep as.flatten s o hI hC

end System

/-! ### What comes before an event -/

/-- Every event is one that `P` allows after those before it. -/
def EachEvent {ε : Type*} (P : List ε → ε → Prop) (events : List ε) : Prop :=
  ∀ before event later, events = before ++ event :: later → P before event

section EachEvent

variable {ε : Type*} {P : List ε → ε → Prop} {events : List ε} {event : ε}

lemma eachEvent_nil : EachEvent P [] := by
  intro before event later h
  simp at h

lemma eachEvent_append_singleton :
    EachEvent P (events ++ [event]) ↔ EachEvent P events ∧ P events event := by
  constructor
  · intro h
    refine ⟨fun before e later heq => h before e (later ++ [event]) (by simp [heq]), ?_⟩
    exact h events event [] rfl
  · rintro ⟨h, hlast⟩ before e later heq
    rcases List.eq_nil_or_concat later with rfl | ⟨later, last, rfl⟩
    · obtain ⟨rfl, hsame⟩ := List.append_inj' heq rfl
      exact List.singleton_inj.mp hsame ▸ hlast
    · refine h before e later ?_
      rw [List.concat_eq_append, ← List.cons_append, ← List.append_assoc] at heq
      exact (List.append_inj' heq rfl).1

/-- Events that `P` allows anywhere. -/
lemma EachEvent.append_of_forall {new : List ε} (h : EachEvent P events)
    (hnew : ∀ event ∈ new, ∀ before, P before event) : EachEvent P (events ++ new) := by
  induction new generalizing events with
  | nil => simpa using h
  | cons event new ih =>
    rw [List.append_cons]
    refine ih (eachEvent_append_singleton.mpr ⟨h, hnew event List.mem_cons_self _⟩) ?_
    exact fun e he => hnew e (List.mem_cons_of_mem _ he)

end EachEvent

end OperationRun
