import Trion.TaskLoop.Runs

/-!
# Plan epochs

A run follows one plan after another.  Its events split into epochs: the executions under
one plan and its expansions, from the replanning that brought the plan to the next one.
-/

namespace Trion.TaskLoop

open Trion.Python Trion.Thinking StepMachine

/-- The plan with which the run goes on after an event, if the event is a replanning. -/
def LoopEvent.adopted? : LoopEvent → Option ThinkingPlan
  | .replanned _ (.plan next) => if next.needsTaskLoop then some next else none
  | _ => none

/-- An epoch: the plan it starts with and the executions in it. -/
structure Epoch where
  plan : ThinkingPlan
  executions : List Execution

/-- The epoch with one more execution. -/
def Epoch.add (epoch : Epoch) (e : Execution) : Epoch :=
  { epoch with executions := epoch.executions ++ [e] }

/-- An execution at the start of the first epoch. -/
def consExecution (e : Execution) : List Epoch → List Epoch
  | [] => []
  | epoch :: rest => { epoch with executions := e :: epoch.executions } :: rest

/-- The epochs of a run that starts with a plan. -/
def epochs (plan : ThinkingPlan) : List LoopEvent → List Epoch
  | [] => [{ plan := plan, executions := [] }]
  | .executed e :: events => consExecution e (epochs plan events)
  | .replanned request reply :: events =>
    match (LoopEvent.replanned request reply).adopted? with
    | some replanned => { plan := plan, executions := [] } :: epochs replanned events
    | none => epochs plan events

/-- The last epoch of a run, and how a further event changes it. -/
structure LastEpoch (plan : ThinkingPlan) (events : List LoopEvent) (done : List Epoch)
    (current : Epoch) : Prop where
  eq : epochs plan events = done ++ [current]
  executed : ∀ e, epochs plan (events ++ [.executed e]) = done ++ [current.add e]
  adopted : ∀ request replanned, replanned.needsTaskLoop = true →
    epochs plan (events ++ [.replanned request (.plan replanned)]) =
      done ++ [current, { plan := replanned, executions := [] }]
  notAdopted : ∀ request reply, (LoopEvent.replanned request reply).adopted? = none →
    epochs plan (events ++ [.replanned request reply]) = done ++ [current]

/-- A run always has a last epoch. -/
lemma exists_lastEpoch (plan : ThinkingPlan) (events : List LoopEvent) :
    ∃ done current, LastEpoch plan events done current := by
  induction events generalizing plan with
  | nil =>
    refine ⟨[], { plan := plan, executions := [] }, rfl, fun _ => rfl, ?_, ?_⟩
    · intro request replanned hneeds
      simp [epochs, LoopEvent.adopted?, hneeds]
    · intro request reply hnone
      simp [epochs, hnone]
  | cons event events ih =>
    cases event with
    | executed e =>
      obtain ⟨done, current, h⟩ := ih plan
      cases done with
      | nil =>
        refine ⟨[], { current with executions := e :: current.executions }, ?_, ?_, ?_, ?_⟩
        · rw [epochs, h.eq]
          rfl
        · intro e'
          rw [List.cons_append, epochs, h.executed]
          rfl
        · intro request replanned hneeds
          rw [List.cons_append, epochs, h.adopted request replanned hneeds]
          rfl
        · intro request reply hnone
          rw [List.cons_append, epochs, h.notAdopted request reply hnone]
          rfl
      | cons first done =>
        refine ⟨{ first with executions := e :: first.executions } :: done, current, ?_, ?_, ?_, ?_⟩
        · rw [epochs, h.eq]
          rfl
        · intro e'
          rw [List.cons_append, epochs, h.executed]
          rfl
        · intro request replanned hneeds
          rw [List.cons_append, epochs, h.adopted request replanned hneeds]
          rfl
        · intro request reply hnone
          rw [List.cons_append, epochs, h.notAdopted request reply hnone]
          rfl
    | replanned request reply =>
      cases hadopted : (LoopEvent.replanned request reply).adopted? with
      | none =>
        obtain ⟨done, current, h⟩ := ih plan
        have hskip : ∀ es, epochs plan (.replanned request reply :: es) = epochs plan es := by
          intro es
          rw [epochs, hadopted]
        exact ⟨done, current, by rw [hskip, h.eq], fun e => by rw [List.cons_append, hskip,
          h.executed], fun r p hp => by rw [List.cons_append, hskip, h.adopted r p hp],
          fun r p hp => by rw [List.cons_append, hskip, h.notAdopted r p hp]⟩
      | some replanned =>
        obtain ⟨done, current, h⟩ := ih replanned
        have hfirst : ∀ es, epochs plan (.replanned request reply :: es) =
            { plan := plan, executions := [] } :: epochs replanned es := by
          intro es
          rw [epochs, hadopted]
        exact ⟨{ plan := plan, executions := [] } :: done, current, by rw [hfirst, h.eq]; rfl,
          fun e => by rw [List.cons_append, hfirst, h.executed]; rfl,
          fun r p hp => by rw [List.cons_append, hfirst, h.adopted r p hp]; rfl,
          fun r p hp => by rw [List.cons_append, hfirst, h.notAdopted r p hp]; rfl⟩

/-- What the last epoch is determines how a further event changes it. -/
lemma lastEpoch_of_eq {plan : ThinkingPlan} {events : List LoopEvent} {done : List Epoch}
    {current : Epoch} (h : epochs plan events = done ++ [current]) :
    LastEpoch plan events done current := by
  obtain ⟨done', current', hlast⟩ := exists_lastEpoch plan events
  obtain ⟨hdone, hcurrent⟩ := List.append_inj' (hlast.eq.symm.trans h) rfl
  obtain rfl := hdone
  obtain rfl : current' = current := by simpa using hcurrent
  exact hlast

/-- A question to the replanner leaves the epochs as they are, or starts an empty one. -/
lemma mem_epochs_replanned {plan : ThinkingPlan} {events : List LoopEvent}
    {request : ReplanRequest} {reply : ReplanReply} {epoch : Epoch}
    (h : epoch ∈ epochs plan (events ++ [.replanned request reply])) :
    epoch ∈ epochs plan events ∨ epoch.executions = [] := by
  obtain ⟨done, current, hlast⟩ := exists_lastEpoch plan events
  cases hadopted : (LoopEvent.replanned request reply).adopted? with
  | none =>
    rw [hlast.notAdopted request reply hadopted] at h
    rw [hlast.eq]
    exact .inl h
  | some replanned =>
    cases reply with
    | violation | raised => cases hadopted
    | plan next =>
      have hneeds : next.needsTaskLoop = true := by
        by_contra hneeds
        simp [LoopEvent.adopted?, hneeds] at hadopted
      rw [hlast.adopted request next hneeds] at h
      rw [hlast.eq]
      simp only [List.mem_append, List.mem_cons, List.not_mem_nil, or_false] at h ⊢
      rcases h with h | h | rfl
      · exact .inl (.inl h)
      · exact .inl (.inr h)
      · exact .inr rfl

end Trion.TaskLoop
