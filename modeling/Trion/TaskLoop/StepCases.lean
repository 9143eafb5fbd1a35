import Mathlib.Tactic.Tauto
import Trion.TaskLoop.PassCases

/-!
# What one step of a run can do

A step of `loopStep` is one pass together with the passage to the next plan.  `NextCases`
lists the ways in which the run goes on, `HaltCases` the ways in which it ends; the events
of a step are at most one execution and, after it, one question to the replanner.
-/

namespace Trion.TaskLoop

open Trion.Python Trion.Thinking StepMachine

variable {W : Type} {cfg : LoopConfig W} {st st' : LoopState W} {step : PlanStep}
  {result : StepExecutionResult}

/-- Where a replanning comes from: the snapshot it is asked with and the failure. -/
inductive ReplanSource (cfg : LoopConfig W) (st : LoopState W) (step : PlanStep)
    (result : StepExecutionResult) : TaskLoopSnapshot → StepExecutionResult → Prop
  | failedStep : (stepDecision cfg st step result).action = .replan →
      ReplanSource cfg st step result (endedSnapshot cfg st step result) result
  | unmetObjective {pendingStep : String} {reason : StopReason} {failure : StepExecutionResult} :
      (stepDecision cfg st step result).action = .completed →
      (canReplan (runGovernorFromSnapshot (endedSnapshot cfg st step result))
        (passClock cfg st).completion).allowed = true →
      ReplanSource cfg st step result
        { (endedSnapshot cfg st step result).moveTo .replanning with
          pendingStep := pendingStep, stopReason := some reason,
          replanCount := (endedSnapshot cfg st step result).replanCount + 1 } failure

/-- A pass ends the plan's execution and asks for another plan. -/
structure Replans (cfg : LoopConfig W) (st : LoopState W) (step : PlanStep)
    (result : StepExecutionResult) (request : ReplanRequest) : Prop
    extends Executes cfg st step result where
  not_expanded : (stepExpansion cfg st step result).1 = none
  plan_eq : request.plan = st.plan
  source : ReplanSource cfg st step result request.snapshot request.failure

/-- The ways in which a run goes on after a step. -/
inductive NextCases (cfg : LoopConfig W) (st : LoopState W) :
    List LoopEvent → LoopState W → Prop
  | expands {step : PlanStep} {result : StepExecutionResult} {plan : ThinkingPlan} :
      Executes cfg st step result → (stepExpansion cfg st step result).1 = some plan →
      NextCases cfg st [.executed (stepExecution cfg st step)]
        (expandedState cfg st step result plan)
  | advances {step : PlanStep} {result : StepExecutionResult} :
      Executes cfg st step result → (stepExpansion cfg st step result).1 = none →
      (stepDecision cfg st step result).action = .continue → result.status = .success →
      NextCases cfg st [.executed (stepExecution cfg st step)]
        (continuedState cfg st step result (advancedSnapshot cfg st step result))
  | retries {step : PlanStep} {result : StepExecutionResult} :
      Executes cfg st step result → (stepExpansion cfg st step result).1 = none →
      (stepDecision cfg st step result).action = .continue → result.status ≠ .success →
      NextCases cfg st [.executed (stepExecution cfg st step)]
        (continuedState cfg st step result (retriedSnapshot cfg st step result))
  | replans {step : PlanStep} {result : StepExecutionResult} {request : ReplanRequest}
      {replanner : W → ReplanRequest → ReplanReply × W} {replanned : ThinkingPlan} {world : W} :
      Replans cfg st step result request → cfg.replannerFn = some replanner →
      replanner (stepExpansion cfg st step result).2 request = (.plan replanned, world) →
      replanned.needsTaskLoop = true →
      NextCases cfg st
        [.executed (stepExecution cfg st step), .replanned request (.plan replanned)]
        (epochState cfg replanned
          (resetSnapshot replanned (request.snapshot.moveTo .executing)) world)

/-- The ways in which a run ends with a step. -/
inductive HaltCases (cfg : LoopConfig W) (st : LoopState W) : List LoopEvent → LoopEnd W → Prop
  | emptyPlan : st.plan.steps = [] →
      HaltCases cfg st [] { outcome := .error invalidCompletion, world := st.world }
  | pastEnd : st.plan.steps ≠ [] → st.plan.steps[st.snapshot.currentStepIndex]? = none →
      HaltCases cfg st [] { outcome := .error invalidCompletion, world := (cfg.clock st.world).2 }
  | receiptMissing {step : PlanStep} :
      st.plan.steps[st.snapshot.currentStepIndex]? = some step →
      receiptRequired cfg st = true → stepReceipt cfg st step = none →
      HaltCases cfg st [] {
        outcome := .ok { receiptBlockedResult st step with activePlan := some st.plan }
        world := st.world }
  | waits {step : PlanStep} {wait : StopReason × String × String} :
      st.plan.steps[st.snapshot.currentStepIndex]? = some step →
      (receiptRequired cfg st = true → (stepReceipt cfg st step).isSome) →
      waitingGate cfg st step = some wait →
      HaltCases cfg st [] {
        outcome := .ok { waitingResult st step wait with activePlan := some st.plan }
        world := st.world }
  | governorBlocks {step : PlanStep} {reason : String} :
      st.plan.steps[st.snapshot.currentStepIndex]? = some step →
      (canStartStep (runGovernorFromSnapshot st.snapshot)
        (passClock cfg st).stepStart).allowed = false →
      HaltCases cfg st [] {
        outcome := .ok { governorBlockedResult st.snapshot step.stepId step.title reason
          st.structuralResults with activePlan := some st.plan }
        world := (cfg.clock st.world).2 }
  | raises {step : PlanStep} {e : PyError} :
      Starts cfg st step → (stepRun cfg st step).1.outcome = .error e →
      HaltCases cfg st [.executed (stepExecution cfg st step)]
        { outcome := .error e, world := (stepRun cfg st step).2 }
  | completionRaises {step : PlanStep} {result : StepExecutionResult} :
      Executes cfg st step result → (stepExpansion cfg st step result).1 = none →
      (stepDecision cfg st step result).action = .completed →
      (endedSnapshot cfg st step result).artifacts.mapM (EvidenceArtifact.fromDict cfg.rt) =
        .error .attributeError →
      HaltCases cfg st [.executed (stepExecution cfg st step)]
        { outcome := .error .attributeError, world := (stepExpansion cfg st step result).2 }
  | stops {step : PlanStep} {result : StepExecutionResult} :
      Executes cfg st step result → (stepExpansion cfg st step result).1 = none →
      (stepDecision cfg st step result).action ∈ [ReflectionAction.waiting, .block] ∨
        (stepDecision cfg st step result).action = .replan ∧ cfg.replannerFn = none →
      HaltCases cfg st [.executed (stepExecution cfg st step)] {
        outcome := .ok { endedResult cfg st step result with activePlan := some st.plan }
        world := (stepExpansion cfg st step result).2 }
  | completes {step : PlanStep} {result : StepExecutionResult} {final : TaskLoopResult}
      {failed : Option StepExecutionResult} :
      Executes cfg st step result → (stepExpansion cfg st step result).1 = none →
      (stepDecision cfg st step result).action = .completed →
      Finalized cfg.completion st.plan (endedSnapshot cfg st step result)
        (structuralResultsAfter st result) (passClock cfg st).completion final failed →
      failed = none ∨ cfg.replannerFn = none →
      HaltCases cfg st [.executed (stepExecution cfg st step)] {
        outcome := .ok { final with activePlan := some st.plan }
        world := (stepExpansion cfg st step result).2 }
  | replannerRaises {step : PlanStep} {result : StepExecutionResult} {request : ReplanRequest}
      {replanner : W → ReplanRequest → ReplanReply × W} {e : PyError} {world : W} :
      Replans cfg st step result request → cfg.replannerFn = some replanner →
      replanner (stepExpansion cfg st step result).2 request = (.raised e, world) →
      HaltCases cfg st [.executed (stepExecution cfg st step), .replanned request (.raised e)]
        { outcome := .error e, world := world }
  | violates {step : PlanStep} {result : StepExecutionResult} {request : ReplanRequest}
      {replanner : W → ReplanRequest → ReplanReply × W} {reason : String} {world : W}
      {structuralResults : List (Option PyVal)} :
      Replans cfg st step result request → cfg.replannerFn = some replanner →
      replanner (stepExpansion cfg st step result).2 request = (.violation reason, world) →
      HaltCases cfg st
        [.executed (stepExecution cfg st step), .replanned request (.violation reason)] {
        outcome := .ok { resultOf { request.snapshot.moveTo .blocked with
            stopReason := some .capabilityGap
            waitingReason := some reason
            waitingSource := some "plan_contract_validator" }
          "Task loop blocked by plan contract validator." .incomplete structuralResults with
          activePlan := some st.plan }
        world := world }
  | answers {step : PlanStep} {result : StepExecutionResult} {request : ReplanRequest}
      {replanner : W → ReplanRequest → ReplanReply × W} {replanned : ThinkingPlan} {world : W} :
      Replans cfg st step result request → cfg.replannerFn = some replanner →
      replanner (stepExpansion cfg st step result).2 request = (.plan replanned, world) →
      replanned.needsTaskLoop = false →
      HaltCases cfg st
        [.executed (stepExecution cfg st step), .replanned request (.plan replanned)] {
        outcome := .ok {
          resultOf (resetSnapshot replanned (request.snapshot.moveTo .completed))
            "Task loop completed." .incomplete [] with activePlan := some replanned }
        world := world }

/-- What a step does: it goes on or ends in one of the listed ways. -/
inductive StepCases (cfg : LoopConfig W) (st : LoopState W) :
    List LoopEvent × Outcome (LoopState W) (LoopEnd W) → Prop
  | next {events : List LoopEvent} {st' : LoopState W} :
      NextCases cfg st events st' → StepCases cfg st (events, .next st')
  | halt {events : List LoopEvent} {last : LoopEnd W} :
      HaltCases cfg st events last → StepCases cfg st (events, .halt last)

/-! ### A step is one of the cases -/

/-- Without a replanner, or without a failure to replan for, the run ends. -/
lemma leaveEpoch_eq_halt {last : TaskLoopResult} {failed : Option StepExecutionResult}
    {plan : ThinkingPlan} {world : W}
    (h : cfg.replannerFn = none ∨ failed = none ∨ last.state ≠ .replanning) :
    leaveEpoch cfg last failed plan world =
      ([], .halt { outcome := .ok { last with activePlan := some plan }, world := world }) := by
  unfold leaveEpoch
  split
  · rename_i hreplanner
    rcases h with h | h | h
    · simp_all
    · simp_all
    · rw [if_neg h]
  · rfl

/-- A run whose step has no receipt ends there. -/
lemma loopStep_of_receiptMissing (hs : st.snapshot.state = .executing)
    (hstep : st.plan.steps[st.snapshot.currentStepIndex]? = some step)
    (hrequired : receiptRequired cfg st = true) (hnone : stepReceipt cfg st step = none) :
    loopStep cfg st = ([], .halt {
      outcome := .ok { receiptBlockedResult st step with activePlan := some st.plan }
      world := st.world }) := by
  have hne : st.plan.steps ≠ [] := by
    intro hempty
    simp [hempty] at hstep
  rw [loopStep, executeWithReflection, if_neg hne, hstep]
  dsimp only
  rw [gateStep_of_receiptMissing hs hrequired hnone]
  simp only [leaveEpoch_eq_halt (.inr (.inl rfl)), List.append_nil]

/-- A run whose step needs approval ends there, waiting. -/
lemma loopStep_of_waits {wait : StopReason × String × String} (hs : st.snapshot.state = .executing)
    (hstep : st.plan.steps[st.snapshot.currentStepIndex]? = some step)
    (hreceipt : receiptRequired cfg st = true → (stepReceipt cfg st step).isSome)
    (hwait : waitingGate cfg st step = some wait) :
    loopStep cfg st = ([], .halt {
      outcome := .ok { waitingResult st step wait with activePlan := some st.plan }
      world := st.world }) := by
  have hne : st.plan.steps ≠ [] := by
    intro hempty
    simp [hempty] at hstep
  rw [loopStep, executeWithReflection, if_neg hne, hstep]
  dsimp only
  rw [gateStep_of_waits hs hreceipt hwait]
  simp only [leaveEpoch_eq_halt (.inr (.inl rfl)), List.append_nil]

/-- What the replanner's answer leads to is one of the cases. -/
lemma leaveEpoch_cases {last : TaskLoopResult} {failure : StepExecutionResult}
    {replanner : W → ReplanRequest → ReplanReply × W}
    (hreplanner : cfg.replannerFn = some replanner) (hstate : last.state = .replanning)
    (hsnapshot : last.snapshot.state = .replanning)
    (h : Replans cfg st step result
      { plan := st.plan, failure := failure, snapshot := last.snapshot }) :
    StepCases cfg st
      ([.executed (stepExecution cfg st step)] ++
        (leaveEpoch cfg last (some failure) st.plan (stepExpansion cfg st step result).2).1,
      (leaveEpoch cfg last (some failure) st.plan (stepExpansion cfg st step result).2).2) := by
  have hmove : ∀ next ∈ [TaskLoopState.executing, .completed, .blocked], ∀ updates,
      last.snapshot.transitionTo next updates = .ok (updates (last.snapshot.moveTo next)) := by
    intro next hnext
    refine TaskLoopSnapshot.transitionTo_eq_ok ?_
    rw [hsnapshot]
    simp only [List.mem_cons, List.not_mem_nil, or_false] at hnext
    rcases hnext with rfl | rfl | rfl <;> simp [allowedTransitions]
  generalize hworld : (stepExpansion cfg st step result).2 = world
  rcases hreply : replanner world
    { plan := st.plan, failure := failure, snapshot := last.snapshot } with ⟨reply, world'⟩
  have hleave : leaveEpoch cfg last (some failure) st.plan world =
      ([.replanned { plan := st.plan, failure := failure, snapshot := last.snapshot } reply],
        adoptReply cfg st.plan last world' reply) := by
    simp only [leaveEpoch, hreplanner, hstate, if_true, hreply]
  rw [hleave]
  cases reply with
  | raised e =>
    exact .halt (.replannerRaises h hreplanner (by rw [hworld, hreply]))
  | violation reason =>
    rw [adoptReply, blockedReplanResult, hmove .blocked (by simp)]
    exact .halt (.violates h hreplanner (by rw [hworld, hreply]))
  | plan replanned =>
    cases hneeds : replanned.needsTaskLoop with
    | false =>
      rw [adoptReply, if_pos (by simp [hneeds]), hmove .completed (by simp)]
      exact .halt (.answers h hreplanner (by rw [hworld, hreply]) hneeds)
    | true =>
      rw [adoptReply, if_neg (by simp [hneeds]), resetForReplannedPlan,
        hmove .executing (by simp)]
      exact .next (.replans h hreplanner (by rw [hworld, hreply]) hneeds)

/-- A step from an executing snapshot is one of the cases. -/
theorem stepCases (cfg : LoopConfig W) (hs : st.snapshot.state = .executing) : StepCases cfg st (loopStep cfg st) := by
  have hpass := passCases cfg hs
  rw [loopStep]
  rcases hp : executeWithReflection cfg st with ⟨events, pass⟩
  rw [hp] at hpass
  cases hpass with
  | emptyPlan h => exact .halt (.emptyPlan h)
  | pastEnd hne hend => exact .halt (.pastEnd hne hend)
  | receiptMissing hstep hrequired hnone =>
    simp only [leaveEpoch_eq_halt (.inr (.inl rfl))]
    exact .halt (.receiptMissing hstep hrequired hnone)
  | waits hstep hreceipt hwait =>
    simp only [leaveEpoch_eq_halt (.inr (.inl rfl))]
    exact .halt (.waits hstep hreceipt hwait)
  | governorBlocks hstep hblocked =>
    simp only [leaveEpoch_eq_halt (.inr (.inl rfl))]
    exact .halt (.governorBlocks hstep hblocked)
  | raises h houtcome => exact .halt (.raises h houtcome)
  | expands h hexpanded => exact .next (.expands h hexpanded)
  | advances h hnone haction hsuccess => exact .next (.advances h hnone haction hsuccess)
  | retries h hnone haction hfailed => exact .next (.retries h hnone haction hfailed)
  | completionRaises h hnone haction hartifacts =>
    exact .halt (.completionRaises h hnone haction hartifacts)
  | @stops step result h hnone haction =>
    cases hreplanner : cfg.replannerFn with
    | none =>
      simp only [leaveEpoch_eq_halt (.inl hreplanner)]
      refine .halt (.stops h hnone ?_)
      simp only [List.mem_cons, List.not_mem_nil, or_false] at haction ⊢
      tauto
    | some replanner =>
      by_cases hreplan : (stepDecision cfg st step result).action = .replan
      · have hstate : (endedResult cfg st step result).snapshot.state = .replanning := by
          change targetState (stepDecision cfg st step result).action = _
          rw [hreplan]
          rfl
        exact leaveEpoch_cases hreplanner hstate hstate ⟨h, hnone, rfl, .failedStep hreplan⟩
      · have hstate : (endedResult cfg st step result).state ≠ .replanning := by
          change targetState (stepDecision cfg st step result).action ≠ _
          simp only [List.mem_cons, List.not_mem_nil, or_false] at haction
          rcases haction with haction | haction | haction
          · simp [haction, targetState]
          · exact absurd haction hreplan
          · simp [haction, targetState]
        simp only [leaveEpoch_eq_halt (.inr (.inr hstate))]
        refine .halt (.stops h hnone (.inl ?_))
        simp only [List.mem_cons, List.not_mem_nil, or_false] at haction ⊢
        tauto
  | @completes step result final failed h hnone haction hfinalized =>
    cases hreplanner : cfg.replannerFn with
    | none =>
      simp only [leaveEpoch_eq_halt (.inl hreplanner)]
      exact .halt (.completes h hnone haction hfinalized (.inr hreplanner))
    | some replanner =>
      cases hfinalized with
      | complete hmissing hevidence hcomplete =>
        simp only [leaveEpoch_eq_halt (.inr (.inl rfl))]
        exact .halt (.completes h hnone haction (.complete hmissing hevidence hcomplete) (.inl rfl))
      | block =>
        simp only [leaveEpoch_eq_halt (.inr (.inl rfl))]
        exact .halt (.completes h hnone haction .block (.inl rfl))
      | replan hallowed =>
        exact leaveEpoch_cases hreplanner rfl rfl ⟨h, hnone, rfl, .unmetObjective haction hallowed⟩

/-- The ways in which a run goes on. -/
lemma nextCases {events : List LoopEvent} (hs : st.snapshot.state = .executing)
    (h : loopStep cfg st = (events, .next st')) : NextCases cfg st events st' := by
  have hcases := stepCases cfg hs
  rw [h] at hcases
  cases hcases with
  | next hnext => exact hnext

/-- The ways in which a run ends. -/
lemma haltCases {events : List LoopEvent} {last : LoopEnd W} (hs : st.snapshot.state = .executing)
    (h : loopStep cfg st = (events, .halt last)) : HaltCases cfg st events last := by
  have hcases := stepCases cfg hs
  rw [h] at hcases
  cases hcases with
  | halt hhalt => exact hhalt

end Trion.TaskLoop
