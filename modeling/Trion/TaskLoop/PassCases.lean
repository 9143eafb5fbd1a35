import Trion.TaskLoop.ExecutionLoop

/-!
# What one pass can do

The loop is at the head of its body only with an executing snapshot.  From there every
transition that a pass requests after it has started a step is allowed, so a pass does one
of twelve things, listed in `PassCases`.  The proofs about runs go by these cases and never
unfold the loop.
-/

namespace Trion.TaskLoop

open Trion.Python Trion.Thinking StepMachine

variable {W : Type}

/-! ### The parts of a pass -/

section Parts

variable (cfg : LoopConfig W) (st : LoopState W) (step : PlanStep) (result : StepExecutionResult)

/-- What `execute_step` does in the pass, and the world it leaves. -/
def stepRun : StepRun × W :=
  executeStarted cfg st step (stepReceipt cfg st step) (startedSnapshot st.snapshot step.stepId)

/-- The execution a pass adds to the run. -/
def stepExecution : Execution where
  plan := st.plan
  snapshot := startedSnapshot st.snapshot step.stepId
  step := step
  receipt := stepReceipt cfg st step
  approvedStepId := st.approvedStepId
  run := (stepRun cfg st step).1

/-- The snapshot in which the result of a step is reflected on. -/
def reflectedSnapshot : TaskLoopSnapshot :=
  (startedSnapshot st.snapshot step.stepId).moveTo .reflecting

/-- The decision on a result. -/
def stepDecision : ReflectionDecision :=
  Reflection.evaluate cfg.rt result (reflectedSnapshot st step) st.plan.steps.length
    (passClock cfg st).reflection

/-- What the follow-up planner makes of a result, and the world it leaves. -/
def stepExpansion : Option ThinkingPlan × W :=
  expandedPlanAfterSuccess cfg st.plan st.snapshot.currentStepIndex step result
    (stepRun cfg st step).2

/-- The structural results after a step. -/
def structuralResultsAfter : List (Option PyVal) :=
  if result.status = .success then st.structuralResults ++ [result.structuralResult]
  else st.structuralResults

/-- The snapshot after a step that is done. -/
def advancedSnapshot : TaskLoopSnapshot :=
  recordExecution result (stepDecision cfg st step result)
    (advanceSnapshot step ((reflectedSnapshot st step).moveTo .executing))

/-- The snapshot after a step that is tried again. -/
def retriedSnapshot : TaskLoopSnapshot :=
  recordExecution result (stepDecision cfg st step result)
    (retrySnapshot step ((reflectedSnapshot st step).moveTo .executing))

/-- The snapshot after a step that ends the plan's execution. -/
def endedSnapshot : TaskLoopSnapshot :=
  recordExecution result (stepDecision cfg st step result)
    (finalSnapshot step (stepDecision cfg st step result)
      ((reflectedSnapshot st step).moveTo (targetState (stepDecision cfg st step result).action)))

/-- The next state when the plan stays as it is. -/
def continuedState (s : TaskLoopSnapshot) : LoopState W :=
  { st with
    snapshot := s
    structuralResults := structuralResultsAfter st result
    world := (stepExpansion cfg st step result).2 }

/-- The next state when the plan has been expanded. -/
def expandedState (plan : ThinkingPlan) : LoopState W :=
  { st with
    plan := plan
    snapshot := advancedSnapshot cfg st step result
    receiptValidator := match cfg.receiptValidatorFactory with
      | some factory => factory plan
      | none => st.receiptValidator
    structuralResults := structuralResultsAfter st result
    world := (stepExpansion cfg st step result).2 }

/-- The result of a run that ends with the reflection on a step. -/
def endedResult : TaskLoopResult :=
  let final := endedSnapshot cfg st step result
  resultOf final (visibleContentFor final.state step.title final.stopReason)
    (completionStatusFor final.state) (structuralResultsAfter st result)

/-- The result of a run whose step has no receipt. -/
def receiptBlockedResult : TaskLoopResult :=
  let blocked := { st.snapshot.moveTo .blocked with
    pendingStep := step.stepId
    stopReason := some .capabilityGap
    waitingReason := some "step_operation_receipt_missing"
    waitingSource := some "plan_contract_validator" }
  resultOf blocked (visibleContentFor .blocked step.title (some .capabilityGap)) .blocked
    st.structuralResults

/-- The snapshot of a run that waits for the approval of a step. -/
@[simps]
def waitingSnapshot (s : TaskLoopSnapshot) (wait : StopReason × String × String) :
    TaskLoopSnapshot :=
  { s.moveTo .waiting with
    pendingStep := step.stepId
    stopReason := some wait.1
    waitingReason := some wait.2.1
    waitingSource := some wait.2.2 }

/-- The result of a run that waits for the approval of a step. -/
def waitingResult (wait : StopReason × String × String) : TaskLoopResult :=
  resultOf (waitingSnapshot step st.snapshot wait)
    s!"Approval required before step '{step.title}' can run." .waiting st.structuralResults

/-- The exception of a run that asks to complete while it is executing. -/
def invalidCompletion : PyError :=
  .valueError "Invalid task loop transition: executing -> completed"

/-- The gates let the step at the current index through, and the governor starts it. -/
structure Starts : Prop where
  step_at : st.plan.steps[st.snapshot.currentStepIndex]? = some step
  receipt_gate : receiptRequired cfg st = true → (stepReceipt cfg st step).isSome
  approval_gate : waitingGate cfg st step = none
  governor : (canStartStep (runGovernorFromSnapshot st.snapshot)
    (passClock cfg st).stepStart).allowed = true

/-- A step is executed and `execute_step` returns. -/
structure Executes : Prop extends Starts cfg st step where
  outcome : (stepRun cfg st step).1.outcome = .ok result

end Parts

/-! ### The fields of the snapshots of a pass -/

section Fields

variable (cfg : LoopConfig W) (st : LoopState W) (step : PlanStep) (result : StepExecutionResult)

@[simp] lemma reflectedSnapshot_state :
    (reflectedSnapshot st step).state = .reflecting := by
  simp [reflectedSnapshot]

@[simp] lemma reflectedSnapshot_settings :
    (reflectedSnapshot st step).settings = st.snapshot.settings := by
  simp [reflectedSnapshot]

@[simp] lemma reflectedSnapshot_currentStepIndex :
    (reflectedSnapshot st step).currentStepIndex = st.snapshot.currentStepIndex := by
  simp [reflectedSnapshot]

@[simp] lemma reflectedSnapshot_replanCount :
    (reflectedSnapshot st step).replanCount = st.snapshot.replanCount := by
  simp [reflectedSnapshot]

@[simp] lemma reflectedSnapshot_artifacts :
    (reflectedSnapshot st step).artifacts = st.snapshot.artifacts := by
  simp [reflectedSnapshot]

@[simp] lemma reflectedSnapshot_completedSteps :
    (reflectedSnapshot st step).completedSteps = st.snapshot.completedSteps := by
  simp [reflectedSnapshot]

@[simp] lemma reflectedSnapshot_retryCounts :
    (reflectedSnapshot st step).retryCounts = st.snapshot.retryCounts := by
  simp [reflectedSnapshot]

@[simp] lemma reflectedSnapshot_stepOperationExecutions :
    (reflectedSnapshot st step).stepOperationExecutions = st.snapshot.stepOperationExecutions := by
  simp [reflectedSnapshot]

@[simp] lemma advancedSnapshot_state :
    (advancedSnapshot cfg st step result).state = .executing := by
  simp [advancedSnapshot]

@[simp] lemma advancedSnapshot_settings :
    (advancedSnapshot cfg st step result).settings = st.snapshot.settings := by
  simp [advancedSnapshot]

@[simp] lemma advancedSnapshot_currentStepIndex :
    (advancedSnapshot cfg st step result).currentStepIndex = st.snapshot.currentStepIndex + 1 := by
  simp [advancedSnapshot]

@[simp] lemma advancedSnapshot_replanCount :
    (advancedSnapshot cfg st step result).replanCount = st.snapshot.replanCount := by
  simp [advancedSnapshot]

@[simp] lemma advancedSnapshot_artifacts :
    (advancedSnapshot cfg st step result).artifacts = st.snapshot.artifacts ++ result.artifacts := by
  simp [advancedSnapshot]

@[simp] lemma advancedSnapshot_completedSteps :
    (advancedSnapshot cfg st step result).completedSteps = appendCompleted st.snapshot step.stepId := by
  simp [advancedSnapshot, appendCompleted]

@[simp] lemma advancedSnapshot_retryCounts :
    (advancedSnapshot cfg st step result).retryCounts = (stepDecision cfg st step result).retryCounts := by
  simp [advancedSnapshot]

@[simp] lemma advancedSnapshot_stepOperationExecutions :
    (advancedSnapshot cfg st step result).stepOperationExecutions = appendExecution st.snapshot result := by
  simp [advancedSnapshot, appendExecution]

@[simp] lemma retriedSnapshot_state :
    (retriedSnapshot cfg st step result).state = .executing := by
  simp [retriedSnapshot]

@[simp] lemma retriedSnapshot_settings :
    (retriedSnapshot cfg st step result).settings = st.snapshot.settings := by
  simp [retriedSnapshot]

@[simp] lemma retriedSnapshot_currentStepIndex :
    (retriedSnapshot cfg st step result).currentStepIndex = st.snapshot.currentStepIndex := by
  simp [retriedSnapshot]

@[simp] lemma retriedSnapshot_replanCount :
    (retriedSnapshot cfg st step result).replanCount = st.snapshot.replanCount := by
  simp [retriedSnapshot]

@[simp] lemma retriedSnapshot_artifacts :
    (retriedSnapshot cfg st step result).artifacts = st.snapshot.artifacts ++ result.artifacts := by
  simp [retriedSnapshot]

@[simp] lemma retriedSnapshot_completedSteps :
    (retriedSnapshot cfg st step result).completedSteps = st.snapshot.completedSteps := by
  simp [retriedSnapshot]

@[simp] lemma retriedSnapshot_retryCounts :
    (retriedSnapshot cfg st step result).retryCounts = (stepDecision cfg st step result).retryCounts := by
  simp [retriedSnapshot]

@[simp] lemma retriedSnapshot_stepOperationExecutions :
    (retriedSnapshot cfg st step result).stepOperationExecutions = appendExecution st.snapshot result := by
  simp [retriedSnapshot, appendExecution]

@[simp] lemma endedSnapshot_state :
    (endedSnapshot cfg st step result).state = targetState (stepDecision cfg st step result).action := by
  simp [endedSnapshot]

@[simp] lemma endedSnapshot_settings :
    (endedSnapshot cfg st step result).settings = st.snapshot.settings := by
  simp [endedSnapshot]

@[simp] lemma endedSnapshot_replanCount :
    (endedSnapshot cfg st step result).replanCount = st.snapshot.replanCount +
      if (stepDecision cfg st step result).action = .replan then 1 else 0 := by
  simp [endedSnapshot]

@[simp] lemma endedSnapshot_artifacts :
    (endedSnapshot cfg st step result).artifacts = st.snapshot.artifacts ++ result.artifacts := by
  simp [endedSnapshot]

@[simp] lemma endedSnapshot_stepOperationExecutions :
    (endedSnapshot cfg st step result).stepOperationExecutions = appendExecution st.snapshot result := by
  simp [endedSnapshot, appendExecution]

@[simp] lemma endedSnapshot_currentStepIndex :
    (endedSnapshot cfg st step result).currentStepIndex = st.snapshot.currentStepIndex +
      if (stepDecision cfg st step result).action = .completed then 1 else 0 := by
  simp [endedSnapshot]

@[simp] lemma endedSnapshot_stopReason :
    (endedSnapshot cfg st step result).stopReason =
      (stepDecision cfg st step result).stopReason := by
  simp [endedSnapshot]

@[simp] lemma endedSnapshot_completedSteps :
    (endedSnapshot cfg st step result).completedSteps =
      if (stepDecision cfg st step result).action = .completed then
        appendCompleted st.snapshot step.stepId
      else st.snapshot.completedSteps := by
  simp [endedSnapshot, appendCompleted]

@[simp] lemma waitingSnapshot_settings (s : TaskLoopSnapshot)
    (wait : StopReason × String × String) :
    (waitingSnapshot step s wait).settings = s.settings := rfl

end Fields

/-! ### The cases -/

/-- What one pass over an executing snapshot does: the events it adds to the run, and
where it leads. -/
inductive PassCases (cfg : LoopConfig W) (st : LoopState W) : List LoopEvent → Pass W → Prop
  | emptyPlan : st.plan.steps = [] → PassCases cfg st [] (.raise invalidCompletion st.world)
  | pastEnd : st.plan.steps ≠ [] → st.plan.steps[st.snapshot.currentStepIndex]? = none →
      PassCases cfg st [] (.raise invalidCompletion (cfg.clock st.world).2)
  | receiptMissing {step : PlanStep} :
      st.plan.steps[st.snapshot.currentStepIndex]? = some step →
      receiptRequired cfg st = true → stepReceipt cfg st step = none →
      PassCases cfg st [] (.leave (receiptBlockedResult st step) none st.plan st.world)
  | waits {step : PlanStep} {wait : StopReason × String × String} :
      st.plan.steps[st.snapshot.currentStepIndex]? = some step →
      (receiptRequired cfg st = true → (stepReceipt cfg st step).isSome) →
      waitingGate cfg st step = some wait →
      PassCases cfg st [] (.leave (waitingResult st step wait) none st.plan st.world)
  | governorBlocks {step : PlanStep} {reason : String} :
      st.plan.steps[st.snapshot.currentStepIndex]? = some step →
      (canStartStep (runGovernorFromSnapshot st.snapshot)
        (passClock cfg st).stepStart).allowed = false →
      PassCases cfg st [] (.leave (governorBlockedResult st.snapshot step.stepId step.title reason
        st.structuralResults) none st.plan (cfg.clock st.world).2)
  | raises {step : PlanStep} {e : PyError} :
      Starts cfg st step → (stepRun cfg st step).1.outcome = .error e →
      PassCases cfg st [.executed (stepExecution cfg st step)]
        (.raise e (stepRun cfg st step).2)
  | expands {step : PlanStep} {result : StepExecutionResult} {plan : ThinkingPlan} :
      Executes cfg st step result → (stepExpansion cfg st step result).1 = some plan →
      PassCases cfg st [.executed (stepExecution cfg st step)]
        (.continue (expandedState cfg st step result plan))
  | advances {step : PlanStep} {result : StepExecutionResult} :
      Executes cfg st step result → (stepExpansion cfg st step result).1 = none →
      (stepDecision cfg st step result).action = .continue → result.status = .success →
      PassCases cfg st [.executed (stepExecution cfg st step)]
        (.continue (continuedState cfg st step result (advancedSnapshot cfg st step result)))
  | retries {step : PlanStep} {result : StepExecutionResult} :
      Executes cfg st step result → (stepExpansion cfg st step result).1 = none →
      (stepDecision cfg st step result).action = .continue → result.status ≠ .success →
      PassCases cfg st [.executed (stepExecution cfg st step)]
        (.continue (continuedState cfg st step result (retriedSnapshot cfg st step result)))
  | stops {step : PlanStep} {result : StepExecutionResult} :
      Executes cfg st step result → (stepExpansion cfg st step result).1 = none →
      (stepDecision cfg st step result).action ∈ [ReflectionAction.waiting, .replan, .block] →
      PassCases cfg st [.executed (stepExecution cfg st step)]
        (.leave (endedResult cfg st step result) (some result) st.plan
          (stepExpansion cfg st step result).2)
  | completes {step : PlanStep} {result : StepExecutionResult} {final : TaskLoopResult}
      {failed : Option StepExecutionResult} :
      Executes cfg st step result → (stepExpansion cfg st step result).1 = none →
      (stepDecision cfg st step result).action = .completed →
      Finalized cfg.completion st.plan (endedSnapshot cfg st step result)
        (structuralResultsAfter st result) (passClock cfg st).completion final failed →
      PassCases cfg st [.executed (stepExecution cfg st step)]
        (.leave final failed st.plan (stepExpansion cfg st step result).2)
  | completionRaises {step : PlanStep} {result : StepExecutionResult} :
      Executes cfg st step result → (stepExpansion cfg st step result).1 = none →
      (stepDecision cfg st step result).action = .completed →
      (endedSnapshot cfg st step result).artifacts.mapM (EvidenceArtifact.fromDict cfg.rt) =
        .error .attributeError →
      PassCases cfg st [.executed (stepExecution cfg st step)]
        (.raise .attributeError (stepExpansion cfg st step result).2)

/-! ### A pass is one of the cases -/

section Cases

variable {cfg : LoopConfig W} {st : LoopState W} {step : PlanStep} {result : StepExecutionResult}

lemma gateStep_of_receiptMissing (hs : st.snapshot.state = .executing)
    (hrequired : receiptRequired cfg st = true) (hnone : stepReceipt cfg st step = none) :
    gateStep cfg st step = .ok (.leave (receiptBlockedResult st step)) := by
  rw [gateStep, hrequired, hnone, if_pos (by rfl), receiptBlocked,
    TaskLoopSnapshot.transitionTo_eq_ok (by simp [hs, allowedTransitions])]
  rfl

private lemma not_receiptGate
    (hreceipt : receiptRequired cfg st = true → (stepReceipt cfg st step).isSome) :
    ¬(receiptRequired cfg st && (stepReceipt cfg st step).isNone) = true := by
  rw [Bool.and_eq_true, Option.isNone_iff_eq_none]
  rintro ⟨hrequired, hnone⟩
  simpa [hnone] using hreceipt hrequired

lemma gateStep_of_waits {wait : StopReason × String × String}
    (hs : st.snapshot.state = .executing)
    (hreceipt : receiptRequired cfg st = true → (stepReceipt cfg st step).isSome)
    (hwait : waitingGate cfg st step = some wait) :
    gateStep cfg st step = .ok (.leave (waitingResult st step wait)) := by
  rw [gateStep, hwait]
  dsimp only
  rw [if_neg (not_receiptGate hreceipt),
    TaskLoopSnapshot.transitionTo_eq_ok (by simp [hs, allowedTransitions])]
  rfl

lemma gateStep_of_pass
    (hreceipt : receiptRequired cfg st = true → (stepReceipt cfg st step).isSome)
    (hwait : waitingGate cfg st step = none) :
    gateStep cfg st step = .ok (.pass (stepReceipt cfg st step)) := by
  rw [gateStep, hwait]
  dsimp only
  rw [if_neg (not_receiptGate hreceipt)]
  rfl

/-- Every state in which a decision ends the execution may follow the reflection. -/
lemma reflecting_targetState (action : ReflectionAction) :
    (TaskLoopState.reflecting, targetState action) ∈ allowedTransitions := by
  cases action <;> simp [targetState, allowedTransitions]

/-- What follows a result of `execute_step`: the end of the loop's body, with every transition
carried out. -/
def settledPass (cfg : LoopConfig W) (st : LoopState W) (step : PlanStep)
    (result : StepExecutionResult) : Pass W :=
  match (stepExpansion cfg st step result).1, (stepDecision cfg st step result).action with
  | some plan, _ => .continue (expandedState cfg st step result plan)
  | none, .continue =>
    .continue (continuedState cfg st step result
      (if result.status = .success then advancedSnapshot cfg st step result
        else retriedSnapshot cfg st step result))
  | none, .completed =>
    .ofExcept (stepExpansion cfg st step result).2 do
      let (completed, failed) ← finalizeCompletion cfg.completion st.plan
        (endedSnapshot cfg st step result) (structuralResultsAfter st result)
        (passClock cfg st).completion
      return .leave completed failed st.plan (stepExpansion cfg st step result).2
  | none, _ =>
    .leave (endedResult cfg st step result) (some result) st.plan
      (stepExpansion cfg st step result).2

/-- The transitions after the reflection are all allowed. -/
lemma settleStep_eq (hs : st.snapshot.state = .executing) :
    settleStep cfg { st with world := (stepRun cfg st step).2 } step
      (startedSnapshot st.snapshot step.stepId) result (passClock cfg st) =
      settledPass cfg st step result := by
  rw [settleStep, TaskLoopSnapshot.transitionTo_eq_ok
    (by simp [startedSnapshot, hs, allowedTransitions])]
  change Pass.ofExcept (stepExpansion cfg st step result).2 (actOnDecision cfg
    { st with
      structuralResults := structuralResultsAfter st result
      world := (stepExpansion cfg st step result).2 }
    step result (stepDecision cfg st step result) (reflectedSnapshot st step)
    (stepExpansion cfg st step result).1 (passClock cfg st).completion) = _
  have hmove : ∀ action updates, (reflectedSnapshot st step).transitionTo (targetState action)
      updates = .ok (updates ((reflectedSnapshot st step).moveTo (targetState action))) := by
    intro action
    exact TaskLoopSnapshot.transitionTo_eq_ok
      (by rw [reflectedSnapshot_state]; exact reflecting_targetState action)
  have hreflecting : ∀ updates, (reflectedSnapshot st step).transitionTo .executing updates =
      .ok (updates ((reflectedSnapshot st step).moveTo .executing)) :=
    TaskLoopSnapshot.transitionTo_eq_ok (by simp [allowedTransitions])
  rw [settledPass]
  cases hexpanded : (stepExpansion cfg st step result).1 with
  | some plan =>
    rw [actOnDecision, hreflecting]
    rfl
  | none =>
    cases haction : (stepDecision cfg st step result).action with
    | «continue» =>
      by_cases hsuccess : result.status = .success
      · rw [actOnDecision, if_pos ⟨haction, hsuccess⟩, hreflecting]
        simp only [if_pos hsuccess]
        rfl
      · rw [actOnDecision, if_neg (fun hboth => hsuccess hboth.2), if_pos haction, hreflecting]
        simp only [if_neg hsuccess]
        rfl
    | completed =>
      rw [actOnDecision, haction, if_neg (by simp), if_neg (by simp), endExecution, haction, hmove]
      simp only [bind, Except.bind, if_true]
      rw [endedSnapshot, haction]
    | waiting | replan | block =>
      rw [actOnDecision, haction, if_neg (by simp), if_neg (by simp), endExecution, haction, hmove,
        endedResult, endedSnapshot, haction]
      rfl

/-- The pass for a step that is executed. -/
lemma runStarted_of_executes (hs : st.snapshot.state = .executing)
    (h : Executes cfg st step result) :
    runStarted cfg st step (stepReceipt cfg st step) (startedSnapshot st.snapshot step.stepId) =
      ([.executed (stepExecution cfg st step)], settledPass cfg st step result) := by
  rw [runStarted, ← stepRun]
  simp only [h.outcome]
  rw [settleStep_eq hs]
  rfl

/-- The pass for a step whose `execute_step` raises. -/
lemma runStarted_of_raises {e : PyError} (h : (stepRun cfg st step).1.outcome = .error e) :
    runStarted cfg st step (stepReceipt cfg st step) (startedSnapshot st.snapshot step.stepId) =
      ([.executed (stepExecution cfg st step)], .raise e (stepRun cfg st step).2) := by
  rw [runStarted, ← stepRun]
  simp only [h]
  rfl

/-- What follows a result of `execute_step` is one of the cases. -/
lemma settledPass_cases (h : Executes cfg st step result) :
    PassCases cfg st [.executed (stepExecution cfg st step)] (settledPass cfg st step result) := by
  rw [settledPass]
  cases hexpanded : (stepExpansion cfg st step result).1 with
  | some plan => exact .expands h hexpanded
  | none =>
    cases haction : (stepDecision cfg st step result).action with
    | «continue» =>
      by_cases hsuccess : result.status = .success
      · simp only [if_pos hsuccess]
        exact .advances h hexpanded haction hsuccess
      · simp only [if_neg hsuccess]
        exact .retries h hexpanded haction hsuccess
    | completed =>
      have hfinal : (endedSnapshot cfg st step result).state = .completed := by
        rw [endedSnapshot_state, haction]
        rfl
      rcases finalizeCompletion_cases cfg.completion st.plan (structuralResultsAfter st result)
        (passClock cfg st).completion hfinal with
        ⟨completed, failed, hok, hfinalized⟩ | ⟨-, hartifacts, herror⟩
      · simp only [hok, bind, Except.bind]
        exact .completes h hexpanded haction hfinalized
      · simp only [herror, bind, Except.bind]
        exact .completionRaises h hexpanded haction hartifacts
    | waiting | replan | block => exact .stops h hexpanded (by simp [haction])

/-- The pass for a started step is one of the cases. -/
lemma runStarted_cases (hs : st.snapshot.state = .executing) (h : Starts cfg st step) :
    PassCases cfg st
      (runStarted cfg st step (stepReceipt cfg st step)
        (startedSnapshot st.snapshot step.stepId)).1
      (runStarted cfg st step (stepReceipt cfg st step)
        (startedSnapshot st.snapshot step.stepId)).2 := by
  cases houtcome : (stepRun cfg st step).1.outcome with
  | error e =>
    rw [runStarted_of_raises houtcome]
    exact .raises h houtcome
  | ok result =>
    rw [runStarted_of_executes hs ⟨h, houtcome⟩]
    exact settledPass_cases ⟨h, houtcome⟩

/-- The pass for a step that the gates let through is one of the cases. -/
lemma runStep_cases (hs : st.snapshot.state = .executing)
    (hstep : st.plan.steps[st.snapshot.currentStepIndex]? = some step)
    (hreceipt : receiptRequired cfg st = true → (stepReceipt cfg st step).isSome)
    (hwait : waitingGate cfg st step = none) :
    PassCases cfg st (runStep cfg st step (stepReceipt cfg st step)).1
      (runStep cfg st step (stepReceipt cfg st step)).2 := by
  rw [runStep]
  cases hallowed : (canStartStep (runGovernorFromSnapshot st.snapshot)
      (passClock cfg st).stepStart).allowed with
  | false =>
    rw [startGovernedStep_of_not_allowed hs hallowed]
    exact .governorBlocks hstep hallowed
  | true =>
    rw [startGovernedStep_of_allowed hs hallowed]
    exact runStarted_cases hs ⟨hstep, hreceipt, hwait, hallowed⟩

/-- A pass over an executing snapshot is one of the cases. -/
theorem passCases (cfg : LoopConfig W) (hs : st.snapshot.state = .executing) :
    PassCases cfg st (executeWithReflection cfg st).1 (executeWithReflection cfg st).2 := by
  have hcompletion : ∀ updates, st.snapshot.transitionTo .completed updates =
      .error invalidCompletion := by
    intro updates
    rw [TaskLoopSnapshot.transitionTo_eq_error (by simp [hs, allowedTransitions]), hs]
    rfl
  rw [executeWithReflection]
  split
  · rename_i hempty
    rw [hcompletion]
    exact .emptyPlan hempty
  · rename_i hne
    split
    · rename_i hend
      rw [hcompletion]
      exact .pastEnd hne hend
    · rename_i step hstep
      by_cases hmissing : receiptRequired cfg st = true ∧ stepReceipt cfg st step = none
      · rw [gateStep_of_receiptMissing hs hmissing.1 hmissing.2]
        exact .receiptMissing hstep hmissing.1 hmissing.2
      · have hreceipt : receiptRequired cfg st = true → (stepReceipt cfg st step).isSome := by
          intro hrequired
          exact Option.isSome_iff_ne_none.2 fun hnone => hmissing ⟨hrequired, hnone⟩
        cases hwait : waitingGate cfg st step with
        | some wait =>
          rw [gateStep_of_waits hs hreceipt hwait]
          exact .waits hstep hreceipt hwait
        | none =>
          rw [gateStep_of_pass hreceipt hwait]
          exact runStep_cases hs hstep hreceipt hwait

end Cases

end Trion.TaskLoop
