import Trion.Library.StepMachine
import Trion.TaskLoop.Executor
import Trion.TaskLoop.Reflection
import Trion.TaskLoop.ReceiptFlow

/-!
# The execution loop

`execution_runner.py`, `composite_followup.py`, `replanning.py` and `task_loop.py`.  The
two nested loops of the source, over the steps of a plan and over the plans of a run, are
one machine here: a state of it is what the source's local variables hold at the head of
the inner loop, and one step of it is one pass through the inner loop's body, together
with the passage to the next plan where that pass leaves the inner loop.

The callbacks of a run (the tool runner, the replanner, the follow-up planner) and the
clock act on a world of their own, so that what they answer may depend on everything that
happened before.
-/

namespace Trion.TaskLoop

open Trion.Python Trion.Thinking StepMachine

/-! ### Callbacks -/

/-- What the clock shows at the four places where one pass reads it. -/
structure LoopClock where
  stepStart : ℚ
  toolCall : ℚ
  reflection : ℚ
  completion : ℚ

/-- What the replanner is asked with; the objective and the failed step id it is also
given are fields of the snapshot. -/
structure ReplanRequest where
  plan : ThinkingPlan
  failure : StepExecutionResult
  snapshot : TaskLoopSnapshot

/-- What the replanner answers: a plan, a `PlanContractViolation`, or another exception. -/
inductive ReplanReply where
  | plan (replanned : ThinkingPlan)
  | violation (reason : String)
  | raised (error : PyError)

/-- What a run is called with and keeps throughout.  An exception of the follow-up planner
counts as no expansion, so it answers with an option. -/
structure LoopConfig (W : Type) where
  rt : PyRuntime
  toolRunner : W → TaskToolCall → ToolReply × W
  clock : W → LoopClock × W
  replannerFn : Option (W → ReplanRequest → ReplanReply × W) := none
  followupPlanner : Option
    (W → ThinkingPlan → PlanStep → StepExecutionResult → Option ThinkingPlan × W) := none
  defaultTimeoutS : ℚ := 30
  availableEvidenceTypes : List String := []
  toolDetailsByName : Option ToolDetails := none
  operationContractFingerprint : Option String := none
  receiptIssuer : Option ReceiptIssuer := none
  receiptValidatorFactory : Option (ThinkingPlan → Option ReceiptValidator) := none
  receiptMode : Bool := false

/-- The settings of the executor in a run. -/
def LoopConfig.executor {W : Type} (cfg : LoopConfig W) : ExecutorSettings where
  rt := cfg.rt
  defaultTimeoutS := cfg.defaultTimeoutS
  toolDetailsByName := cfg.toolDetailsByName
  operationContractFingerprint := cfg.operationContractFingerprint

/-- The settings of the completion gate in a run. -/
def LoopConfig.completion {W : Type} (cfg : LoopConfig W) : CompletionSettings where
  rt := cfg.rt
  availableEvidenceTypes := cfg.availableEvidenceTypes
  expectedOperationContractFingerprint := cfg.operationContractFingerprint

/-! ### States and events -/

/-- The local variables of the loop at the head of its body. -/
structure LoopState (W : Type) where
  plan : ThinkingPlan
  snapshot : TaskLoopSnapshot
  stepReceipts : Option StepReceipts := none
  receiptValidator : Option ReceiptValidator := none
  approvedStepId : String := ""
  structuralResults : List (Option PyVal) := []
  world : W

/-- An execution of a step: the plan in force, the snapshot it started from, its receipt,
the approval in force and what `execute_step` did. -/
structure Execution where
  plan : ThinkingPlan
  snapshot : TaskLoopSnapshot
  step : PlanStep
  receipt : Option StepOperationReceipt
  approvedStepId : String
  run : StepRun

/-- What a run does to the world around it. -/
inductive LoopEvent where
  | executed (e : Execution)
  | replanned (request : ReplanRequest) (reply : ReplanReply)

/-- How a run ends: with a result or an exception, and with the world it leaves behind. -/
structure LoopEnd (W : Type) where
  outcome : Except PyError TaskLoopResult
  world : W

/-- What one pass through the body of the inner loop leads to. -/
inductive Pass (W : Type) where
  | continue (st : LoopState W)
  | leave (result : TaskLoopResult) (failed : Option StepExecutionResult) (plan : ThinkingPlan)
      (world : W)
  | raise (error : PyError) (world : W)

variable {W : Type}

/-- A pass that may raise in a given world. -/
def Pass.ofExcept (world : W) : Except PyError (Pass W) → Pass W
  | .ok pass => pass
  | .error e => .raise e world

/-! ### Plan expansion -/

/-- The checks a plan from the follow-up planner passes: one step more, the same steps
before it, the same plan id, and step ids that are not empty and not repeated. -/
def isExpansion (plan expanded : ThinkingPlan) : Bool :=
  expanded.steps.length = plan.steps.length + 1 &&
    (stepsEq expanded.steps.dropLast plan.steps && expanded.planId = plan.planId) &&
    (expanded.stepIds.all (· ≠ "") && decide expanded.stepIds.Nodup)

/-- `expanded_plan_after_success`.  The step at the given index is the last object of the
plan exactly when the index is the last one: a plan in which one object stands twice has a
repeated step id, and no expansion of it is accepted. -/
def expandedPlanAfterSuccess (cfg : LoopConfig W) (plan : ThinkingPlan) (index : ℕ)
    (step : PlanStep) (result : StepExecutionResult) (world : W) : Option ThinkingPlan × W :=
  match cfg.followupPlanner with
  | none => (none, world)
  | some planner =>
    if result.status = .success ∧ index + 1 = plan.steps.length then
      let (reply, world') := planner world plan step result
      (reply.filter (isExpansion plan), world')
    else (none, world)

/-! ### One pass -/

/-- `_append_completed`. -/
def appendCompleted (s : TaskLoopSnapshot) (stepId : String) : List String :=
  if stepId ∈ s.completedSteps then s.completedSteps else s.completedSteps ++ [stepId]

/-- The updates every execution makes, wherever the loop goes next. -/
@[simps]
def recordExecution (result : StepExecutionResult) (decision : ReflectionDecision)
    (s : TaskLoopSnapshot) : TaskLoopSnapshot :=
  { s with
    artifacts := s.artifacts ++ result.artifacts
    retryCounts := decision.retryCounts
    progressSignature := decision.progressSignature
    noProgressCount := decision.noProgressCount
    errorCount := s.errorCount + if result.status = .success then 0 else 1
    toolCalls := s.toolCalls + if result.toolCallStarted then 1 else 0
    stepOperationExecutions := appendExecution s result }

@[simp] lemma recordExecution_settings (result : StepExecutionResult)
    (decision : ReflectionDecision) (s : TaskLoopSnapshot) :
    (recordExecution result decision s).settings = s.settings := rfl

/-- The step is done: the next index is executed next. -/
@[simps]
def advanceSnapshot (step : PlanStep) (s : TaskLoopSnapshot) : TaskLoopSnapshot :=
  { s with
    currentStepIndex := s.currentStepIndex + 1
    completedSteps := appendCompleted s step.stepId
    pendingStep := "" }

@[simp] lemma advanceSnapshot_settings (step : PlanStep) (s : TaskLoopSnapshot) :
    (advanceSnapshot step s).settings = s.settings := rfl

/-- The step is tried again. -/
@[simps]
def retrySnapshot (step : PlanStep) (s : TaskLoopSnapshot) : TaskLoopSnapshot :=
  { s with pendingStep := step.stepId }

@[simp] lemma retrySnapshot_settings (step : PlanStep) (s : TaskLoopSnapshot) :
    (retrySnapshot step s).settings = s.settings := rfl

/-- The state in which a decision other than to continue ends the pass. -/
def targetState : ReflectionAction → TaskLoopState
  | .waiting => .waiting
  | .replan => .replanning
  | .block => .blocked
  | _ => .completed

/-- The updates of a pass that ends the plan's execution. -/
@[simps]
def finalSnapshot (step : PlanStep) (decision : ReflectionDecision) (s : TaskLoopSnapshot) :
    TaskLoopSnapshot :=
  { s with
    currentStepIndex := s.currentStepIndex + if decision.action = .completed then 1 else 0
    replanCount := s.replanCount + if decision.action = .replan then 1 else 0
    completedSteps := if decision.action = .completed then appendCompleted s step.stepId
      else s.completedSteps
    pendingStep := if decision.action = .completed then "" else step.stepId
    stopReason := decision.stopReason
    waitingReason := decision.waitingReason
    waitingSource := decision.waitingSource }

@[simp] lemma finalSnapshot_settings (step : PlanStep) (decision : ReflectionDecision)
    (s : TaskLoopSnapshot) :
    (finalSnapshot step decision s).settings = s.settings := rfl

/-- What the gates before a step decide. -/
inductive GateDecision where
  | leave (result : TaskLoopResult)
  | pass (receipt : Option StepOperationReceipt)

/-- The receipt a step runs under. -/
def stepReceipt (cfg : LoopConfig W) (st : LoopState W) (step : PlanStep) :
    Option StepOperationReceipt :=
  receiptForStep step st.plan st.snapshot st.stepReceipts cfg.receiptIssuer st.receiptValidator

/-- A step of this state may only run under a receipt. -/
def receiptRequired (cfg : LoopConfig W) (st : LoopState W) : Bool :=
  receiptProtocolActive cfg.receiptMode st.stepReceipts st.snapshot cfg.receiptIssuer
    st.receiptValidator

/-- The wait a step needs under the approval in force. -/
def waitingGate (cfg : LoopConfig W) (st : LoopState W) (step : PlanStep) :
    Option (StopReason × String × String) :=
  if step.stepId = st.approvedStepId then none else requiresWaiting cfg.rt step st.snapshot

/-- The receipt gate and the approval gate. -/
def gateStep (cfg : LoopConfig W) (st : LoopState W) (step : PlanStep) :
    Except PyError GateDecision := do
  let receipt := stepReceipt cfg st step
  if receiptRequired cfg st && receipt.isNone then
    return .leave (← receiptBlocked st.snapshot step st.structuralResults)
  match waitingGate cfg st step with
  | some (stopReason, waitingReason, waitingSource) =>
    let waiting ← st.snapshot.transitionTo .waiting fun t =>
      { t with
        pendingStep := step.stepId
        stopReason := some stopReason
        waitingReason := some waitingReason
        waitingSource := some waitingSource }
    return .leave (resultOf waiting s!"Approval required before step '{step.title}' can run."
      .waiting st.structuralResults)
  | none => return .pass receipt

/-- The plan's execution ends with a decision that is not to continue. -/
def endExecution (cfg : LoopConfig W) (plan : ThinkingPlan) (step : PlanStep)
    (result : StepExecutionResult) (decision : ReflectionDecision) (reflected : TaskLoopSnapshot)
    (structuralResults : List (Option PyVal)) (nowTs : ℚ) (world : W) :
    Except PyError (Pass W) := do
  let final ← reflected.transitionTo (targetState decision.action) fun t =>
    recordExecution result decision (finalSnapshot step decision t)
  if decision.action = .completed then
    let (completed, failed) ← finalizeCompletion cfg.completion plan final structuralResults nowTs
    return .leave completed failed plan world
  return .leave (resultOf final (visibleContentFor final.state step.title final.stopReason)
    (completionStatusFor final.state) structuralResults) (some result) plan world

/-- From the reflection's decision to the end of the loop's body.  The plan is expanded
before the decision is acted on. -/
def actOnDecision (cfg : LoopConfig W) (st : LoopState W) (step : PlanStep)
    (result : StepExecutionResult) (decision : ReflectionDecision) (reflected : TaskLoopSnapshot)
    (expanded : Option ThinkingPlan) (nowTs : ℚ) : Except PyError (Pass W) := do
  match expanded with
  | some plan =>
    let working ← reflected.transitionTo .executing fun t =>
      recordExecution result decision (advanceSnapshot step t)
    return .continue { st with
      plan := plan
      snapshot := working
      receiptValidator := match cfg.receiptValidatorFactory with
        | some factory => factory plan
        | none => st.receiptValidator }
  | none =>
    if decision.action = .continue ∧ result.status = .success then
      let working ← reflected.transitionTo .executing fun t =>
        recordExecution result decision (advanceSnapshot step t)
      return .continue { st with snapshot := working }
    else if decision.action = .continue then
      let working ← reflected.transitionTo .executing fun t =>
        recordExecution result decision (retrySnapshot step t)
      return .continue { st with snapshot := working }
    else
      endExecution cfg st.plan step result decision reflected st.structuralResults nowTs st.world

/-- From the result of `execute_step` to the end of the loop's body. -/
def settleStep (cfg : LoopConfig W) (st : LoopState W) (step : PlanStep)
    (started : TaskLoopSnapshot) (result : StepExecutionResult) (clock : LoopClock) : Pass W :=
  match started.transitionTo .reflecting with
  | .error e => .raise e st.world
  | .ok reflected =>
    let structuralResults := if result.status = .success then
      st.structuralResults ++ [result.structuralResult] else st.structuralResults
    let decision :=
      Reflection.evaluate cfg.rt result reflected st.plan.steps.length clock.reflection
    let (expanded, world) := expandedPlanAfterSuccess cfg st.plan reflected.currentStepIndex step
      result st.world
    .ofExcept world (actOnDecision cfg
      { st with structuralResults := structuralResults, world := world } step result decision
      reflected expanded clock.completion)

/-- What the clock shows in the pass. -/
def passClock (cfg : LoopConfig W) (st : LoopState W) : LoopClock := (cfg.clock st.world).1

/-- What `execute_step` does once the step has started, and the world it leaves. -/
def executeStarted (cfg : LoopConfig W) (st : LoopState W) (step : PlanStep)
    (receipt : Option StepOperationReceipt) (started : TaskLoopSnapshot) : StepRun × W :=
  executeStep cfg.executor cfg.toolRunner (cfg.clock st.world).2 step started receipt
    (passClock cfg st).toolCall

/-- The pass through the body of the loop from a started step on. -/
def runStarted (cfg : LoopConfig W) (st : LoopState W) (step : PlanStep)
    (receipt : Option StepOperationReceipt) (started : TaskLoopSnapshot) :
    List LoopEvent × Pass W :=
  let run := executeStarted cfg st step receipt started
  let event := LoopEvent.executed {
    plan := st.plan, snapshot := started, step := step, receipt := receipt,
    approvedStepId := st.approvedStepId, run := run.1 }
  match run.1.outcome with
  | .error e => ([event], .raise e run.2)
  | .ok result =>
    ([event], settleStep cfg { st with world := run.2 } step started result (passClock cfg st))

/-- The pass through the body of the loop for a step that the gates let through. -/
def runStep (cfg : LoopConfig W) (st : LoopState W) (step : PlanStep)
    (receipt : Option StepOperationReceipt) : List LoopEvent × Pass W :=
  match startGovernedStep st.snapshot step.stepId step.title st.structuralResults
      (passClock cfg st).stepStart with
  | .error e => ([], .raise e (cfg.clock st.world).2)
  | .ok (.blocked result) => ([], .leave result none st.plan (cfg.clock st.world).2)
  | .ok (.started started) => runStarted cfg st step receipt started

/-- One pass of `_execute_with_reflection`. -/
def executeWithReflection (cfg : LoopConfig W) (st : LoopState W) : List LoopEvent × Pass W :=
  if st.plan.steps = [] then
    ([], .ofExcept st.world do
      let completed ← st.snapshot.transitionTo .completed fun t =>
        { t with pendingStep := "", stopReason := none }
      return .leave (resultOf completed "Task loop completed." .complete []) none st.plan st.world)
  else
    match st.plan.steps[st.snapshot.currentStepIndex]? with
    | none =>
      let (clock, world) := cfg.clock st.world
      ([], .ofExcept world do
        let completed ← st.snapshot.transitionTo .completed fun t =>
          { t with pendingStep := "", stopReason := none }
        let (result, failed) ← finalizeCompletion cfg.completion st.plan completed
          st.structuralResults clock.completion
        return .leave result failed st.plan world)
    | some step =>
      match gateStep cfg st step with
      | .error e => ([], .raise e st.world)
      | .ok (.leave result) => ([], .leave result none st.plan st.world)
      | .ok (.pass receipt) => runStep cfg st step receipt

/-! ### From one plan to the next -/

/-- `blocked_replan_result`. -/
def blockedReplanResult (s : TaskLoopSnapshot) (reason : String)
    (structuralResults : List (Option PyVal)) : Except PyError TaskLoopResult := do
  let blocked ← s.transitionTo .blocked fun t =>
    { t with
      stopReason := some .capabilityGap
      waitingReason := some reason
      waitingSource := some "plan_contract_validator" }
  return resultOf blocked "Task loop blocked by plan contract validator." .incomplete
    structuralResults

/-- The updates of a snapshot that passes to a replanned plan. -/
@[simps]
def resetSnapshot (plan : ThinkingPlan) (s : TaskLoopSnapshot) : TaskLoopSnapshot :=
  { s with
    planId := orElse plan.planId s.planId
    currentStepIndex := 0
    completedSteps := []
    stepOperationExecutions := []
    pendingStep := ""
    stopReason := none
    waitingReason := none
    waitingSource := none
    retryCounts := []
    progressSignature := ""
    noProgressCount := 0 }

@[simp] lemma resetSnapshot_settings (plan : ThinkingPlan) (s : TaskLoopSnapshot) :
    (resetSnapshot plan s).settings = s.settings := rfl

/-- `reset_for_replanned_plan`. -/
def resetForReplannedPlan (s : TaskLoopSnapshot) (plan : ThinkingPlan) :
    Except PyError TaskLoopSnapshot :=
  s.transitionTo .executing (resetSnapshot plan)

/-- The state in which a replanned plan is taken up. -/
def epochState (cfg : LoopConfig W) (plan : ThinkingPlan) (s : TaskLoopSnapshot) (world : W) :
    LoopState W where
  plan := plan
  snapshot := s
  stepReceipts := if cfg.receiptMode then some [] else none
  receiptValidator :=
    if cfg.receiptMode then cfg.receiptValidatorFactory.bind fun factory => factory plan else none
  world := world

/-- What follows from the replanner's answer. -/
def adoptReply (cfg : LoopConfig W) (plan : ThinkingPlan) (result : TaskLoopResult) (world : W) :
    ReplanReply → Outcome (LoopState W) (LoopEnd W)
  | .raised e => .halt { outcome := .error e, world := world }
  | .violation reason => .halt {
      outcome := do
        let blocked ← blockedReplanResult result.snapshot reason result.structuralResults
        return { blocked with activePlan := some plan }
      world := world }
  | .plan replanned =>
    if !replanned.needsTaskLoop then .halt {
      outcome := do
        let completed ← result.snapshot.transitionTo .completed (resetSnapshot replanned)
        return { resultOf completed "Task loop completed." .incomplete [] with
          activePlan := some replanned }
      world := world }
    else match resetForReplannedPlan result.snapshot replanned with
      | .error e => .halt { outcome := .error e, world := world }
      | .ok epoch => .next (epochState cfg replanned epoch world)

/-- The body of `run_with_replanning` after a plan's execution. -/
def leaveEpoch (cfg : LoopConfig W) (result : TaskLoopResult) (failed : Option StepExecutionResult)
    (plan : ThinkingPlan) (world : W) : List LoopEvent × Outcome (LoopState W) (LoopEnd W) :=
  match cfg.replannerFn, failed with
  | some replanner, some failure =>
    if result.state = .replanning then
      let request := { plan := plan, failure := failure, snapshot := result.snapshot }
      let (reply, world') := replanner world request
      ([.replanned request reply], adoptReply cfg plan result world' reply)
    else ([], .halt { outcome := .ok { result with activePlan := some plan }, world := world })
  | _, _ => ([], .halt { outcome := .ok { result with activePlan := some plan }, world := world })

/-- `run_with_replanning`, one pass of its inner loop at a time. -/
def loopStep (cfg : LoopConfig W) : Machine (LoopState W) LoopEvent (LoopEnd W) := fun st =>
  match executeWithReflection cfg st with
  | (events, .continue st') => (events, .next st')
  | (events, .leave result failed plan world) =>
    let (more, outcome) := leaveEpoch cfg result failed plan world
    (events ++ more, outcome)
  | (events, .raise e world) => (events, .halt { outcome := .error e, world := world })

/-! ### Starting and continuing -/

/-- The arguments of `start_task_loop` that a run reads once, with their defaults. -/
structure StartOptions where
  conversationId : String
  objective : Option String := none
  maxSteps : ℤ := 10
  maxRetriesPerStep : ℤ := 1
  maxReplans : ℤ := 2
  loopDetectionEnabled : Bool := true
  noProgressThreshold : ℤ := 3
  approvalMode : String := "risk_based"
  failureEscalation : String := "replan"
  approvalRequiredTools : List String := []
  stepReceipts : Option StepReceipts := none
  receiptValidator : Option ReceiptValidator := none

/-- `_resolve_objective`. -/
def resolveObjective (rt : PyRuntime) (plan : ThinkingPlan) (objective : Option String) : String :=
  let given := strip (objective.getD "")
  let hinted := strip (((plan.contextHints.lookup "user_text").map (PyVal.toStr rt)).getD "")
  orElse given (orElse hinted plan.intent)

/-- The snapshot a run starts from. -/
def startSnapshot (rt : PyRuntime) (plan : ThinkingPlan) (options : StartOptions) :
    TaskLoopSnapshot where
  planId := orElse plan.planId "task-loop"
  conversationId := options.conversationId
  objective := resolveObjective rt plan options.objective
  state := .executing
  currentStepIndex := 0
  maxSteps := options.maxSteps
  maxRetriesPerStep := options.maxRetriesPerStep
  maxReplans := options.maxReplans
  loopDetectionEnabled := options.loopDetectionEnabled
  noProgressThreshold := options.noProgressThreshold
  approvalMode := options.approvalMode
  failureEscalation := options.failureEscalation
  approvalRequiredTools := options.approvalRequiredTools

/-- `start_task_loop` up to its call of `run_with_replanning`. -/
def startTaskLoop (rt : PyRuntime) (plan : ThinkingPlan) (options : StartOptions) (world : W) :
    LoopState W where
  plan := plan
  snapshot := startSnapshot rt plan options
  stepReceipts := options.stepReceipts
  receiptValidator := options.receiptValidator
  world := world

/-- `_resume_index`. -/
def resumeIndex (s : TaskLoopSnapshot) (totalSteps : ℕ) : ℕ :=
  if s.stopReason = some .riskGateRequired then min s.currentStepIndex totalSteps
  else min (s.currentStepIndex + 1) totalSteps

/-- The updates of a snapshot that resumes at an index. -/
@[simps]
def resumeSnapshot (index : ℕ) (s : TaskLoopSnapshot) : TaskLoopSnapshot :=
  { s with
    currentStepIndex := index
    pendingStep := ""
    stopReason := none
    waitingReason := none
    waitingSource := none }

@[simp] lemma resumeSnapshot_settings (index : ℕ) (s : TaskLoopSnapshot) :
    (resumeSnapshot index s).settings = s.settings := rfl

/-- The words that cancel a waiting run. -/
def cancelWords : List String := ["cancel", "stop", "abort", "abbrechen"]

/-- What `continue_task_loop` does with a snapshot: it returns at once, or it resumes. -/
inductive Continuation (W : Type) where
  | finished (outcome : Except PyError TaskLoopResult)
  | resumed (st : LoopState W)

/-- `continue_task_loop` up to its call of `run_with_replanning`. -/
def continueTaskLoop (rt : PyRuntime) (s : TaskLoopSnapshot) (userText : String)
    (plan : ThinkingPlan) (stepReceipts : Option StepReceipts)
    (receiptValidator : Option ReceiptValidator) (world : W) : Continuation W :=
  if s.state ≠ .waiting then
    .finished (.error (.valueError "continue_task_loop requires a WAITING snapshot"))
  else if rt.lower (strip userText) ∈ cancelWords then
    .finished do
      let cancelled ← s.transitionTo .cancelled fun t =>
        { t with stopReason := some .userCancelled }
      return resultOf cancelled "Task loop cancelled by user." .incomplete []
  else
    match s.transitionTo .executing (resumeSnapshot (resumeIndex s plan.steps.length)) with
    | .error e => .finished (.error e)
    | .ok resumed => .resumed {
        plan := plan
        snapshot := resumed
        stepReceipts := stepReceipts
        receiptValidator := receiptValidator
        approvedStepId :=
          if s.stopReason = some .riskGateRequired then s.pendingStep else ""
        world := world }

/-- What a run that `continue_task_loop` resumes is configured with: the function takes no
evidence types, so the run has none. -/
def LoopConfig.continued (cfg : LoopConfig W) : LoopConfig W :=
  { cfg with availableEvidenceTypes := [] }

end Trion.TaskLoop
