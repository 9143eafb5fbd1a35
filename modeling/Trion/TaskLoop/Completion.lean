import Trion.TaskLoop.Governor

/-!
# Completion

Whether a run that executed its last step has met its objective: the outcome evaluator
(`outcome_evaluator.py`), the tools a plan still owes evidence for
(`response_intents.unresolved_additional_evidence_tools`) and the completion gate
(`completion_gate.py`).
-/

namespace Trion.TaskLoop

open Trion.Python Trion.Thinking

inductive OutcomeAction where
  | complete | replan | block
deriving DecidableEq, Repr

structure OutcomeDecision where
  action : OutcomeAction
  stopReason : Option StopReason := none
deriving DecidableEq, Repr

namespace OutcomeEvaluator

/-- `_counts_for_required_evidence`. -/
def countsForRequiredEvidence (rt : PyRuntime) (expected : Option String)
    (artifact : EvidenceArtifact) : Bool :=
  let expected := strip (expected.getD "")
  expected ≠ "" &&
    (match PyDict.get artifact.metadata "validated_evidence" with
      | .bool true => true
      | _ => false) &&
    strip ((PyDict.get artifact.metadata "operation_contract_fingerprint").strOr rt "") = expected

/-- `str(metadata.get("exit_code", ""))`. -/
def exitCode (rt : PyRuntime) (artifact : EvidenceArtifact) : String :=
  match artifact.metadata.lookup "exit_code" with
  | some v => v.toStr rt
  | none => ""

/-- `_check_done_when`. -/
def checkDoneWhen (rt : PyRuntime) (doneWhen : String) (stepArtifacts : List EvidenceArtifact) :
    Bool :=
  if doneWhen = "file_created" then
    stepArtifacts.any fun a => a.artifactType = "file_content"
  else if startsWith doneWhen "exit_code:" then
    stepArtifacts.any fun a => exitCode rt a = afterFirst ':' doneWhen
  else if startsWith doneWhen "stdout_contains:" then
    stepArtifacts.any fun a => containsStr a.content (afterFirst ':' doneWhen)
  else if startsWith doneWhen "artifact_type:" then
    stepArtifacts.any fun a => a.artifactType = afterFirst ':' doneWhen
  else false

/-- The artifacts the evaluator attributes to a step: those that carry its id. -/
def stepArtifacts (step : PlanStep) (artifacts : List EvidenceArtifact) : List EvidenceArtifact :=
  artifacts.filter fun a => a.stepId = step.stepId

/-- The evidence types the evaluator counts as present for a step. -/
def collectedTypes (rt : PyRuntime) (expected : Option String) (step : PlanStep)
    (artifacts : List EvidenceArtifact) : List String :=
  ((stepArtifacts step artifacts).filter (countsForRequiredEvidence rt expected)).map
    (·.artifactType)

/-- What the completion of a plan is judged by, apart from the plan and its artifacts. -/
structure Settings where
  rt : PyRuntime
  availableEvidenceTypes : List String := []
  replanBudgetRemaining : Bool := true
  expectedOperationContractFingerprint : Option String := none

/-- A criterion is not met: another plan may meet it, or the budget is spent. -/
def notMet (cfg : Settings) : OutcomeDecision :=
  { action := if cfg.replanBudgetRemaining then .replan else .block
    stopReason := some .objectiveNotMet }

/-- `_evaluate_step`. -/
def evaluateStep (cfg : Settings) (step : PlanStep) (artifacts : List EvidenceArtifact) :
    OutcomeDecision :=
  if step.doneWhen = invalidOperationContractCriterion then
    { action := .block, stopReason := some .objectiveNotMet }
  else if step.doneWhen = "" ∧ step.requiredEvidence = [] then
    { action := .complete }
  else
    let collected :=
      collectedTypes cfg.rt cfg.expectedOperationContractFingerprint step artifacts
    let missing := step.requiredEvidence.filter fun t => !collected.contains t
    if missing ≠ [] then
      -- no registered tool can produce any of the missing types
      if cfg.availableEvidenceTypes ≠ [] ∧
          missing.all (fun t => !cfg.availableEvidenceTypes.contains t) then
        { action := .block, stopReason := some .capabilityGap }
      else notMet cfg
    else if step.doneWhen ≠ "" ∧
        checkDoneWhen cfg.rt step.doneWhen (stepArtifacts step artifacts) = false then
      notMet cfg
    else { action := .complete }

/-- The decision over the steps in plan order: the first that is not complete. -/
def evaluateSteps (cfg : Settings) (artifacts : List EvidenceArtifact) :
    List PlanStep → OutcomeDecision
  | [] => { action := .complete }
  | step :: rest =>
    let decision := evaluateStep cfg step artifacts
    if decision.action ≠ .complete then decision else evaluateSteps cfg artifacts rest

/-- `evaluate`. -/
def evaluate (cfg : Settings) (plan : ThinkingPlan) (artifacts : List EvidenceArtifact) :
    OutcomeDecision :=
  evaluateSteps cfg artifacts plan.steps

end OutcomeEvaluator

/-! ### The completion gate -/

/-- `completed_tool_names`; entries that are no mappings are passed over, and each name is listed
once. -/
def completedToolNames (rt : PyRuntime) (artifacts : List PyVal) : List String :=
  (artifacts.filterMap fun artifact => match artifact with
    | .dict d =>
      if strip ((PyDict.get d "artifact_type").strOr rt "") ≠ "tool_result" then none
      else
        let name := strip (((PyDict.get d "tool").or (PyDict.get d "tool_name")).strOr rt "")
        if name = "" then none else some name
    | _ => none).eraseDups

/-- `unresolved_additional_evidence_tools`. -/
def unresolvedAdditionalEvidenceTools (rt : PyRuntime) (plan : ThinkingPlan)
    (artifacts : List PyVal) : List String :=
  let candidates := match plan.additionalEvidenceNeed with
    | some need => (need.candidateTools.map strip).filter (· ≠ "")
    | none => []
  candidates.filter fun tool => !(completedToolNames rt artifacts).contains tool

/-- The settings of the completion gate throughout a run. -/
structure CompletionSettings where
  rt : PyRuntime
  availableEvidenceTypes : List String := []
  expectedOperationContractFingerprint : Option String := none

/-- The outcome of a plan over the artifacts of a snapshot, as the gate asks for it. -/
def outcomeOf (cfg : CompletionSettings) (plan : ThinkingPlan) (replanAllowed : Bool)
    (evidence : List EvidenceArtifact) : OutcomeDecision :=
  OutcomeEvaluator.evaluate {
    rt := cfg.rt
    availableEvidenceTypes := cfg.availableEvidenceTypes
    replanBudgetRemaining := replanAllowed
    expectedOperationContractFingerprint := cfg.expectedOperationContractFingerprint }
    plan evidence

/-- A result that presents a snapshot. -/
def resultOf (s : TaskLoopSnapshot) (visibleContent : String) (status : CompletionStatus)
    (structuralResults : List (Option PyVal)) : TaskLoopResult :=
  { state := s.state
    stopReason := s.stopReason
    artifacts := s.artifacts
    visibleContent := visibleContent
    snapshot := s
    completionStatus := status
    structuralResults := structuralResults }

/-- The completion gate over an outcome. -/
def finalizeOutcome (outcome : OutcomeDecision) (s : TaskLoopSnapshot)
    (completedStepId : String) (structuralResults : List (Option PyVal)) :
    Except PyError (TaskLoopResult × Option StepExecutionResult) := do
  let reason := outcome.stopReason.getD .objectiveNotMet
  match outcome.action with
  | .complete => return (resultOf s "Task loop completed." .complete structuralResults, none)
  | .replan =>
    let replanSnap ← s.transitionTo .replanning fun t =>
      { t with
        pendingStep := completedStepId
        stopReason := some reason
        replanCount := t.replanCount + 1 }
    let synthetic : StepExecutionResult := {
      stepId := completedStepId
      status := .skipped
      error := some ("objective_not_met:" ++ (outcome.stopReason.map StopReason.value).getD "") }
    return (resultOf replanSnap "Objective not yet met — triggering replanning." .needsReplan
      structuralResults, some synthetic)
  | .block =>
    let blocked ← s.transitionTo .blocked fun t =>
      { t with pendingStep := completedStepId, stopReason := some reason }
    return (resultOf blocked s!"Task loop blocked: {reason.value}." .blocked structuralResults,
      none)

/-- The completion gate when tools still owe evidence. -/
def finalizeMissing (missingTools : List String) (replanDecision : RunGovernorDecision)
    (s : TaskLoopSnapshot) (structuralResults : List (Option PyVal)) :
    Except PyError (TaskLoopResult × Option StepExecutionResult) := do
  let pendingStep := s.completedSteps.getLast?.getD "additional_evidence"
  if !replanDecision.allowed then
    let blocked ← s.transitionTo .blocked fun t =>
      { t with
        pendingStep := pendingStep
        stopReason := some .replanBudgetExhausted
        waitingReason := some replanDecision.reason
        waitingSource := some "run_governor" }
    return (resultOf blocked
      ("Task loop stopped because the replanning budget was exhausted before " ++
        "additional evidence could be gathered.") .blocked structuralResults, none)
  let replanSnapshot ← s.transitionTo .replanning fun t =>
    { t with
      pendingStep := pendingStep
      stopReason := some .additionalEvidenceRequired
      replanCount := t.replanCount + 1 }
  return (resultOf replanSnapshot
    "Additional verified evidence is required before the objective can be completed."
    .needsMoreEvidence structuralResults,
    some {
      stepId := replanSnapshot.pendingStep
      status := .skipped
      error := some ("additional_evidence_needed:" ++ ",".intercalate missingTools) })

/-- `finalize_completion`. -/
def finalizeCompletion (cfg : CompletionSettings) (plan : ThinkingPlan) (s : TaskLoopSnapshot)
    (structuralResults : List (Option PyVal)) (nowTs : ℚ) :
    Except PyError (TaskLoopResult × Option StepExecutionResult) := do
  let missingTools := unresolvedAdditionalEvidenceTools cfg.rt plan s.artifacts
  let completedStepId := s.completedSteps.getLast?.getD ""
  let replanDecision := canReplan (runGovernorFromSnapshot s) nowTs
  if missingTools = [] then
    let evidence ← s.artifacts.mapM (EvidenceArtifact.fromDict cfg.rt)
    finalizeOutcome (outcomeOf cfg plan replanDecision.allowed evidence) s completedStepId
      structuralResults
  else finalizeMissing missingTools replanDecision s structuralResults

/-! ### What the completion gate can do -/

namespace OutcomeEvaluator

lemma replanBudgetRemaining_of_notMet {cfg : Settings} (h : (notMet cfg).action = .replan) :
    cfg.replanBudgetRemaining = true := by
  unfold notMet at h
  split_ifs at h with hbudget
  exact hbudget

/-- The evaluator asks for another plan only while the budget allows one. -/
lemma replanBudgetRemaining_of_evaluateSteps {cfg : Settings} {artifacts : List EvidenceArtifact}
    {steps : List PlanStep} (h : (evaluateSteps cfg artifacts steps).action = .replan) :
    cfg.replanBudgetRemaining = true := by
  induction steps with
  | nil => simp [evaluateSteps] at h
  | cons step rest ih =>
    rw [evaluateSteps] at h
    split at h
    · rw [evaluateStep] at h
      dsimp only at h
      split_ifs at h
      · exact replanBudgetRemaining_of_notMet h
      · exact replanBudgetRemaining_of_notMet h
    · exact ih h

end OutcomeEvaluator

/-- What the completion gate makes of a completed snapshot. -/
inductive Finalized (cfg : CompletionSettings) (plan : ThinkingPlan) (s : TaskLoopSnapshot)
    (structuralResults : List (Option PyVal)) (nowTs : ℚ) :
    TaskLoopResult → Option StepExecutionResult → Prop
  | complete {evidence : List EvidenceArtifact} :
      unresolvedAdditionalEvidenceTools cfg.rt plan s.artifacts = [] →
      s.artifacts.mapM (EvidenceArtifact.fromDict cfg.rt) = .ok evidence →
      (outcomeOf cfg plan (canReplan (runGovernorFromSnapshot s) nowTs).allowed
        evidence).action = .complete →
      Finalized cfg plan s structuralResults nowTs
        (resultOf s "Task loop completed." .complete structuralResults) none
  | replan {pendingStep content : String} {reason : StopReason} {status : CompletionStatus}
      {failure : StepExecutionResult} :
      (canReplan (runGovernorFromSnapshot s) nowTs).allowed = true →
      status ∈ [CompletionStatus.needsReplan, .needsMoreEvidence] →
      Finalized cfg plan s structuralResults nowTs
        (resultOf { s.moveTo .replanning with
          pendingStep := pendingStep, stopReason := some reason,
          replanCount := s.replanCount + 1 } content status structuralResults)
        (some failure)
  | block {pendingStep content : String} {reason : StopReason}
      {waitingReason waitingSource : Option String} :
      Finalized cfg plan s structuralResults nowTs
        (resultOf { s.moveTo .blocked with
          pendingStep := pendingStep, stopReason := some reason,
          waitingReason := waitingReason, waitingSource := waitingSource }
          content .blocked structuralResults)
        none

/-- Reading the artifacts of a snapshot fails in one way only. -/
lemma mapM_fromDict_error {rt : PyRuntime} {artifacts : List PyVal} {e : PyError}
    (h : artifacts.mapM (EvidenceArtifact.fromDict rt) = .error e) : e = .attributeError := by
  induction artifacts with
  | nil => simp [pure, Except.pure] at h
  | cons a rest ih =>
    rw [List.mapM_cons] at h
    cases ha : EvidenceArtifact.fromDict rt a with
    | error e' =>
      rw [ha] at h
      cases a <;> simp_all [EvidenceArtifact.fromDict, bind, Except.bind]
    | ok v =>
      cases hrest : rest.mapM (EvidenceArtifact.fromDict rt) with
      | error e' =>
        obtain rfl : e' = e := by simpa [ha, hrest, bind, Except.bind] using h
        exact ih hrest
      | ok vs => simp [ha, hrest, bind, Except.bind, pure, Except.pure] at h

section Finalize

variable {cfg : CompletionSettings} {plan : ThinkingPlan} {s : TaskLoopSnapshot}
  {structuralResults : List (Option PyVal)} {nowTs : ℚ}

private lemma finalizeOutcome_cases {evidence : List EvidenceArtifact} {completedStepId : String}
    (hs : s.state = .completed)
    (hmissing : unresolvedAdditionalEvidenceTools cfg.rt plan s.artifacts = [])
    (hevidence : s.artifacts.mapM (EvidenceArtifact.fromDict cfg.rt) = .ok evidence) :
    ∃ result failed, finalizeOutcome (outcomeOf cfg plan
        (canReplan (runGovernorFromSnapshot s) nowTs).allowed evidence) s completedStepId
        structuralResults = .ok (result, failed) ∧
      Finalized cfg plan s structuralResults nowTs result failed := by
  generalize houtcome : outcomeOf cfg plan
    (canReplan (runGovernorFromSnapshot s) nowTs).allowed evidence = outcome
  obtain ⟨action, reason⟩ := outcome
  cases action with
  | complete => exact ⟨_, _, rfl, .complete hmissing hevidence (by rw [houtcome])⟩
  | replan =>
    have hallowed : (canReplan (runGovernorFromSnapshot s) nowTs).allowed = true :=
      OutcomeEvaluator.replanBudgetRemaining_of_evaluateSteps (congrArg (·.action) houtcome)
    rw [finalizeOutcome]
    dsimp only
    rw [TaskLoopSnapshot.transitionTo_eq_ok (by simp [hs, allowedTransitions])]
    exact ⟨_, _, rfl, .replan hallowed (by simp)⟩
  | block =>
    rw [finalizeOutcome]
    dsimp only
    rw [TaskLoopSnapshot.transitionTo_eq_ok (by simp [hs, allowedTransitions])]
    exact ⟨_, _, rfl, .block⟩

private lemma finalizeMissing_cases {tools : List String} (hs : s.state = .completed) :
    ∃ result failed, finalizeMissing tools (canReplan (runGovernorFromSnapshot s) nowTs) s
        structuralResults = .ok (result, failed) ∧
      Finalized cfg plan s structuralResults nowTs result failed := by
  rw [finalizeMissing]
  cases hallowed : (canReplan (runGovernorFromSnapshot s) nowTs).allowed with
  | true =>
    rw [if_neg (by simp)]
    rw [TaskLoopSnapshot.transitionTo_eq_ok (by simp [hs, allowedTransitions])]
    exact ⟨_, _, rfl, .replan hallowed (by simp)⟩
  | false =>
    rw [if_pos (by simp)]
    rw [TaskLoopSnapshot.transitionTo_eq_ok (by simp [hs, allowedTransitions])]
    exact ⟨_, _, rfl, .block⟩

/-- The completion gate finishes a completed snapshot, or an artifact that is no mapping
makes it raise. -/
lemma finalizeCompletion_cases (cfg : CompletionSettings) (plan : ThinkingPlan)
    (structuralResults : List (Option PyVal)) (nowTs : ℚ) (hs : s.state = .completed) :
    (∃ result failed,
      finalizeCompletion cfg plan s structuralResults nowTs = .ok (result, failed) ∧
        Finalized cfg plan s structuralResults nowTs result failed) ∨
    (unresolvedAdditionalEvidenceTools cfg.rt plan s.artifacts = [] ∧
      s.artifacts.mapM (EvidenceArtifact.fromDict cfg.rt) = .error .attributeError ∧
      finalizeCompletion cfg plan s structuralResults nowTs = .error .attributeError) := by
  rw [finalizeCompletion]
  by_cases hmissing : unresolvedAdditionalEvidenceTools cfg.rt plan s.artifacts = []
  · rw [if_pos hmissing]
    cases hevidence : s.artifacts.mapM (EvidenceArtifact.fromDict cfg.rt) with
    | ok evidence => exact .inl (finalizeOutcome_cases hs hmissing hevidence)
    | error e =>
      obtain rfl : e = .attributeError := mapM_fromDict_error hevidence
      exact .inr ⟨hmissing, rfl, rfl⟩
  · rw [if_neg hmissing]
    exact .inl (finalizeMissing_cases hs)

end Finalize

end Trion.TaskLoop
