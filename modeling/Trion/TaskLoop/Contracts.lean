import Mathlib.Tactic.Simps.Basic
import Trion.Thinking.Contracts

/-!
# The data of the task loop

States, stop reasons, snapshots, results and receipts: `core/task_loop/contracts.py`,
`step_operation_receipt.py` and `tool_execution_contracts.py`.  Counters that start at
zero and are only ever incremented are natural numbers; the configured bounds are
integers, as the caller passes them.
-/

namespace Trion.TaskLoop

open Trion.Python Trion.Thinking

inductive TaskLoopState where
  | executing | reflecting | replanning | completed | waiting | blocked | cancelled
deriving DecidableEq, Repr

def TaskLoopState.value : TaskLoopState → String
  | .executing => "executing"
  | .reflecting => "reflecting"
  | .replanning => "replanning"
  | .completed => "completed"
  | .waiting => "waiting"
  | .blocked => "blocked"
  | .cancelled => "cancelled"

inductive StopReason where
  | maxStepsReached | stepFailed | additionalEvidenceRequired | replanBudgetExhausted
  | failureAbortPolicy | riskGateRequired | userDecisionNeeded | noProgress | userCancelled
  | objectiveNotMet | capabilityGap
deriving DecidableEq, Repr

def StopReason.value : StopReason → String
  | .maxStepsReached => "max_steps_reached"
  | .stepFailed => "step_failed"
  | .additionalEvidenceRequired => "additional_evidence_required"
  | .replanBudgetExhausted => "replan_budget_exhausted"
  | .failureAbortPolicy => "failure_abort_policy"
  | .riskGateRequired => "risk_gate_required"
  | .userDecisionNeeded => "user_decision_needed"
  | .noProgress => "no_progress"
  | .userCancelled => "user_cancelled"
  | .objectiveNotMet => "objective_not_met"
  | .capabilityGap => "capability_gap"

inductive StepExecutionStatus where
  | success | failed | timeout | skipped
deriving DecidableEq, Repr

def StepExecutionStatus.value : StepExecutionStatus → String
  | .success => "success"
  | .failed => "failed"
  | .timeout => "timeout"
  | .skipped => "skipped"

inductive CompletionStatus where
  | complete | needsReplan | needsMoreEvidence | waiting | blocked | cancelled | incomplete
deriving DecidableEq, Repr

/-- `ALLOWED_TRANSITIONS`. -/
def allowedTransitions : List (TaskLoopState × TaskLoopState) :=
  [(.executing, .reflecting), (.executing, .waiting), (.executing, .blocked),
    (.executing, .cancelled), (.reflecting, .executing), (.reflecting, .replanning),
    (.reflecting, .completed), (.reflecting, .waiting), (.reflecting, .blocked),
    (.replanning, .executing), (.replanning, .completed), (.replanning, .blocked),
    (.completed, .replanning), (.completed, .blocked), (.waiting, .executing),
    (.waiting, .cancelled)]

/-! ### Evidence artifacts -/

/-- A typed artifact of an executed step. -/
structure EvidenceArtifact where
  stepId : String
  artifactType : String
  content : String := ""
  metadata : PyDict := []
deriving Repr

/-- `_artifact_metadata`: the `metadata` mapping with one level of nesting resolved, or
every key that is not part of the artifact's own shape. -/
def artifactMetadata (d : PyDict) : PyDict :=
  match PyDict.get d "metadata" with
  | .dict raw =>
    let flat := PyDict.without raw ["metadata"]
    if !flat.isEmpty then flat
    else match PyDict.get raw "metadata" with
      | .dict nested => nested
      | _ => []
  | _ => PyDict.without d
      ["source_step_id", "step_id", "artifact_type", "result", "output", "content"]

/-- `EvidenceArtifact.from_dict`, which raises on anything but a mapping. -/
def EvidenceArtifact.fromDict (rt : PyRuntime) : PyVal → Except PyError EvidenceArtifact
  | .dict d => .ok {
      stepId := ((PyDict.get d "source_step_id").or (PyDict.get d "step_id")).strOr rt ""
      artifactType := (PyDict.get d "artifact_type").strOr rt "tool_result"
      content := (((PyDict.get d "result").or (PyDict.get d "output")).or
        (PyDict.get d "content")).strOr rt ""
      metadata := artifactMetadata d }
  | _ => .error .attributeError

/-! ### Receipts -/

/-- `StepOperationReceipt`. -/
structure StepOperationReceipt where
  stepId : String
  operation : String
  operationContractFingerprint : String
  scopePreserved : Bool
deriving DecidableEq, Repr

/-- A persisted receipt with the executor's actual status. -/
structure StepOperationExecution where
  receipt : StepOperationReceipt
  status : StepExecutionStatus
deriving DecidableEq, Repr

/-- The plan position handed to a receipt validator. -/
structure ReceiptValidationContext where
  planStepIds : List String
  currentStepIndex : ℕ
  completedSteps : List String
  executions : List StepOperationExecution
  currentStepId : Option String
deriving DecidableEq, Repr

abbrev ReceiptIssuer := PlanStep → Option StepOperationExecution → Option StepOperationReceipt

abbrev ReceiptValidator :=
  PlanStep → StepOperationReceipt → ReceiptValidationContext → Option StepOperationReceipt

/-! ### Tool calls and tool results -/

structure TaskToolCall where
  toolName : String
  arguments : PyDict := []
  stepId : String := ""
  timeoutS : PyFloat := .finite 30
  outputSchema : Option PyDict := none
deriving Repr

inductive TaskToolResultStatus where
  | successMissing | successEmpty | successValue
  | toolFailure | protocolFailure | transportFailure
deriving DecidableEq, Repr

inductive TaskStructuralValidationStatus where
  | missing | unverified | valid | invalid
deriving DecidableEq, Repr

/-- `TaskToolResult`; its constructor rejects a validation status that contradicts the
presence of a structural result. -/
structure TaskToolResult where
  status : TaskToolResultStatus
  result : PyDict := []
  error : Option String := none
  structuralResult : Option PyVal := none
  structuralValidationStatus : TaskStructuralValidationStatus := .missing
  missing_iff : structuralValidationStatus = .missing ↔ structuralResult = none := by decide
deriving Repr

/-- `TaskToolResult.success`. -/
def TaskToolResult.success (r : TaskToolResult) : Bool :=
  r.status ∈ [.successMissing, .successEmpty, .successValue]

/-- What a tool runner answers: it raises, with `str(exc)`, or returns a result. -/
inductive ToolReply where
  | raised (message : String)
  | returned (result : TaskToolResult)
deriving Repr

/-- The outcome of one executed step. -/
structure StepExecutionResult where
  stepId : String
  status : StepExecutionStatus
  output : PyDict := []
  error : Option String := none
  artifacts : List PyVal := []
  toolCallStarted : Bool := false
  receipt : Option StepOperationReceipt := none
  structuralResult : Option PyVal := none
deriving Repr

/-! ### Snapshots and results -/

structure TaskLoopSnapshot where
  planId : String
  conversationId : String
  objective : String
  state : TaskLoopState
  currentStepIndex : ℕ
  maxSteps : ℤ
  maxRetriesPerStep : ℤ
  totalSteps : ℕ := 0
  toolCalls : ℕ := 0
  maxTotalSteps : Option ℤ := none
  maxToolCalls : Option ℤ := none
  deadlineTs : Option PyFloat := none
  replanCount : ℕ := 0
  maxReplans : ℤ := 0
  loopDetectionEnabled : Bool := true
  noProgressThreshold : ℤ := 3
  approvalMode : String := "risk_based"
  failureEscalation : String := "replan"
  approvalRequiredTools : List String := []
  completedSteps : List String := []
  pendingStep : String := ""
  artifacts : List PyVal := []
  stopReason : Option StopReason := none
  waitingReason : Option String := none
  waitingSource : Option String := none
  errorCount : ℕ := 0
  retryCounts : List (String × ℕ) := []
  progressSignature : String := ""
  noProgressCount : ℕ := 0
  previousState : Option TaskLoopState := none
  stepOperationExecutions : List StepOperationExecution := []
deriving Repr

/-- The arguments of `start_task_loop` that a snapshot carries unchanged. -/
structure SnapshotSettings where
  conversationId : String
  objective : String
  maxSteps : ℤ
  maxRetriesPerStep : ℤ
  maxTotalSteps : Option ℤ
  maxToolCalls : Option ℤ
  deadlineTs : Option PyFloat
  maxReplans : ℤ
  loopDetectionEnabled : Bool
  noProgressThreshold : ℤ
  approvalMode : String
  failureEscalation : String
  approvalRequiredTools : List String

/-- The settings of a snapshot. -/
def TaskLoopSnapshot.settings (s : TaskLoopSnapshot) : SnapshotSettings where
  conversationId := s.conversationId
  objective := s.objective
  maxSteps := s.maxSteps
  maxRetriesPerStep := s.maxRetriesPerStep
  maxTotalSteps := s.maxTotalSteps
  maxToolCalls := s.maxToolCalls
  deadlineTs := s.deadlineTs
  maxReplans := s.maxReplans
  loopDetectionEnabled := s.loopDetectionEnabled
  noProgressThreshold := s.noProgressThreshold
  approvalMode := s.approvalMode
  failureEscalation := s.failureEscalation
  approvalRequiredTools := s.approvalRequiredTools

/-- `can_transition_to`. -/
def TaskLoopSnapshot.canTransitionTo (s : TaskLoopSnapshot) (next : TaskLoopState) : Bool :=
  allowedTransitions.contains (s.state, next)

/-- The snapshot in its next state, which remembers the state it came from. -/
@[simps]
def TaskLoopSnapshot.moveTo (s : TaskLoopSnapshot) (next : TaskLoopState) : TaskLoopSnapshot :=
  { s with state := next, previousState := some s.state }

@[simp] lemma TaskLoopSnapshot.moveTo_settings (s : TaskLoopSnapshot) (next : TaskLoopState) :
    (s.moveTo next).settings = s.settings := rfl

/-- `transition_to`; the updates are applied to the snapshot in its new state. -/
def TaskLoopSnapshot.transitionTo (s : TaskLoopSnapshot) (next : TaskLoopState)
    (updates : TaskLoopSnapshot → TaskLoopSnapshot := id) : Except PyError TaskLoopSnapshot :=
  if s.canTransitionTo next then .ok (updates (s.moveTo next))
  else
    .error (.valueError
      s!"Invalid task loop transition: {s.state.value} -> {next.value}")

structure TaskLoopResult where
  state : TaskLoopState
  stopReason : Option StopReason
  artifacts : List PyVal
  visibleContent : String
  snapshot : TaskLoopSnapshot
  completionStatus : CompletionStatus := .incomplete
  activePlan : Option ThinkingPlan := none
  structuralResults : List (Option PyVal) := []
deriving Repr

/-- A transition the table allows is carried out. -/
lemma TaskLoopSnapshot.transitionTo_eq_ok {s : TaskLoopSnapshot} {next : TaskLoopState}
    (h : (s.state, next) ∈ allowedTransitions) (updates : TaskLoopSnapshot → TaskLoopSnapshot) :
    s.transitionTo next updates = .ok (updates (s.moveTo next)) := by
  rw [transitionTo, canTransitionTo, if_pos (List.contains_iff_mem.2 h)]

/-- A transition the table does not allow raises. -/
lemma TaskLoopSnapshot.transitionTo_eq_error {s : TaskLoopSnapshot} {next : TaskLoopState}
    (h : (s.state, next) ∉ allowedTransitions) (updates : TaskLoopSnapshot → TaskLoopSnapshot) :
    s.transitionTo next updates = .error (.valueError
      s!"Invalid task loop transition: {s.state.value} -> {next.value}") := by
  rw [transitionTo, canTransitionTo, if_neg (by simpa using h)]

end Trion.TaskLoop
