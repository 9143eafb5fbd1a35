import Trion.Python.Json
import Trion.TaskLoop.Contracts

/-!
# Plans and snapshots as dictionaries

`task_resume_serialization.py` with `contract_dict`: the fields of a record in the order of its
declaration, enumerations by their values.  A number that the source types as a float is a
rational here and is written as a float.
-/

namespace Trion.TaskResume

open Trion.Python Trion.Thinking Trion.TaskLoop

/-- A list of strings. -/
def strings (values : List String) : PyVal := .list (values.map .str)

/-- A value that may be missing. -/
def optional {α : Type} (write : α → PyVal) : Option α → PyVal
  | none => .none
  | some a => write a

/-- A rational as a float. -/
def floatOf (x : PyFloat) : PyVal := .float x

/-! ### Plans -/

def stepToDict (step : PlanStep) : PyDict :=
  [("step_id", .str step.stepId), ("title", .str step.title), ("goal", .str step.goal),
    ("tool", optional .str step.tool), ("tool_arguments", .dict step.toolArguments),
    ("timeout_s", optional floatOf step.timeoutS), ("risk", .str step.risk.value),
    ("done_when", .str step.doneWhen), ("required_evidence", strings step.requiredEvidence)]

def projectionToDict (p : ResponseProjection) : PyDict := [("kind", .str p.kind)]

def derivationToDict (d : ResponseDerivation) : PyDict :=
  [("kind", .str d.kind), ("seconds", .int d.seconds)]

def evidenceNeedToDict (need : AdditionalEvidenceNeed) : PyDict :=
  [("kind", .str need.kind), ("reason", .str need.reason),
    ("candidate_tools", strings need.candidateTools)]

/-- `plan_to_dict`. -/
def planToDict (plan : ThinkingPlan) : PyDict :=
  [("intent", .str plan.intent),
    ("steps", .list (plan.steps.map fun step => .dict (stepToDict step))),
    ("needs_task_loop", .bool plan.needsTaskLoop),
    ("risk_level", .str plan.riskLevel.value), ("reasoning", .str plan.reasoning),
    ("suggested_tools", strings plan.suggestedTools),
    ("context_hints", .dict plan.contextHints), ("plan_id", .str plan.planId),
    ("response_projection",
      optional (fun p => .dict (projectionToDict p)) plan.responseProjection),
    ("response_derivation",
      optional (fun d => .dict (derivationToDict d)) plan.responseDerivation),
    ("additional_evidence_need",
      optional (fun n => .dict (evidenceNeedToDict n)) plan.additionalEvidenceNeed)]

/-! ### Snapshots -/

def receiptToDict (receipt : StepOperationReceipt) : PyDict :=
  [("step_id", .str receipt.stepId), ("operation", .str receipt.operation),
    ("operation_contract_fingerprint", .str receipt.operationContractFingerprint),
    ("scope_preserved", .bool receipt.scopePreserved)]

def executionToDict (execution : StepOperationExecution) : PyDict :=
  [("receipt", .dict (receiptToDict execution.receipt)),
    ("status", .str execution.status.value)]

/-- `snapshot_to_dict`. -/
def snapshotToDict (s : TaskLoopSnapshot) : PyDict :=
  [("plan_id", .str s.planId), ("conversation_id", .str s.conversationId),
    ("objective", .str s.objective), ("state", .str s.state.value),
    ("current_step_index", .int s.currentStepIndex), ("max_steps", .int s.maxSteps),
    ("max_retries_per_step", .int s.maxRetriesPerStep), ("total_steps", .int s.totalSteps),
    ("tool_calls", .int s.toolCalls), ("max_total_steps", optional .int s.maxTotalSteps),
    ("max_tool_calls", optional .int s.maxToolCalls),
    ("deadline_ts", optional floatOf s.deadlineTs), ("replan_count", .int s.replanCount),
    ("max_replans", .int s.maxReplans), ("loop_detection_enabled", .bool s.loopDetectionEnabled),
    ("no_progress_threshold", .int s.noProgressThreshold),
    ("approval_mode", .str s.approvalMode), ("failure_escalation", .str s.failureEscalation),
    ("approval_required_tools", strings s.approvalRequiredTools),
    ("completed_steps", strings s.completedSteps), ("pending_step", .str s.pendingStep),
    ("artifacts", .list s.artifacts),
    ("stop_reason", optional (fun reason => .str reason.value) s.stopReason),
    ("waiting_reason", optional .str s.waitingReason),
    ("waiting_source", optional .str s.waitingSource), ("error_count", .int s.errorCount),
    ("retry_counts", .dict (s.retryCounts.map fun e => (e.1, .int e.2))),
    ("progress_signature", .str s.progressSignature),
    ("no_progress_count", .int s.noProgressCount),
    ("previous_state", optional (fun state => .str state.value) s.previousState),
    ("step_operation_executions",
      .list (s.stepOperationExecutions.map fun e => .dict (executionToDict e)))]

end Trion.TaskResume
