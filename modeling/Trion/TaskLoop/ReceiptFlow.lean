import Trion.TaskLoop.Completion

/-!
# Receipts in the task loop

The transport of validator-issued receipts (`receipt_flow.py`): which receipt a step
runs under, how an executed step is recorded, and the end of a run whose step has no
receipt.  A receipt is decided by a callback that the pipeline supplies.
-/

namespace Trion.TaskLoop

open Trion.Python Trion.Thinking

/-- The receipts handed to a run, by step id. -/
abbrev StepReceipts := List (String × StepOperationReceipt)

/-- `latest_execution`. -/
def latestExecution (s : TaskLoopSnapshot) : Option StepOperationExecution :=
  s.stepOperationExecutions.getLast?

/-- The plan position a receipt is validated at. -/
def receiptValidationContext (step : PlanStep) (plan : ThinkingPlan) (s : TaskLoopSnapshot) :
    ReceiptValidationContext where
  planStepIds := plan.stepIds
  currentStepIndex := s.currentStepIndex
  completedSteps := s.completedSteps
  executions := s.stepOperationExecutions
  currentStepId := some step.stepId

/-- `receipt_for_step`. -/
def receiptForStep (step : PlanStep) (plan : ThinkingPlan) (s : TaskLoopSnapshot)
    (receipts : Option StepReceipts) (issuer : Option ReceiptIssuer)
    (validator : Option ReceiptValidator) : Option StepOperationReceipt :=
  let receipt := match (receipts.getD []).lookup step.stepId with
    | some receipt => some receipt
    | none => issuer.bind fun issue => issue step (latestExecution s)
  match receipt, validator with
  | some receipt, some validate => validate step receipt (receiptValidationContext step plan s)
  | _, _ => none

/-- `receipt_protocol_active`: a step may only run under a receipt. -/
def receiptProtocolActive (receiptMode : Bool) (receipts : Option StepReceipts)
    (s : TaskLoopSnapshot) (issuer : Option ReceiptIssuer) (validator : Option ReceiptValidator) :
    Bool :=
  receiptMode || receipts.isSome || !s.stepOperationExecutions.isEmpty || issuer.isSome ||
    validator.isSome

/-- `append_execution`. -/
def appendExecution (s : TaskLoopSnapshot) (result : StepExecutionResult) :
    List StepOperationExecution :=
  match result.receipt with
  | none => s.stepOperationExecutions
  | some receipt => s.stepOperationExecutions ++ [{ receipt := receipt, status := result.status }]

/-- `receipt_blocked`. -/
def receiptBlocked (s : TaskLoopSnapshot) (step : PlanStep)
    (structuralResults : List (Option PyVal)) : Except PyError TaskLoopResult := do
  let blocked ← s.transitionTo .blocked fun t =>
    { t with
      pendingStep := step.stepId
      stopReason := some .capabilityGap
      waitingReason := some "step_operation_receipt_missing"
      waitingSource := some "plan_contract_validator" }
  return resultOf blocked (visibleContentFor blocked.state step.title blocked.stopReason)
    (completionStatusFor blocked.state) structuralResults

/-- A step that has a receipt has it from the validator. -/
lemma exists_validator_of_receiptForStep {step : PlanStep} {plan : ThinkingPlan}
    {s : TaskLoopSnapshot} {receipts : Option StepReceipts} {issuer : Option ReceiptIssuer}
    {validator : Option ReceiptValidator} {receipt : StepOperationReceipt}
    (h : receiptForStep step plan s receipts issuer validator = some receipt) :
    ∃ validate candidate, validator = some validate ∧
      validate step candidate (receiptValidationContext step plan s) = some receipt := by
  unfold receiptForStep at h
  dsimp only at h
  split at h
  · exact ⟨_, _, rfl, h⟩
  · exact absurd h (by simp)

end Trion.TaskLoop
