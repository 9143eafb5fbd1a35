import Trion.Pipeline.ContractContext
import Trion.TaskLoop.ReceiptFlow

/-!
# The validation of receipts

`receipt_validation.py`: the validator that the loop asks before each step, which checks the
step's receipt and all that was executed before it against the plan, and the attestation of a
completed run.
-/

namespace Trion.Pipeline

open Trion.Python Trion.Thinking Trion.TaskLoop Trion.RoutingFrame Trion.Orchestrator

/-- What a validator is built from, apart from the plan. -/
structure ValidatorBasis where
  env : PipelineRuntime
  context : PyVal
  descriptors : List ToolDescriptor

/-- `_valid_for_step`: the receipt is for the step, and exactly one tool has the name of the
step's tool, which the authorized contract lets through. -/
def validForStep (basis : ValidatorBasis) (step : PlanStep) (receipt : StepOperationReceipt)
    (predecessor : Option StepOperationExecution) : Bool :=
  let contract := authorizedContractForReceipt basis.env basis.context (some receipt)
    (predecessor.map executionPredecessor)
  receipt.stepId = step.stepId && !contract.isEmpty &&
    match basis.descriptors.filter fun tool => some tool.name = step.tool with
    | [tool] => tool ∈ eligibleToolsForContract basis.env.toPyRuntime basis.descriptors
        (.dict contract)
    | _ => false

/-- The executions of a prefix are successes of the planned steps, each valid after the one
before it. -/
def validExecutions (basis : ValidatorBasis) :
    Option StepOperationExecution → List PlanStep → List StepOperationExecution → Bool
  | _, _, [] => true
  | _, [], _ :: _ => false
  | previous, step :: steps, execution :: executions =>
    execution.status = .success && execution.receipt.stepId = step.stepId &&
      validForStep basis step execution.receipt previous &&
      validExecutions basis (some execution) steps executions

/-- The checks of `_validated_prefix`, which gives the executions back when they pass. -/
def validatedPrefix (basis : ValidatorBasis) (planned : List PlanStep)
    (provenance : ReceiptValidationContext) : Bool :=
  let plannedIds := planned.map (·.stepId)
  (∀ id ∈ plannedIds, IsName id) ∧ plannedIds.Nodup ∧ provenance.planStepIds = plannedIds ∧
    provenance.currentStepIndex ≤ plannedIds.length ∧
    provenance.completedSteps = plannedIds.take provenance.currentStepIndex ∧
    provenance.executions.length = provenance.currentStepIndex ∧
    validExecutions basis none planned provenance.executions ∧
    provenance.currentStepId = plannedIds[provenance.currentStepIndex]?

/-- `build_step_receipt_validator`. -/
def buildStepReceiptValidator (basis : ValidatorBasis) (plan : ThinkingPlan) : ReceiptValidator :=
  fun step receipt provenance =>
    if validatedPrefix basis plan.steps provenance then
      match plan.steps[provenance.currentStepIndex]? with
      | none => none
      | some current =>
        if current.stepId = step.stepId ∧
            validForStep basis current receipt provenance.executions.getLast? then some receipt
        else none
    else none

/-- `build_step_receipt_validator_factory`. -/
def buildStepReceiptValidatorFactory (basis : ValidatorBasis) :
    ThinkingPlan → Option ReceiptValidator :=
  fun plan => some (buildStepReceiptValidator basis plan)

/-- `OutputExecutionAttestation`. -/
structure OutputExecutionAttestation where
  completedStepIds : List String
  operationContractFingerprint : String
deriving DecidableEq, Repr

/-- The plan position at which the execution of an index is attested. -/
def attestationContext (plan : ThinkingPlan) (executions : List StepOperationExecution)
    (index : ℕ) : ReceiptValidationContext where
  planStepIds := plan.stepIds
  currentStepIndex := index
  completedSteps := plan.stepIds.take index
  executions := executions.take index
  currentStepId := plan.stepIds[index]?

/-- The execution of an index is a success whose receipt the validator confirms. -/
def attestedAt (validator : ReceiptValidator) (plan : ThinkingPlan)
    (executions : List StepOperationExecution) (index : ℕ) : Bool :=
  match plan.steps[index]?, executions[index]? with
  | some step, some execution =>
    execution.status = .success ∧
      validator step execution.receipt (attestationContext plan executions index) =
        some execution.receipt
  | _, _ => false

/-- `attest_completed_execution`. -/
def attestCompletedExecution (plan : ThinkingPlan) (result : TaskLoopResult)
    (validator : ReceiptValidator) : Option OutputExecutionAttestation :=
  let executions := result.snapshot.stepOperationExecutions
  if result.state = .completed ∧ result.completionStatus = .complete ∧
      result.snapshot.completedSteps = plan.stepIds ∧
      executions.length = plan.steps.length ∧
      (List.range plan.steps.length).all (attestedAt validator plan executions) then
    match (executions.map (·.receipt.operationContractFingerprint)).dedup with
    | [fingerprint] => some {
        completedStepIds := plan.stepIds
        operationContractFingerprint := fingerprint }
    | _ => none
  else none

end Trion.Pipeline
