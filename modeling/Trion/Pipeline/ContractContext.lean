import Trion.Pipeline.StepReceipts
import Trion.RoutingFrame.Fingerprint

/-!
# The contract in a context

`operation_contract_context.py` and the receipt functions of `plan_contract_validator.py`:
where a pipeline context carries its contract and the fingerprint, and the contract as it is
used only when the fingerprint is its own.
-/

namespace Trion.Pipeline

open Trion.Python Trion.TaskLoop Trion.RoutingFrame

/-- What the pipeline takes from outside. -/
structure PipelineRuntime extends PyRuntime, FingerprintRuntime

/-- `value` if it is a mapping, else an empty one. -/
def mappingOr (v : PyVal) : PyDict := v.asDict?.getD []

/-- `_frames`: the routing frames of a context, the outermost first. -/
def frames (context : PyVal) : List PyDict :=
  match context with
  | .dict outer =>
    let nested := mappingOr (PyDict.get outer "context")
    let orchestrator := mappingOr (PyDict.get outer "orchestrator")
    let nestedOrchestrator := mappingOr (PyDict.get orchestrator "context")
    [PyDict.get outer "routing_frame", PyDict.get nested "routing_frame",
      PyDict.get nestedOrchestrator "routing_frame"].filterMap PyVal.asDict?
  | _ => []

/-- The value under a key in the first frame that has the key. -/
def frameValue (context : PyVal) (key : String) : PyVal :=
  match (frames context).find? fun frame => PyDict.has frame key with
  | some frame => PyDict.get frame key
  | none => .none

/-- `_contract_value`. -/
def contractValue (context : PyVal) : PyVal := frameValue context "operation_contract"

/-- `_fingerprint_value`. -/
def fingerprintValue (context : PyVal) : PyVal :=
  if PyDict.has (mappingOr context) "operation_contract_fingerprint" then
    PyDict.get (mappingOr context) "operation_contract_fingerprint"
  else frameValue context "operation_contract_fingerprint"

/-- `_fingerprint_string`. -/
def fingerprintString : PyVal → String
  | .str s => strip s
  | _ => ""

/-- `operation_contract_fingerprint_from_context`: the first fingerprint that is not blank. -/
def operationContractFingerprintFromContext (context : PyVal) : String :=
  match context with
  | .dict outer =>
    (((PyDict.get outer "operation_contract_fingerprint") ::
      (frames context).map fun frame =>
        PyDict.get frame "operation_contract_fingerprint").map fingerprintString).find?
          (· ≠ "") |>.getD ""
  | _ => ""

/-- `_fingerprint_matches`. -/
def fingerprintMatches (env : PipelineRuntime) (contract : OperationContract) (v : PyVal) : Bool :=
  match v with
  | .str s => IsName s ∧ s = computeOperationContractFingerprint env.toFingerprintRuntime contract
  | _ => false

/-- `operation_contract_from_context`: the dictionary of the contract, empty where the context
has none that its fingerprint vouches for. -/
def operationContractFromContext (env : PipelineRuntime) (context : PyVal) : PyDict :=
  match parseOperationContract (contractValue context) with
  | some contract =>
    if fingerprintMatches env contract (fingerprintValue context) then
      contract.toOperationContractFields.entries .tuple
    else []
  | none => []

/-- `issue_initial_step_receipt`. -/
def issueInitialStepReceipt (env : PipelineRuntime) (context : PyVal) (stepId : String) :
    Option StepOperationReceipt :=
  issueInitialReceipt env.toPyRuntime stepId (operationContractFromContext env context)
    (operationContractFingerprintFromContext context)

/-- `issue_followup_step_receipt`. -/
def issueFollowupStepReceipt (env : PipelineRuntime) (context : PyVal) (stepId : String)
    (predecessor : Option Predecessor) : Option StepOperationReceipt :=
  issueFollowupReceipt env.toPyRuntime stepId predecessor
    (operationContractFromContext env context) (operationContractFingerprintFromContext context)

/-- `authorized_contract_for_receipt`. -/
def authorizedContractForReceipt (env : PipelineRuntime) (context : PyVal)
    (receipt : Option StepOperationReceipt) (predecessor : Option Predecessor) : PyDict :=
  contractForReceipt env.toPyRuntime (operationContractFromContext env context) receipt
    (operationContractFingerprintFromContext context) predecessor

/-- `build_step_receipt_issuer`: the receipts of a run, each by the execution before it. -/
def buildStepReceiptIssuer (env : PipelineRuntime) (context : PyVal) :
    Thinking.PlanStep → Option StepOperationExecution → Option StepOperationReceipt :=
  fun step predecessor =>
    match predecessor with
    | none => issueInitialStepReceipt env context step.stepId
    | some execution =>
      issueFollowupStepReceipt env context step.stepId (some (executionPredecessor execution))

/-- A receipt that authorizes a contract has the fingerprint of the context. -/
lemma fingerprint_of_contractForReceipt {rt : PyRuntime} {contract : PyDict}
    {receipt : StepOperationReceipt} {fingerprint : String} {predecessor : Option Predecessor}
    (h : contractForReceipt rt contract (some receipt) fingerprint predecessor ≠ []) :
    receipt.operationContractFingerprint = fingerprint := by
  unfold contractForReceipt at h
  by_contra hne
  exact h (if_pos (.inr (.inr hne)))

end Trion.Pipeline
