import Trion.Orchestrator.ToolEligibility
import Trion.TaskLoop.Contracts

/-!
# Receipts for the operations of a plan

`step_operation_receipts.py`: which operation a step may perform under a contract, first the
primary operation and after a successful step the one its transition leads to, and the
contract as it is narrowed to that operation.
-/

namespace Trion.Pipeline

open Trion.Python Trion.TaskLoop

/-- `_clean`: `str(value or "").strip()`. -/
def clean (rt : PyRuntime) (v : PyVal) : String := strip (v.strOr rt "")

/-- What iterating over a value yields, nothing where it raises a `TypeError`. -/
def iterate : PyVal → List PyVal
  | .list xs | .tuple xs => xs
  | .dict kvs => kvs.map fun e => .str e.1
  | _ => []

/-- `_values`; a string has none. -/
def values (rt : PyRuntime) (v : PyVal) : List String :=
  ((iterate v).map (clean rt)).filter (· ≠ "")

/-- The step a receipt follows upon: its receipt and the status it ended with. -/
structure Predecessor where
  receipt : Option StepOperationReceipt
  status : StepExecutionStatus
deriving DecidableEq, Repr

/-- An execution on record as a predecessor. -/
def executionPredecessor (e : StepOperationExecution) : Predecessor where
  receipt := some e.receipt
  status := e.status

/-- The target and the evidence of a transition out of the operation, if the value is one. -/
def transitionFrom (rt : PyRuntime) (operation : String) : PyVal → Option (String × List String)
  | .dict raw =>
    if clean rt (PyDict.get raw "source_operation") = operation ∧
        clean rt (PyDict.get raw "target_operation") ≠ "" then
      some (clean rt (PyDict.get raw "target_operation"),
        values rt (PyDict.get raw "required_evidence"))
    else none
  | _ => none

/-- `_transition_requirement`: the one transition out of the operation. -/
def transitionRequirement (rt : PyRuntime) (operation : String) (transitions : PyVal) :
    Option (String × List String) :=
  match ((RoutingFrame.sequence? transitions).getD []).filterMap (transitionFrom rt operation) with
  | [transition] => some transition
  | _ => none

/-- `issue_initial_receipt`. -/
def issueInitialReceipt (rt : PyRuntime) (stepId : String) (contract : PyDict)
    (fingerprint : String) : Option StepOperationReceipt :=
  let operation := clean rt (PyDict.get contract "primary_operation")
  if strip stepId = "" ∨ fingerprint = "" ∨ operation = "" ∨
      operation ∉ values rt (PyDict.get contract "allowed_operations") then none
  else some {
    stepId := stepId
    operation := operation
    operationContractFingerprint := fingerprint
    scopePreserved := true }

/-- The receipt of a predecessor that a step may follow. -/
def Predecessor.validReceipt (p : Predecessor) (fingerprint : String) :
    Option StepOperationReceipt :=
  p.receipt.filter fun receipt => p.status = .success ∧ receipt.scopePreserved = true ∧
    receipt.operationContractFingerprint = fingerprint

/-- `issue_followup_receipt`. -/
def issueFollowupReceipt (rt : PyRuntime) (stepId : String) (predecessor : Option Predecessor)
    (contract : PyDict) (fingerprint : String) : Option StepOperationReceipt := do
  let receipt ← (← predecessor).validReceipt fingerprint
  guard (strip stepId ≠ "")
  let transition ← transitionRequirement rt receipt.operation
    (PyDict.get contract "transition_requirements")
  return {
    stepId := stepId
    operation := transition.1
    operationContractFingerprint := fingerprint
    scopePreserved := true }

/-- The contract with one operation. -/
def narrowed (contract : PyDict) (operation : String) : PyDict :=
  PyDict.set (PyDict.set contract "primary_operation" (.str operation)) "allowed_operations"
    (.list [.str operation])

/-- `contract_for_receipt`, empty where the receipt is not authorized. -/
def contractForReceipt (rt : PyRuntime) (contract : PyDict)
    (receipt : Option StepOperationReceipt) (fingerprint : String)
    (predecessor : Option Predecessor) : PyDict :=
  match receipt with
  | none => []
  | some receipt =>
    if receipt.scopePreserved = false ∨ fingerprint = "" ∨
        receipt.operationContractFingerprint ≠ fingerprint then []
    else match predecessor with
      | none =>
        if receipt.operation ≠ clean rt (PyDict.get contract "primary_operation") ∨
            receipt.operation ∉ values rt (PyDict.get contract "allowed_operations") then []
        else narrowed contract receipt.operation
      | some p =>
        match (p.validReceipt fingerprint).bind fun previous => transitionRequirement rt
            previous.operation (PyDict.get contract "transition_requirements") with
        | none => []
        | some transition =>
          if transition.1 ≠ receipt.operation then []
          else PyDict.set (narrowed contract receipt.operation) "required_evidence"
            (.list (transition.2.map .str))

end Trion.Pipeline
