import Trion.Python.Value

/-!
# Plans

The data a planner hands to the task loop: `core/thinking/contracts.py`.
-/

namespace Trion.Thinking

open Trion.Python

/-- The `done_when` of a step whose operation contract could not be read. -/
def invalidOperationContractCriterion : String := "operation_contract_invalid"

inductive RiskLevel where
  | safe
  | needsConfirmation
  | block
deriving DecidableEq, Repr

def RiskLevel.value : RiskLevel → String
  | .safe => "safe"
  | .needsConfirmation => "needs_confirmation"
  | .block => "block"

structure PlanStep where
  stepId : String
  title : String
  goal : String
  tool : Option String := none
  toolArguments : PyDict := []
  timeoutS : Option PyFloat := none
  risk : RiskLevel := .safe
  doneWhen : String := ""
  requiredEvidence : List String := []
deriving Repr

structure ResponseProjection where
  kind : String
deriving DecidableEq, Repr

structure ResponseDerivation where
  kind : String
  seconds : ℤ := 0
deriving DecidableEq, Repr

structure AdditionalEvidenceNeed where
  kind : String
  reason : String := ""
  candidateTools : List String := []
deriving DecidableEq, Repr

structure ThinkingPlan where
  intent : String
  steps : List PlanStep
  needsTaskLoop : Bool
  riskLevel : RiskLevel
  reasoning : String := ""
  suggestedTools : List String := []
  contextHints : PyDict := []
  planId : String := ""
  responseProjection : Option ResponseProjection := none
  responseDerivation : Option ResponseDerivation := none
  additionalEvidenceNeed : Option AdditionalEvidenceNeed := none
deriving Repr

/-- `==` on plan steps: field by field, with Python's equality of dictionaries. -/
def PlanStep.pyEq (a b : PlanStep) : Bool :=
  a.stepId == b.stepId && a.title == b.title && a.goal == b.goal && a.tool == b.tool &&
    (PyVal.dict a.toolArguments).pyEq (.dict b.toolArguments) && a.timeoutS == b.timeoutS &&
    a.risk == b.risk && a.doneWhen == b.doneWhen && a.requiredEvidence == b.requiredEvidence

/-- `==` on lists of plan steps. -/
def stepsEq : List PlanStep → List PlanStep → Bool
  | [], [] => true
  | a :: as, b :: bs => a.pyEq b && stepsEq as bs
  | _, _ => false

/-- `str(step.tool or "").strip()`, the name under which the tool is called. -/
def PlanStep.toolName (step : PlanStep) : String := strip (step.tool.getD "")

/-- The ids of the steps in plan order. -/
def ThinkingPlan.stepIds (plan : ThinkingPlan) : List String := plan.steps.map (·.stepId)

lemma PlanStep.stepId_eq_of_pyEq {a b : PlanStep} (h : a.pyEq b) : a.stepId = b.stepId := by
  simp only [PlanStep.pyEq, Bool.and_eq_true, beq_iff_eq] at h
  exact h.1.1.1.1.1.1.1.1

/-- Equal lists of steps have the same ids. -/
lemma map_stepId_eq_of_stepsEq {as bs : List PlanStep} (h : stepsEq as bs) :
    as.map (·.stepId) = bs.map (·.stepId) := by
  induction as generalizing bs with
  | nil => cases bs <;> simp_all [stepsEq]
  | cons a as ih =>
    cases bs with
    | nil => simp [stepsEq] at h
    | cons b bs =>
      rw [stepsEq, Bool.and_eq_true] at h
      rw [List.map_cons, List.map_cons, PlanStep.stepId_eq_of_pyEq h.1, ih h.2]

@[simp] lemma ThinkingPlan.length_stepIds (plan : ThinkingPlan) :
    plan.stepIds.length = plan.steps.length := by
  simp [ThinkingPlan.stepIds]

end Trion.Thinking
