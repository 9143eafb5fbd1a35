import Trion.TaskLoop.ExecutionLoop

/-!
# Step ids of a plan

`validate_plan_step_ids` of `plan_contract_metadata.py`, what it means, and how a plan
expansion keeps it.
-/

namespace Trion.Pipeline

open Trion.Python Trion.Thinking Trion.TaskLoop

/-- `validate_plan_step_ids`: empty when the ids are in order. -/
def validatePlanStepIds (plan : ThinkingPlan) : String :=
  if plan.stepIds.any fun id => id = "" ∨ id ≠ strip id then "plan_contract_invalid_step_id"
  else if ¬plan.stepIds.Nodup then "plan_contract_duplicate_step_id"
  else ""

/-- The ids of a plan are not empty and not repeated. -/
structure DistinctStepIds (plan : ThinkingPlan) : Prop where
  ne_empty : ∀ id ∈ plan.stepIds, id ≠ ""
  nodup : plan.stepIds.Nodup

lemma validatePlanStepIds_eq_empty_iff {plan : ThinkingPlan} :
    validatePlanStepIds plan = "" ↔
      DistinctStepIds plan ∧ ∀ id ∈ plan.stepIds, id = strip id := by
  unfold validatePlanStepIds
  constructor
  · intro h
    split_ifs at h with hany hdup
    · exact absurd h (by decide)
    · simp only [List.any_eq_true, decide_eq_true_eq, not_exists, not_and, not_or, not_not] at hany
      exact ⟨⟨fun id hid => (hany id hid).1, hdup⟩, fun id hid => (hany id hid).2⟩
    · exact absurd h (by decide)
  · rintro ⟨⟨hne, hnodup⟩, hstrip⟩
    rw [if_neg, if_neg (not_not.2 hnodup)]
    simp only [List.any_eq_true, decide_eq_true_eq, not_exists, not_and, not_or, not_not]
    exact fun id hid => ⟨hne id hid, hstrip id hid⟩

lemma distinctStepIds_of_validate {plan : ThinkingPlan} (h : validatePlanStepIds plan = "") :
    DistinctStepIds plan :=
  (validatePlanStepIds_eq_empty_iff.1 h).1

/-- Two indices of a plan with distinct ids that carry the same id are equal. -/
lemma DistinctStepIds.index_eq {plan : ThinkingPlan} (h : DistinctStepIds plan) {i j : ℕ}
    {a b : PlanStep} (hi : plan.steps[i]? = some a) (hj : plan.steps[j]? = some b)
    (hab : a.stepId = b.stepId) : i = j := by
  have hi' : plan.stepIds[i]? = some a.stepId := by simp [ThinkingPlan.stepIds, hi]
  have hj' : plan.stepIds[j]? = some a.stepId := by simp [ThinkingPlan.stepIds, hj, hab]
  have hlt : i < plan.stepIds.length := (List.getElem?_eq_some_iff.1 hi').1
  exact (List.getElem?_inj hlt h.nodup).1 (hi'.trans hj'.symm)

/-- The id at an index of a plan is not empty. -/
lemma DistinctStepIds.stepId_ne_empty {plan : ThinkingPlan} (h : DistinctStepIds plan) {i : ℕ}
    {a : PlanStep} (hi : plan.steps[i]? = some a) : a.stepId ≠ "" :=
  h.ne_empty a.stepId (List.mem_map_of_mem (List.mem_of_getElem? hi))

/-- An expanded plan has equal steps in front of one more, and its ids are distinct. -/
lemma isExpansion_iff {plan expanded : ThinkingPlan} :
    isExpansion plan expanded ↔ (∃ steps last, expanded.steps = steps ++ [last] ∧
      stepsEq steps plan.steps ∧ steps.length = plan.steps.length) ∧
      expanded.planId = plan.planId ∧ DistinctStepIds expanded := by
  simp only [isExpansion, Bool.and_eq_true, decide_eq_true_eq, List.all_eq_true]
  constructor
  · rintro ⟨⟨hlength, hsteps, hid⟩, hne, hnodup⟩
    have hnonempty : expanded.steps ≠ [] := by
      rw [← List.length_pos_iff, hlength]
      exact Nat.succ_pos _
    refine ⟨⟨_, _, (List.dropLast_append_getLast hnonempty).symm, hsteps, ?_⟩, hid, hne, hnodup⟩
    rw [List.length_dropLast, hlength, Nat.add_sub_cancel]
  · rintro ⟨⟨steps, last, heq, hsteps, hlength⟩, hid, hne, hnodup⟩
    refine ⟨⟨by simp [heq, hlength], by simpa [heq] using hsteps, hid⟩, hne, hnodup⟩

/-- The ids of an expanded plan are the old ones and one more. -/
lemma stepIds_of_isExpansion {plan expanded : ThinkingPlan} (h : isExpansion plan expanded) :
    ∃ id, expanded.stepIds = plan.stepIds ++ [id] := by
  obtain ⟨⟨steps, last, heq, hsteps, -⟩, -⟩ := isExpansion_iff.1 h
  refine ⟨last.stepId, ?_⟩
  rw [ThinkingPlan.stepIds, ThinkingPlan.stepIds, heq, List.map_append,
    map_stepId_eq_of_stepsEq hsteps, List.map_singleton]

end Trion.Pipeline
