import Trion.TaskLoop.Governor

/-!
# Reflection

The decision after each executed step: `reflection.py`.
-/

namespace Trion.TaskLoop

open Trion.Python

inductive ReflectionAction where
  | continue | completed | waiting | replan | block
deriving DecidableEq, Repr

structure ReflectionDecision where
  action : ReflectionAction
  stopReason : Option StopReason := none
  waitingReason : Option String := none
  waitingSource : Option String := none
  retryCounts : List (String × ℕ) := []
  progressSignature : String := ""
  noProgressCount : ℕ := 0
deriving DecidableEq, Repr

namespace Reflection

/-- Insertion into a sorted list of strings. -/
def insertSorted (s : String) : List String → List String
  | [] => [s]
  | t :: ts => if t ≤ s then t :: insertSorted s ts else s :: t :: ts

/-- `_signature`. -/
def signature (result : StepExecutionResult) : String :=
  let error := result.error.getD ""
  let keys := ",".intercalate
    ((result.output.map (·.1)).foldl (fun acc key => insertSorted key acc) [])
  let artifactCount := result.artifacts.length
  s!"{result.stepId}:{result.status.value}:{error}:{keys}:{artifactCount}"

/-- `_failure_escalation`. -/
def failureEscalation (rt : PyRuntime) (s : TaskLoopSnapshot) : String :=
  let raw := rt.lower (strip (orElse s.failureEscalation "replan"))
  if raw ∈ ["replan", "ask", "abort"] then raw else "replan"

/-- `dict(retry_counts)` with one entry set. -/
def setCount (counts : List (String × ℕ)) (key : String) (n : ℕ) : List (String × ℕ) :=
  if counts.any (·.1 == key) then counts.map fun e => if e.1 == key then (key, n) else e
  else counts ++ [(key, n)]

/-- `int(retry_counts.get(key, 0))`. -/
def getCount (counts : List (String × ℕ)) (key : String) : ℕ := (counts.lookup key).getD 0

/-- The step budget is exhausted at the snapshot's index. -/
def stepBudgetReached (s : TaskLoopSnapshot) : Bool :=
  max 1 s.maxSteps ≤ (s.currentStepIndex : ℤ) + 1

/-- The count of equal signatures in a row, including this result. -/
def nextNoProgressCount (result : StepExecutionResult) (s : TaskLoopSnapshot) : ℕ :=
  if signature result = s.progressSignature then s.noProgressCount + 1 else 0

/-- Loop detection stops the run at this result. -/
def noProgressReached (result : StepExecutionResult) (s : TaskLoopSnapshot) : Bool :=
  s.loopDetectionEnabled && max 2 s.noProgressThreshold ≤ (nextNoProgressCount result s : ℤ)

/-- `evaluate`. -/
def evaluate (rt : PyRuntime) (result : StepExecutionResult) (s : TaskLoopSnapshot)
    (totalSteps : ℕ) (nowTs : ℚ) : ReflectionDecision :=
  if stepBudgetReached s then
    { action := .block, stopReason := some .maxStepsReached }
  else if result.status = .skipped then
    { action := .waiting
      stopReason := some .userDecisionNeeded
      waitingReason := some "user_decision"
      waitingSource := some "reflection" }
  else
    let nextSignature := signature result
    let noProgressCount := nextNoProgressCount result s
    if noProgressReached result s then
      { action := .block
        stopReason := some .noProgress
        progressSignature := nextSignature
        noProgressCount := noProgressCount }
    else if result.status = .success then
      { action := if max 1 totalSteps ≤ s.currentStepIndex + 1 then .completed else .continue
        progressSignature := nextSignature
        noProgressCount := noProgressCount }
    else
      let currentRetries := getCount s.retryCounts result.stepId
      if (currentRetries : ℤ) < max 0 s.maxRetriesPerStep then
        { action := .continue
          retryCounts := setCount s.retryCounts result.stepId (currentRetries + 1)
          progressSignature := nextSignature
          noProgressCount := noProgressCount }
      else if failureEscalation rt s = "ask" then
        { action := .waiting
          stopReason := some .userDecisionNeeded
          waitingReason := some "step_failed_user_decision"
          waitingSource := some "failure_policy"
          retryCounts := s.retryCounts
          progressSignature := nextSignature
          noProgressCount := noProgressCount }
      else if failureEscalation rt s = "abort" then
        { action := .block
          stopReason := some .failureAbortPolicy
          retryCounts := s.retryCounts
          progressSignature := nextSignature
          noProgressCount := noProgressCount }
      else
        let replanDecision := canReplan (runGovernorFromSnapshot s) nowTs
        if !replanDecision.allowed then
          { action := .block
            stopReason := some .replanBudgetExhausted
            waitingReason := some replanDecision.reason
            waitingSource := some "run_governor"
            retryCounts := s.retryCounts
            progressSignature := nextSignature
            noProgressCount := noProgressCount }
        else
          { action := .replan
            stopReason := some .stepFailed
            retryCounts := s.retryCounts
            progressSignature := nextSignature
            noProgressCount := noProgressCount }

/-! ### What a reflection can decide -/

/-- The execution failed, it neither succeeded nor was skipped, and its step has no retries
left. -/
structure Exhausted (result : StepExecutionResult) (s : TaskLoopSnapshot) : Prop where
  budget : stepBudgetReached s = false
  progress : noProgressReached result s = false
  not_skipped : result.status ≠ .skipped
  not_success : result.status ≠ .success
  retries : max 0 s.maxRetriesPerStep ≤ (getCount s.retryCounts result.stepId : ℤ)

/-- The branches of `evaluate`. -/
inductive Decides (rt : PyRuntime) (result : StepExecutionResult) (s : TaskLoopSnapshot)
    (totalSteps : ℕ) (nowTs : ℚ) : ReflectionDecision → Prop
  | budgetReached : stepBudgetReached s = true →
      Decides rt result s totalSteps nowTs
        { action := .block, stopReason := some .maxStepsReached }
  | skipped : stepBudgetReached s = false → result.status = .skipped →
      Decides rt result s totalSteps nowTs {
        action := .waiting
        stopReason := some .userDecisionNeeded
        waitingReason := some "user_decision"
        waitingSource := some "reflection" }
  | noProgress : stepBudgetReached s = false → result.status ≠ .skipped →
      noProgressReached result s = true →
      Decides rt result s totalSteps nowTs {
        action := .block
        stopReason := some .noProgress
        progressSignature := signature result
        noProgressCount := nextNoProgressCount result s }
  | completed : stepBudgetReached s = false → noProgressReached result s = false →
      result.status = .success → max 1 totalSteps ≤ s.currentStepIndex + 1 →
      Decides rt result s totalSteps nowTs {
        action := .completed
        progressSignature := signature result
        noProgressCount := nextNoProgressCount result s }
  | continue : stepBudgetReached s = false → noProgressReached result s = false →
      result.status = .success → s.currentStepIndex + 1 < max 1 totalSteps →
      Decides rt result s totalSteps nowTs {
        action := .continue
        progressSignature := signature result
        noProgressCount := nextNoProgressCount result s }
  | retry : stepBudgetReached s = false → noProgressReached result s = false →
      result.status ≠ .skipped → result.status ≠ .success →
      (getCount s.retryCounts result.stepId : ℤ) < max 0 s.maxRetriesPerStep →
      Decides rt result s totalSteps nowTs {
        action := .continue
        retryCounts := setCount s.retryCounts result.stepId
          (getCount s.retryCounts result.stepId + 1)
        progressSignature := signature result
        noProgressCount := nextNoProgressCount result s }
  | ask : Exhausted result s → failureEscalation rt s = "ask" →
      Decides rt result s totalSteps nowTs {
        action := .waiting
        stopReason := some .userDecisionNeeded
        waitingReason := some "step_failed_user_decision"
        waitingSource := some "failure_policy"
        retryCounts := s.retryCounts
        progressSignature := signature result
        noProgressCount := nextNoProgressCount result s }
  | abort : Exhausted result s → failureEscalation rt s = "abort" →
      Decides rt result s totalSteps nowTs {
        action := .block
        stopReason := some .failureAbortPolicy
        retryCounts := s.retryCounts
        progressSignature := signature result
        noProgressCount := nextNoProgressCount result s }
  | replanBudgetSpent : Exhausted result s →
      (canReplan (runGovernorFromSnapshot s) nowTs).allowed = false →
      Decides rt result s totalSteps nowTs {
        action := .block
        stopReason := some .replanBudgetExhausted
        waitingReason := some (canReplan (runGovernorFromSnapshot s) nowTs).reason
        waitingSource := some "run_governor"
        retryCounts := s.retryCounts
        progressSignature := signature result
        noProgressCount := nextNoProgressCount result s }
  | replan : Exhausted result s → (canReplan (runGovernorFromSnapshot s) nowTs).allowed = true →
      Decides rt result s totalSteps nowTs {
        action := .replan
        stopReason := some .stepFailed
        retryCounts := s.retryCounts
        progressSignature := signature result
        noProgressCount := nextNoProgressCount result s }

variable {rt : PyRuntime} {result : StepExecutionResult} {s : TaskLoopSnapshot}
  {totalSteps : ℕ} {nowTs : ℚ}

/-- A reflection takes one of its branches. -/
lemma decides_evaluate (rt : PyRuntime) (result : StepExecutionResult) (s : TaskLoopSnapshot)
    (totalSteps : ℕ) (nowTs : ℚ) : Decides rt result s totalSteps nowTs
    (evaluate rt result s totalSteps nowTs) := by
  rw [evaluate]
  by_cases hbudget : stepBudgetReached s = true
  · rw [if_pos hbudget]
    exact .budgetReached hbudget
  rw [if_neg hbudget]
  rw [Bool.not_eq_true] at hbudget
  by_cases hskipped : result.status = .skipped
  · rw [if_pos hskipped]
    exact .skipped hbudget hskipped
  rw [if_neg hskipped]
  by_cases hprogress : noProgressReached result s = true
  · rw [if_pos hprogress]
    exact .noProgress hbudget hskipped hprogress
  rw [if_neg hprogress]
  rw [Bool.not_eq_true] at hprogress
  by_cases hsuccess : result.status = .success
  · rw [if_pos hsuccess]
    by_cases hlast : max 1 totalSteps ≤ s.currentStepIndex + 1
    · rw [if_pos hlast]
      exact .completed hbudget hprogress hsuccess hlast
    · rw [if_neg hlast]
      exact .continue hbudget hprogress hsuccess (not_le.1 hlast)
  rw [if_neg hsuccess]
  dsimp only
  split
  · rename_i hretry
    exact .retry hbudget hprogress hskipped hsuccess hretry
  rename_i hretry
  have hexhausted : Exhausted result s :=
    ⟨hbudget, hprogress, hskipped, hsuccess, Int.not_lt.1 hretry⟩
  split
  · rename_i hask
    exact .ask hexhausted hask
  split
  · rename_i habort
    exact .abort hexhausted habort
  split
  · rename_i hspent
    exact .replanBudgetSpent hexhausted (by simpa using hspent)
  · rename_i hallowed
    exact .replan hexhausted (by simpa using hallowed)

/-- Below the step budget there is an index left. -/
lemma stepBudgetReached_eq_false :
    stepBudgetReached s = false ↔ (s.currentStepIndex : ℤ) + 1 < max 1 s.maxSteps := by
  rw [stepBudgetReached, decide_eq_false_iff_not, Int.not_le]

/-- A reflection that goes on has a step of the budget left. -/
lemma stepBudgetReached_of_continue
    (h : (evaluate rt result s totalSteps nowTs).action = .continue) :
    stepBudgetReached s = false := by
  have hdecides := decides_evaluate rt result s totalSteps nowTs
  generalize evaluate rt result s totalSteps nowTs = decision at h hdecides
  cases hdecides <;> simp_all

/-- A success blocks only where the step budget is reached or no progress is made. -/
lemma block_iff_of_success (hsuccess : result.status = .success) :
    (evaluate rt result s totalSteps nowTs).action = .block ↔
      stepBudgetReached s = true ∨ noProgressReached result s = true := by
  have hdecides := decides_evaluate rt result s totalSteps nowTs
  generalize evaluate rt result s totalSteps nowTs = decision at hdecides ⊢
  cases hdecides with
  | ask h | abort h | replanBudgetSpent h | replan h => exact absurd hsuccess h.not_success
  | _ => simp_all

/-- A retry counts one more failure of the step, below its bound. -/
lemma retryCounts_of_retry
    (h : (evaluate rt result s totalSteps nowTs).action = .continue)
    (hfailed : result.status ≠ .success) :
    (getCount s.retryCounts result.stepId : ℤ) < max 0 s.maxRetriesPerStep ∧
      (evaluate rt result s totalSteps nowTs).retryCounts =
        setCount s.retryCounts result.stepId (getCount s.retryCounts result.stepId + 1) := by
  have hdecides := decides_evaluate rt result s totalSteps nowTs
  generalize evaluate rt result s totalSteps nowTs = decision at h hdecides
  cases hdecides <;> simp_all

/-- A success clears the retry counts. -/
lemma retryCounts_of_success (hsuccess : result.status = .success) :
    (evaluate rt result s totalSteps nowTs).retryCounts = [] := by
  have hdecides := decides_evaluate rt result s totalSteps nowTs
  generalize evaluate rt result s totalSteps nowTs = decision at hdecides
  cases hdecides with
  | ask h | abort h | replanBudgetSpent h | replan h => exact absurd hsuccess h.not_success
  | retry _ _ _ h => exact absurd hsuccess h
  | _ => rfl

/-- A reflection asks for another plan only while the replan budget allows one. -/
lemma canReplan_of_replan
    (h : (evaluate rt result s totalSteps nowTs).action = .replan) :
    (canReplan (runGovernorFromSnapshot s) nowTs).allowed = true := by
  have hdecides := decides_evaluate rt result s totalSteps nowTs
  generalize evaluate rt result s totalSteps nowTs = decision at h hdecides
  cases hdecides <;> simp_all

/-- The plan is completed by a success of its last step. -/
lemma success_of_completed
    (h : (evaluate rt result s totalSteps nowTs).action = .completed) :
    result.status = .success ∧ totalSteps ≤ s.currentStepIndex + 1 := by
  have hdecides := decides_evaluate rt result s totalSteps nowTs
  generalize evaluate rt result s totalSteps nowTs = decision at h hdecides
  cases hdecides with
  | completed _ _ hsuccess hlast => exact ⟨hsuccess, (Nat.le_max_right _ _).trans hlast⟩
  | _ => simp_all

@[simp] lemma getCount_setCount (counts : List (String × ℕ)) (key : String) (n : ℕ) :
    getCount (setCount counts key n) key = n := by
  unfold getCount setCount
  split
  · rename_i hany
    induction counts with
    | nil => simp at hany
    | cons entry counts ih =>
      obtain ⟨k, m⟩ := entry
      by_cases hk : k = key
      · simp [hk]
      · have hne : (key == k) = false := by simpa using Ne.symm hk
        have hrest : counts.any (·.1 == key) = true := by simpa [hk] using hany
        simpa [hk, List.lookup_cons, hne] using ih hrest
  · rename_i hany
    induction counts with
    | nil => simp
    | cons entry counts ih =>
      obtain ⟨k, m⟩ := entry
      simp only [List.any_cons, Bool.or_eq_true, beq_iff_eq, not_or] at hany
      have hne : (key == k) = false := by simpa using Ne.symm hany.1
      simpa [List.lookup_cons, hne] using ih hany.2

/-- A reflection that waits asks the user for a decision, with a step of the budget left. -/
lemma stopReason_of_waiting
    (h : (evaluate rt result s totalSteps nowTs).action = .waiting) :
    (evaluate rt result s totalSteps nowTs).stopReason = some .userDecisionNeeded ∧
      stepBudgetReached s = false := by
  have hdecides := decides_evaluate rt result s totalSteps nowTs
  generalize evaluate rt result s totalSteps nowTs = decision at h hdecides
  cases hdecides with
  | skipped hbudget => exact ⟨rfl, hbudget⟩
  | ask hexhausted => exact ⟨rfl, hexhausted.budget⟩
  | _ => simp_all

end Reflection

end Trion.TaskLoop
