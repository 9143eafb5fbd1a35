import Trion.TaskLoop.Contracts

/-!
# Budgets, approval and presentation

The pure decisions around a step: the run governor (`run_governor.py`,
`step_governor.py`, `toolcall_governor.py`), the approval policy
(`approval_policy.py`) and the texts and statuses derived from a final state
(`presentation.py`).
-/

namespace Trion.TaskLoop

open Trion.Python Trion.Thinking

/-! ### The run governor -/

structure RunGovernorDecision where
  allowed : Bool
  reason : String := ""
deriving DecidableEq, Repr

/-- `RunGovernorState` as it is read off a snapshot; negative limits count as zero.  No
snapshot is ever cancelled in this sense, so the flag stays at its default. -/
structure RunGovernorState where
  totalSteps : ℕ := 0
  toolCalls : ℕ := 0
  replans : ℕ := 0
  maxTotalSteps : Option ℕ := none
  maxToolCalls : Option ℕ := none
  maxReplans : Option ℕ := none
  deadlineTs : Option PyFloat := none
  cancelled : Bool := false

/-- `run_governor_from_snapshot`. -/
def runGovernorFromSnapshot (s : TaskLoopSnapshot) : RunGovernorState where
  totalSteps := s.totalSteps
  toolCalls := s.toolCalls
  replans := s.replanCount
  maxTotalSteps := s.maxTotalSteps.map Int.toNat
  maxToolCalls := s.maxToolCalls.map Int.toNat
  maxReplans := some s.maxReplans.toNat
  deadlineTs := s.deadlineTs

/-- `_common_block`: the reason for which nothing may start, if there is one. -/
def commonBlock (g : RunGovernorState) (nowTs : ℚ) : Option String :=
  if g.cancelled then some "run_governor_cancelled"
  else match g.deadlineTs with
    | some deadline => if deadline.le (.finite nowTs) then some "run_governor_deadline" else none
    | none => none

/-- `_limit_reached`. -/
def limitReached (current : ℕ) : Option ℕ → Bool
  | none => false
  | some limit => limit ≤ current

/-- The shape the three checks of the governor share: a common block, then one limit. -/
def governed (g : RunGovernorState) (nowTs : ℚ) (current : ℕ) (limit : Option ℕ)
    (reason : String) : RunGovernorDecision :=
  match commonBlock g nowTs with
  | some blocked => { allowed := false, reason := blocked }
  | none =>
    if limitReached current limit then { allowed := false, reason := reason }
    else { allowed := true }

/-- `can_start_step`. -/
def canStartStep (g : RunGovernorState) (nowTs : ℚ) : RunGovernorDecision :=
  governed g nowTs g.totalSteps g.maxTotalSteps "run_governor_max_total_steps"

/-- `can_start_tool_call`. -/
def canStartToolCall (g : RunGovernorState) (nowTs : ℚ) : RunGovernorDecision :=
  governed g nowTs g.toolCalls g.maxToolCalls "run_governor_max_tool_calls"

/-- `can_replan`. -/
def canReplan (g : RunGovernorState) (nowTs : ℚ) : RunGovernorDecision :=
  governed g nowTs g.replans g.maxReplans "run_governor_max_replans"

/-- A replan that the governor allows is below its bound. -/
lemma replanCount_lt_of_canReplan {s : TaskLoopSnapshot} {nowTs : ℚ}
    (h : (canReplan (runGovernorFromSnapshot s) nowTs).allowed = true) :
    s.replanCount < s.maxReplans.toNat := by
  unfold canReplan governed at h
  split at h
  · simp at h
  · split at h
    · simp at h
    · rename_i hlimit
      simpa [limitReached, runGovernorFromSnapshot] using hlimit

/-- `toolcall_governor_error`: empty when the call may start. -/
def toolcallGovernorError (s : TaskLoopSnapshot) (nowTs : ℚ) : String :=
  let decision := canStartToolCall (runGovernorFromSnapshot s) nowTs
  if decision.allowed then "" else decision.reason

/-! ### The approval policy -/

/-- `requires_waiting`: stop reason, waiting reason and waiting source of the wait a step
needs before it may run. -/
def requiresWaiting (rt : PyRuntime) (step : PlanStep) (s : TaskLoopSnapshot) :
    Option (StopReason × String × String) :=
  let toolName := step.toolName
  if toolName = "" then none
  else
    let mode := rt.lower (strip (orElse s.approvalMode "risk_based"))
    let approvalRequiredTools := (s.approvalRequiredTools.map strip).filter (· ≠ "")
    if toolName ∈ approvalRequiredTools then
      some (.riskGateRequired, "approval_required", "tool_policy")
    else if mode = "approval_first" then
      some (.riskGateRequired, "approval_required", "approval_mode")
    else if mode = "risk_based" ∧ step.risk = .needsConfirmation then
      some (.riskGateRequired, "risk_boundary", "approval_mode")
    else none

/-- The approval policy reads the approval settings of the snapshot and nothing else. -/
lemma requiresWaiting_congr {rt : PyRuntime} {step : PlanStep} {s t : TaskLoopSnapshot}
    (hmode : s.approvalMode = t.approvalMode)
    (htools : s.approvalRequiredTools = t.approvalRequiredTools) :
    requiresWaiting rt step s = requiresWaiting rt step t := by
  unfold requiresWaiting
  rw [hmode, htools]

/-- Every wait the approval policy asks for is a risk gate. -/
lemma requiresWaiting_reason {rt : PyRuntime} {step : PlanStep} {s : TaskLoopSnapshot}
    {w : StopReason × String × String} (h : requiresWaiting rt step s = some w) :
    w.1 = .riskGateRequired := by
  unfold requiresWaiting at h
  dsimp only at h
  split at h
  · exact absurd h (by simp)
  · split_ifs at h <;> exact Option.some.inj h ▸ rfl

/-! ### Presentation -/

/-- `visible_content_for`. -/
def visibleContentFor (state : TaskLoopState) (stepTitle : String) (reason : Option StopReason) :
    String :=
  match state, reason with
  | .completed, _ => "Task loop completed."
  | .waiting, some .riskGateRequired =>
    s!"Approval required before step '{stepTitle}' can run."
  | .waiting, some .userDecisionNeeded =>
    s!"Task loop paused after step '{stepTitle}' failed and needs user guidance."
  | .waiting, _ => s!"Waiting for user decision on step '{stepTitle}'."
  | .replanning, _ => s!"Step '{stepTitle}' failed and needs replanning."
  | _, some .failureAbortPolicy =>
    s!"Task loop stopped at step '{stepTitle}' because error behavior is set to abort on failure."
  | _, some .maxStepsReached =>
    s!"Task loop stopped at step '{stepTitle}' because the step budget was exhausted."
  | _, some .replanBudgetExhausted =>
    s!"Task loop stopped at step '{stepTitle}' because the replanning budget was exhausted."
  | _, some .noProgress =>
    s!"Task loop stopped at step '{stepTitle}' because no progress was detected."
  | _, _ => s!"Task loop stopped at step '{stepTitle}'."

/-- `completion_status_for`. -/
def completionStatusFor : TaskLoopState → CompletionStatus
  | .replanning => .needsReplan
  | .waiting => .waiting
  | .blocked => .blocked
  | .cancelled => .cancelled
  | .completed => .complete
  | _ => .incomplete

/-! ### Starting a step -/

/-- What `start_governed_step` hands back: a blocked result, or the started snapshot. -/
inductive StepGovernorResult where
  | blocked (result : TaskLoopResult)
  | started (snapshot : TaskLoopSnapshot)

/-- `_mark_started`. -/
def markStarted (s : TaskLoopSnapshot) (stepId : String) : Except PyError TaskLoopSnapshot :=
  let updates := fun t : TaskLoopSnapshot =>
    { t with pendingStep := stepId, stopReason := none, totalSteps := t.totalSteps + 1 }
  if s.state = .executing then .ok (updates s) else s.transitionTo .executing updates

/-- `start_governed_step`. -/
def startGovernedStep (s : TaskLoopSnapshot) (stepId stepTitle : String)
    (structuralResults : List (Option PyVal)) (nowTs : ℚ) : Except PyError StepGovernorResult := do
  let decision := canStartStep (runGovernorFromSnapshot s) nowTs
  if !decision.allowed then
    let blocked ← s.transitionTo .blocked fun t =>
      { t with
        pendingStep := stepId
        stopReason := some .maxStepsReached
        waitingReason := some decision.reason
        waitingSource := some "run_governor" }
    return .blocked {
      state := blocked.state
      stopReason := blocked.stopReason
      artifacts := blocked.artifacts
      visibleContent := visibleContentFor blocked.state stepTitle blocked.stopReason
      snapshot := blocked
      completionStatus := .blocked
      structuralResults := structuralResults }
  return .started (← markStarted s stepId)

/-- The snapshot of a step that has started. -/
@[simps]
def startedSnapshot (s : TaskLoopSnapshot) (stepId : String) : TaskLoopSnapshot :=
  { s with pendingStep := stepId, stopReason := none, totalSteps := s.totalSteps + 1 }

@[simp] lemma startedSnapshot_settings (s : TaskLoopSnapshot) (stepId : String) :
    (startedSnapshot s stepId).settings = s.settings := rfl

/-- The result of a run that the governor ends before a step. -/
def governorBlockedResult (s : TaskLoopSnapshot) (stepId stepTitle reason : String)
    (structuralResults : List (Option PyVal)) : TaskLoopResult :=
  let blocked := { s.moveTo .blocked with
    pendingStep := stepId
    stopReason := some .maxStepsReached
    waitingReason := some reason
    waitingSource := some "run_governor" }
  { state := .blocked
    stopReason := some .maxStepsReached
    artifacts := s.artifacts
    visibleContent := visibleContentFor .blocked stepTitle (some .maxStepsReached)
    snapshot := blocked
    completionStatus := .blocked
    structuralResults := structuralResults }

variable {s : TaskLoopSnapshot} {stepId stepTitle : String}
  {structuralResults : List (Option PyVal)} {nowTs : ℚ}

/-- An executing run starts a step that the governor allows. -/
lemma startGovernedStep_of_allowed (hs : s.state = .executing)
    (h : (canStartStep (runGovernorFromSnapshot s) nowTs).allowed = true) :
    startGovernedStep s stepId stepTitle structuralResults nowTs =
      .ok (.started (startedSnapshot s stepId)) := by
  simp [startGovernedStep, h, markStarted, hs, startedSnapshot, bind, Except.bind, pure,
    Except.pure]

/-- An executing run ends before a step that the governor does not allow. -/
lemma startGovernedStep_of_not_allowed (hs : s.state = .executing)
    (h : (canStartStep (runGovernorFromSnapshot s) nowTs).allowed = false) :
    startGovernedStep s stepId stepTitle structuralResults nowTs =
      .ok (.blocked (governorBlockedResult s stepId stepTitle
        (canStartStep (runGovernorFromSnapshot s) nowTs).reason structuralResults)) := by
  rw [startGovernedStep, h]
  rw [TaskLoopSnapshot.transitionTo_eq_ok (by simp [hs, allowedTransitions])]
  rfl

end Trion.TaskLoop
