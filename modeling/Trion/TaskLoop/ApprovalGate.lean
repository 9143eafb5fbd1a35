import Trion.Pipeline.PlanStepIds
import Trion.TaskLoop.Runs

/-!
# The approval gate

An approval that `continue_task_loop` hands to the loop lets through the step it was given
for and no other: the invariant below says that the approved id names the step at the index
at which the run was resumed, and that this index is executed only while the plan is the
one that was resumed.
-/

namespace Trion.TaskLoop

open Trion.Python Trion.Thinking Trion.Pipeline StepMachine

variable {W : Type} {cfg : LoopConfig W} {start st st' : LoopState W} {events : List LoopEvent}

/-- Every plan the replanner answers with for the loop has passed `validate_plan_step_ids`, as
it has for a replanner that is bound by `bind_validated_replanner`: the loop itself leaves the
validation to the callback. -/
def ValidatedReplanner (cfg : LoopConfig W) : Prop :=
  ∀ replanner, cfg.replannerFn = some replanner → ∀ world request plan world',
    replanner world request = (.plan plan, world') → plan.needsTaskLoop = true →
      validatePlanStepIds plan = ""

/-- A call whose plans have passed `validate_plan_step_ids`: the plan it starts, and every
plan its replanner answers with. -/
structure ValidatedCall (call : LoopCall W) : Prop where
  replanner : ValidatedReplanner call.cfg
  plan : call.resumes = none → validatePlanStepIds call.state.plan = ""

/-- The approval a run was started with is still in force: the approved id is the id of the
step at the index where the run started, and as long as the run is at that index it follows
the plan it started with. -/
structure ApprovalInForce (start st : LoopState W) : Prop where
  approved_eq : st.approvedStepId = start.approvedStepId
  id_at : st.plan.stepIds[start.snapshot.currentStepIndex]? = some start.approvedStepId
  index_le : start.snapshot.currentStepIndex ≤ st.snapshot.currentStepIndex
  unchanged : st.snapshot.currentStepIndex = start.snapshot.currentStepIndex →
    st.plan = start.plan ∧ st.snapshot.replanCount = start.snapshot.replanCount

/-- The approval in force, if there is one, is the one the run was started with. -/
structure ApprovalScope (start st : LoopState W) : Prop where
  distinct : DistinctStepIds st.plan
  scope : st.approvedStepId = "" ∨ ApprovalInForce start st

lemma ApprovalInForce.expands {step : PlanStep} {result : StepExecutionResult}
    {plan : ThinkingPlan} (h : ApprovalInForce start st)
    (hexpanded : isExpansion st.plan plan) :
    ApprovalInForce start (expandedState cfg st step result plan) where
  approved_eq := h.approved_eq
  id_at := by
    obtain ⟨id, hids⟩ := stepIds_of_isExpansion hexpanded
    change plan.stepIds[_]? = _
    rw [hids, List.getElem?_append_left (List.getElem?_eq_some_iff.1 h.id_at).1]
    exact h.id_at
  index_le := by
    simp only [expandedState, advancedSnapshot_currentStepIndex]
    exact h.index_le.trans (Nat.le_succ _)
  unchanged hindex := by
    simp only [expandedState, advancedSnapshot_currentStepIndex] at hindex
    exact absurd h.index_le (by omega)

lemma ApprovalInForce.advances {step : PlanStep} {result : StepExecutionResult}
    (h : ApprovalInForce start st) :
    ApprovalInForce start
      (continuedState cfg st step result (advancedSnapshot cfg st step result)) where
  approved_eq := h.approved_eq
  id_at := h.id_at
  index_le := by
    simp only [continuedState, advancedSnapshot_currentStepIndex]
    exact h.index_le.trans (Nat.le_succ _)
  unchanged hindex := by
    simp only [continuedState, advancedSnapshot_currentStepIndex] at hindex
    exact absurd h.index_le (by omega)

lemma ApprovalInForce.retries {step : PlanStep} {result : StepExecutionResult}
    (h : ApprovalInForce start st) :
    ApprovalInForce start
      (continuedState cfg st step result (retriedSnapshot cfg st step result)) where
  approved_eq := h.approved_eq
  id_at := h.id_at
  index_le := by
    simp only [continuedState, retriedSnapshot_currentStepIndex]
    exact h.index_le
  unchanged hindex := by
    simp only [continuedState, retriedSnapshot_currentStepIndex] at hindex ⊢
    simpa only [retriedSnapshot_replanCount] using h.unchanged hindex

/-- A step of the run keeps the approval within its scope; a replanning ends it. -/
lemma ApprovalScope.next (hreplanner : ValidatedReplanner cfg) (h : ApprovalScope start st)
    (hnext : NextCases cfg st events st') : ApprovalScope start st' := by
  cases hnext with
  | expands _ hexpanded =>
    obtain ⟨-, -, hplan, -⟩ := stepExpansion_eq_some hexpanded
    exact ⟨(isExpansion_iff.1 hplan).2.2, h.scope.imp id (·.expands hplan)⟩
  | advances => exact ⟨h.distinct, h.scope.imp id (·.advances)⟩
  | retries => exact ⟨h.distinct, h.scope.imp id (·.retries)⟩
  | replans _ hbound hreply hneeds =>
    exact ⟨distinctStepIds_of_validate (hreplanner _ hbound _ _ _ _ hreply hneeds), .inl rfl⟩

/-- Within the scope of the approval, a step that needs one starts only where the approval
was given, under the plan it was given for. -/
lemma ApprovalScope.starts {step : PlanStep} {wait : StopReason × String × String}
    (h : ApprovalScope start st) (hstarts : Starts cfg st step)
    (hwait : requiresWaiting cfg.rt step st.snapshot = some wait) :
    start.approvedStepId = step.stepId ∧ step.stepId ≠ "" ∧ st.plan = start.plan ∧
      st.snapshot.replanCount = start.snapshot.replanCount ∧
      start.plan.steps[start.snapshot.currentStepIndex]? = some step := by
  have happroved : step.stepId = st.approvedStepId := by
    have hgate := hstarts.approval_gate
    rw [waitingGate] at hgate
    split at hgate
    · assumption
    · rw [hwait] at hgate
      cases hgate
  have hne : step.stepId ≠ "" := h.distinct.stepId_ne_empty hstarts.step_at
  rcases h.scope with hempty | hforce
  · exact absurd (happroved.trans hempty) hne
  · have hid : start.approvedStepId = step.stepId := by
      rw [happroved, hforce.approved_eq]
    obtain ⟨approved, happrovedAt, happrovedId⟩ :
        ∃ a, st.plan.steps[start.snapshot.currentStepIndex]? = some a ∧
          a.stepId = start.approvedStepId := by
      simpa [ThinkingPlan.stepIds] using hforce.id_at
    have hindex : st.snapshot.currentStepIndex = start.snapshot.currentStepIndex :=
      h.distinct.index_eq hstarts.step_at happrovedAt (by rw [happrovedId, hid])
    obtain ⟨hplan, hcount⟩ := hforce.unchanged hindex
    refine ⟨hid, hne, hplan, hcount, ?_⟩
    rw [← hplan, ← hindex]
    exact hstarts.step_at

/-- A run that ends at the risk gate waits for the step at its index. -/
lemma riskGate_of_haltsWith {result : TaskLoopResult} {last : W} {plan : ThinkingPlan}
    (hreplanner : ValidatedReplanner cfg) (hs : st.snapshot.state = .executing)
    (hscope : ApprovalScope st st)
    (h : (loopStep cfg).HaltsWith st events { outcome := .ok result, world := last })
    (hplan : result.activePlan = some plan) (hwaiting : result.snapshot.state = .waiting) :
    DistinctStepIds plan ∧ (result.snapshot.stopReason = some .riskGateRequired →
      plan.stepIds[result.snapshot.currentStepIndex]? = some result.snapshot.pendingStep) := by
  obtain ⟨t, es₁, es₂, hreach, hlast, -⟩ := h.exists_last
  have hscope' := invariant_of_reaches (I := ApprovalScope st)
    (fun _ _ _ _ hinv hnext => hinv.next hreplanner hnext) hreach hs hscope
  rcases (haltCases (executing_of_reaches hreach hs) hlast).waiting hwaiting with
    ⟨step, wait, hpause, -, rfl⟩ | ⟨step, stepResult, -, haction, -, rfl⟩
  · obtain rfl : t.plan = plan := by simpa using hplan
    exact ⟨hscope'.distinct, fun _ => by
      simp [ThinkingPlan.stepIds, waitingResult, resultOf, waitingSnapshot, hpause.step_at]⟩
  · obtain rfl : t.plan = plan := by simpa using hplan
    refine ⟨hscope'.distinct, fun hrisk => ?_⟩
    have hstop : (stepDecision cfg t step stepResult).stopReason = some .userDecisionNeeded :=
      (Reflection.stopReason_of_waiting haction).1
    have : (stepDecision cfg t step stepResult).stopReason = some .riskGateRequired := hrisk
    rw [hstop] at this
    cases this

/-- A run that resumes a plan at the risk gate resumes it at the index where it waits. -/
lemma resumeIndex_of_riskGate {s : TaskLoopSnapshot} {totalSteps : ℕ}
    (h : s.stopReason = some .riskGateRequired) (hlt : resumeIndex s totalSteps < totalSteps) :
    resumeIndex s totalSteps = s.currentStepIndex := by
  rw [resumeIndex, if_pos h] at hlt ⊢
  omega

/-- Every call of a session starts within the scope of its approval. -/
lemma SessionCall.approvalScope {call : LoopCall W} {history : List LoopEvent}
    (h : SessionCall ValidatedCall call history) :
    ApprovalScope call.state call.state := by
  induction h with
  | start hcall => exact ⟨distinctStepIds_of_validate (hcall.plan rfl), .inl rfl⟩
  | «continue» hcall hhalts hplan hresumed _ ih =>
    obtain ⟨hwaiting, -, rfl⟩ := continueTaskLoop_resumed hresumed
    obtain ⟨hdistinct, hrisk⟩ :=
      riskGate_of_haltsWith hcall.property.replanner hcall.executing ih hhalts hplan hwaiting
    refine ⟨hdistinct, ?_⟩
    dsimp only [continuedFrom]
    split
    · rename_i hstop
      have hid := hrisk hstop
      have hlt := (List.getElem?_eq_some_iff.1 hid).1
      refine .inr ⟨rfl, ?_, le_rfl, fun _ => ⟨rfl, rfl⟩⟩
      rw [ThinkingPlan.length_stepIds] at hlt
      simpa [resumeIndex, hstop, min_eq_left hlt.le] using hid
    · exact .inl rfl

/-- In every call of a session, a step whose risk asks for approval is executed only if the
call resumes a snapshot that waits at the risk gate with exactly this step pending: the step
at the index at which that snapshot waits, under the plan and in the plan epoch it waits in. -/
theorem approval_gate {call : LoopCall W} {history : List LoopEvent}
    (h : SessionCall ValidatedCall call history)
    {e : Execution} (he : (loopStep call.cfg).Emits call.state (.executed e))
    {wait : StopReason × String × String}
    (hwait : requiresWaiting call.cfg.rt e.step e.snapshot = some wait) :
    ∃ s, call.resumes = some s ∧ s.state = .waiting ∧ s.stopReason = some .riskGateRequired ∧
      s.pendingStep = e.step.stepId ∧ e.plan = call.state.plan ∧
      e.plan.steps[s.currentStepIndex]? = some e.step ∧
      e.snapshot.replanCount = s.replanCount := by
  have hreplanner := h.property.replanner
  have hexecuted := forall_executed (I := ApprovalScope call.state)
    (P := fun e => ∀ wait, requiresWaiting call.cfg.rt e.step e.snapshot = some wait →
      call.state.approvedStepId = e.step.stepId ∧ e.step.stepId ≠ "" ∧ e.plan = call.state.plan ∧
        e.snapshot.replanCount = call.state.snapshot.replanCount ∧
        call.state.plan.steps[call.state.snapshot.currentStepIndex]? = some e.step)
    (fun _ _ _ _ hinv hnext => hinv.next hreplanner hnext)
    (fun s step _ hinv hstarts wait hwait => hinv.starts hstarts (by
      rw [← hwait]
      exact requiresWaiting_congr rfl rfl))
    he h.executing h.approvalScope
  obtain ⟨happroved, hne, hplan, hcount, hstep⟩ := hexecuted wait hwait
  cases h with
  | start => exact absurd happroved.symm hne
  | «continue» _ _ _ hresumed =>
    obtain ⟨hwaiting, -, rfl⟩ := continueTaskLoop_resumed hresumed
    dsimp only [continuedFrom] at happroved hplan hcount hstep
    split at happroved
    · rename_i hstop
      refine ⟨_, rfl, hwaiting, hstop, happroved, hplan, ?_, hcount⟩
      rw [hplan, ← resumeIndex_of_riskGate hstop (List.getElem?_eq_some_iff.1 hstep).1]
      exact hstep
    · exact absurd happroved.symm hne

/-! A plan of one step that needs approval: the first call waits, the second is approved. -/

/-- The state in which the plan starts. -/
def deletionStart : LoopState (List ToolReply) :=
  startTaskLoop .ascii deletionPlan { conversationId := "c" } [validReply []]

/-- The result with which the first call waits. -/
def deletionWaiting : TaskLoopResult :=
  { waitingResult deletionStart (deletionStep "tool_1")
      (.riskGateRequired, "risk_boundary", "approval_mode") with
    activePlan := some deletionPlan }

/-- The state in which the second call resumes it. -/
def deletionResumed : LoopState (List ToolReply) where
  plan := deletionPlan
  snapshot := resumeSnapshot 0 (deletionWaiting.snapshot.moveTo .executing)
  approvedStepId := "tool_1"
  world := [validReply []]

/-- The call that resumes it. -/
def deletionCall : LoopCall (List ToolReply) :=
  ⟨(scriptedConfig [("file_delete", {})]).continued, deletionResumed, some deletionWaiting.snapshot⟩

theorem approval_gate_deletion :
    ∃ s, deletionCall.resumes = some s ∧ s.state = .waiting ∧
      s.stopReason = some .riskGateRequired ∧ s.pendingStep = (deletionStep "tool_1").stepId ∧
      deletionPlan = deletionCall.state.plan ∧
      deletionPlan.steps[s.currentStepIndex]? = some (deletionStep "tool_1") ∧ 0 = s.replanCount :=
  have hreplanner : ValidatedReplanner (scriptedConfig [("file_delete", {})]) := by
    intro replanner hreplanner
    cases hreplanner
  have hfirst : (loopStep (scriptedConfig [("file_delete", {})])).HaltsWith deletionStart []
      { outcome := .ok deletionWaiting, world := [validReply []] } := .halt rfl
  have hresumed : continueTaskLoop .ascii deletionWaiting.snapshot "yes" deletionPlan none none
      [validReply []] = .resumed deletionResumed := rfl
  have hcall : SessionCall ValidatedCall deletionCall ([] ++ []) :=
    .continue (.start ⟨hreplanner, fun _ => by decide⟩) hfirst rfl hresumed
      ⟨hreplanner, fun hnone => nomatch hnone⟩
  have hwait : requiresWaiting .ascii (deletionStep "tool_1") deletionResumed.snapshot =
      some (.riskGateRequired, "risk_boundary", "approval_mode") := by decide
  approval_gate (e := stepExecution deletionCall.cfg deletionResumed (deletionStep "tool_1")) hcall
    ⟨[], deletionResumed, .refl _, List.mem_cons_self⟩ hwait

/-- A replanner that is not bound: its plan has a step without an id. -/
def unboundConfig : LoopConfig (List ToolReply) :=
  { scriptedConfig [("value_read", {}), ("file_delete", {})] with
    replannerFn := some fun script _ =>
      (.plan { deletionPlan with steps := [deletionStep ""] }, script) }

/-- A plan whose only step fails. -/
def unboundCall : LoopCall (List ToolReply) :=
  ⟨unboundConfig, startTaskLoop .ascii readingPlan { conversationId := "c", maxRetriesPerStep := 0 }
    [.raised "down", validReply []], none⟩

/-- The empty id is the one that no approval leaves, so the gate lets the replanned step
through. -/
theorem approval_gate_unbound :
    SessionCall (fun call => call.resumes = none → validatePlanStepIds call.state.plan = "")
      unboundCall [] ∧ unboundCall.resumes = none ∧
    ∃ e wait, (loopStep unboundCall.cfg).Emits unboundCall.state (.executed e) ∧
      requiresWaiting unboundCall.cfg.rt e.step e.snapshot = some wait ∧
      e.run.call.isSome = true :=
  have hfirst : (loopStep unboundCall.cfg).Reaches unboundCall.state _ _ := .single rfl
  ⟨.start fun _ => by decide, rfl, _, _, ⟨_, _, hfirst, List.mem_cons_self⟩, rfl, rfl⟩

end Trion.TaskLoop
