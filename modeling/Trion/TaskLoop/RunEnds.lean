import Trion.TaskLoop.StepBudget

/-!
# How runs end

A call of a session ends with a result that is completed, blocked or waiting, or that is left
replanning because there is no replanner.  It raises only where nothing is left to run, where
`execute_step` or the replanner raises, or where the completion gate cannot read an artifact;
nothing is left to run where a plan has no steps and where a run that waited after its last
step is resumed.
-/

namespace Trion.TaskLoop

open Trion.Python Trion.Thinking StepMachine

variable {W : Type} {cfg : LoopConfig W} {st st' : LoopState W} {events : List LoopEvent}
  {step : PlanStep} {result : StepExecutionResult}

/-- A result that a run may end with. -/
def Settled (cfg : LoopConfig W) (result : TaskLoopResult) : Prop :=
  result.snapshot.state = result.state ∧
    (result.state ∈ [TaskLoopState.completed, .blocked, .waiting] ∨
      result.state = .replanning ∧ cfg.replannerFn = none)

/-- A call has nothing to run from its beginning: its plan has no steps, or it resumes a run
that waited for a decision after the last step of its plan. -/
def NothingToResume (call : LoopCall W) : Prop :=
  call.state.plan.steps = [] ∨ ∃ s, call.resumes = some s ∧
    s.stopReason ≠ some .riskGateRequired ∧ s.currentStepIndex + 1 = call.state.plan.steps.length

/-- How a call of the loop ends, after the events it has emitted. -/
inductive CallEnd (call : LoopCall W) : List LoopEvent → LoopEnd W → Prop
  | returns {events : List LoopEvent} {result : TaskLoopResult} {world : W} :
      Settled call.cfg result → CallEnd call events { outcome := .ok result, world := world }
  | nothingToResume {world : W} : NothingToResume call →
      CallEnd call [] { outcome := .error invalidCompletion, world := world }
  | replannedEmpty {events : List LoopEvent} {request : ReplanRequest} {plan : ThinkingPlan}
      {world : W} : plan.steps = [] →
      CallEnd call (events ++ [.replanned request (.plan plan)])
        { outcome := .error invalidCompletion, world := world }
  | stepRaises {events : List LoopEvent} {execution : Execution} {e : PyError} {world : W} :
      execution.run.outcome = .error e →
      CallEnd call (events ++ [.executed execution]) { outcome := .error e, world := world }
  | unreadable {events : List LoopEvent} {execution : Execution} {result : StepExecutionResult}
      {artifact : PyVal} {world : W} : execution.run.outcome = .ok result →
      artifact ∈ execution.snapshot.artifacts ++ result.artifacts → artifact.asDict? = none →
      CallEnd call (events ++ [.executed execution])
        { outcome := .error .attributeError, world := world }
  | replannerRaises {events : List LoopEvent} {request : ReplanRequest} {e : PyError} {world : W} :
      CallEnd call (events ++ [.replanned request (.raised e)])
        { outcome := .error e, world := world }

/-! ### Results -/

/-- The state in which the reflection on a step ends a run. -/
lemma endedResult_settled
    (haction : (stepDecision cfg st step result).action ∈ [ReflectionAction.waiting, .block] ∨
      (stepDecision cfg st step result).action = .replan ∧ cfg.replannerFn = none) :
    Settled cfg { endedResult cfg st step result with activePlan := some st.plan } := by
  refine ⟨rfl, ?_⟩
  change (endedSnapshot cfg st step result).state ∈ _ ∨
    (endedSnapshot cfg st step result).state = _ ∧ _
  rw [endedSnapshot_state]
  rcases haction with haction | ⟨haction, hnone⟩
  · simp only [List.mem_cons, List.not_mem_nil, or_false] at haction
    rcases haction with haction | haction <;> simp [haction, targetState]
  · exact .inr ⟨by rw [haction]; rfl, hnone⟩

/-- The state in which the completion gate ends a run. -/
lemma Finalized.settled {final : TaskLoopResult} {failed : Option StepExecutionResult}
    (h : Finalized cfg.completion st.plan (endedSnapshot cfg st step result)
      (structuralResultsAfter st result) (passClock cfg st).completion final failed)
    (haction : (stepDecision cfg st step result).action = .completed)
    (hfailed : failed = none ∨ cfg.replannerFn = none) :
    Settled cfg { final with activePlan := some st.plan } := by
  cases h with
  | complete =>
    refine ⟨rfl, .inl ?_⟩
    change (endedSnapshot cfg st step result).state ∈ _
    rw [endedSnapshot_state, haction]
    exact List.mem_cons_self
  | replan => exact ⟨rfl, .inr ⟨rfl, hfailed.resolve_left (by simp)⟩⟩
  | block => exact ⟨rfl, .inl (by simp [resultOf])⟩

/-- A run that returns returns a settled result. -/
lemma HaltCases.settled {final : TaskLoopResult} {world : W}
    (h : HaltCases cfg st events { outcome := .ok final, world := world }) :
    Settled cfg final := by
  cases h with
  | receiptMissing => exact ⟨rfl, .inl (by simp [receiptBlockedResult, resultOf])⟩
  | waits => exact ⟨rfl, .inl (by simp [waitingResult, resultOf])⟩
  | governorBlocks => exact ⟨rfl, .inl (by simp [governorBlockedResult])⟩
  | stops _ _ haction => exact endedResult_settled haction
  | completes _ _ haction hfinalized hfailed => exact hfinalized.settled haction hfailed
  | violates => exact ⟨rfl, .inl (by simp [resultOf])⟩
  | answers => exact ⟨rfl, .inl (by simp [resultOf])⟩

/-! ### Steps left -/

/-- The current index is that of a step. -/
def OnStep (st : LoopState W) : Prop := st.snapshot.currentStepIndex < st.plan.steps.length

lemma Starts.onStep (h : Starts cfg st step) : OnStep st :=
  (List.getElem?_eq_some_iff.mp h.step_at).1

/-- A run goes on at a step, unless it has been given an empty plan. -/
lemma NextCases.onStep (h : NextCases cfg st events st') :
    OnStep st' ∨ st'.plan.steps = [] ∧
      ∃ earlier request, events = earlier ++ [.replanned request (.plan st'.plan)] := by
  cases h with
  | @expands step result plan hexec hexpanded =>
    obtain ⟨-, hlast, hchecks, -⟩ := stepExpansion_eq_some hexpanded
    refine .inl ?_
    simp only [isExpansion, Bool.and_eq_true, decide_eq_true_eq] at hchecks
    have hlength : plan.steps.length = st.plan.steps.length + 1 := hchecks.1.1
    rw [OnStep, expandedState, advancedSnapshot_currentStepIndex, hlength, ← hlast]
    exact Nat.lt_succ_self _
  | @advances step result hexec _ haction hsuccess =>
    have hon := hexec.toStarts.onStep
    refine .inl ?_
    have hmore : st.snapshot.currentStepIndex + 1 < max 1 st.plan.steps.length := by
      have hdecides := Reflection.decides_evaluate cfg.rt result (reflectedSnapshot st step)
        st.plan.steps.length (passClock cfg st).reflection
      rw [stepDecision] at haction
      generalize Reflection.evaluate cfg.rt result (reflectedSnapshot st step)
        st.plan.steps.length (passClock cfg st).reflection = decision at haction hdecides
      cases hdecides with
      | «continue» _ _ _ hmore => simpa using hmore
      | retry _ _ _ hfailed => exact absurd hsuccess hfailed
      | _ => cases haction
    rw [OnStep] at hon ⊢
    simp only [continuedState, advancedSnapshot_currentStepIndex]
    omega
  | @retries step result hexec =>
    refine .inl ?_
    have hon := hexec.toStarts.onStep
    rw [OnStep] at hon ⊢
    simpa [continuedState] using hon
  | @replans step result request replanner replanned =>
    by_cases hempty : replanned.steps = []
    · exact .inr ⟨hempty, [.executed (stepExecution cfg st step)], request, rfl⟩
    · refine .inl ?_
      rw [OnStep, epochState, resetSnapshot_currentStepIndex]
      exact List.length_pos_of_ne_nil hempty

/-- Where a run is, it is at a step, at its beginning, or at an empty plan it was given. -/
lemma onStep_of_reaches (h : (loopStep cfg).Reaches st events st')
    (hs : st.snapshot.state = .executing) :
    OnStep st' ∨ (st' = st ∧ events = []) ∨ st'.plan.steps = [] ∧
      ∃ earlier request, events = earlier ++ [.replanned request (.plan st'.plan)] := by
  cases h with
  | refl => exact .inr (.inl ⟨rfl, rfl⟩)
  | @step _ _ es fs hreach hstep =>
    rcases (nextCases (executing_of_reaches hreach hs) hstep).onStep with
      hon | ⟨hempty, earlier, request, rfl⟩
    · exact .inl hon
    · exact .inr (.inr ⟨hempty, es ++ earlier, request, by rw [List.append_assoc]⟩)

/-- A call that begins at no step has nothing to run. -/
lemma SessionCall.nothingToResume {P : LoopCall W → Prop} {call : LoopCall W}
    {history : List LoopEvent} (h : SessionCall P call history) (hon : ¬OnStep call.state) :
    NothingToResume call := by
  cases h with
  | @start cfg plan options world =>
    change ¬0 < plan.steps.length at hon
    have hzero : plan.steps.length = 0 := by omega
    exact .inl (List.length_eq_zero_iff.mp hzero)
  | @«continue» before _ _ result _ _ _ plan _ _ _ _ hcall hhalts hplan hresumed =>
    obtain ⟨hwaiting, -, rfl⟩ := continueTaskLoop_resumed hresumed
    obtain ⟨t, es₁, es₂, hreach, hlast, -⟩ := hhalts.exists_last
    have hcases := haltCases (executing_of_reaches hreach hcall.executing) hlast
    simp only [OnStep, continuedFrom, resumeSnapshot_currentStepIndex, resumeIndex] at hon
    refine .inr ⟨result.snapshot, rfl, ?_⟩
    rcases hcases.waiting hwaiting with
      ⟨step, wait, hpauses, -, rfl⟩ | ⟨step, stepResult, hexec, haction, -, rfl⟩
    · -- the step that waits for approval is one of the plan
      obtain rfl := Option.some.inj hplan
      have hat := (List.getElem?_eq_some_iff.mp hpauses.step_at).1
      have hreason : some wait.1 = some StopReason.riskGateRequired :=
        congrArg some (waitingGate_riskGate hpauses.approval_gate)
      simp only [waitingResult, resultOf, waitingSnapshot_stopReason, hreason, if_true,
        waitingSnapshot_currentStepIndex, TaskLoopSnapshot.moveTo_currentStepIndex] at hon
      omega
    · obtain rfl := Option.some.inj hplan
      have hat := (List.getElem?_eq_some_iff.mp hexec.step_at).1
      have hindex : (endedSnapshot before.cfg t step stepResult).currentStepIndex =
          t.snapshot.currentStepIndex := by
        rw [endedSnapshot_currentStepIndex, haction]
        simp
      have hreason : (endedSnapshot before.cfg t step stepResult).stopReason =
          some .userDecisionNeeded := by
        rw [endedSnapshot_stopReason]
        exact (Reflection.stopReason_of_waiting haction).1
      simp only [endedResult, resultOf, hreason, hindex] at hon ⊢
      refine ⟨by simp, ?_⟩
      rw [if_neg (by simp)] at hon
      change t.snapshot.currentStepIndex + 1 = t.plan.steps.length
      omega

/-! ### The ends -/

/-- An artifact that cannot be read is no mapping. -/
lemma exists_unreadable {rt : PyRuntime} {artifacts : List PyVal} {e : PyError}
    (h : artifacts.mapM (EvidenceArtifact.fromDict rt) = .error e) :
    ∃ artifact ∈ artifacts, artifact.asDict? = none := by
  induction artifacts with
  | nil => cases h
  | cons artifact rest ih =>
    cases hread : artifact.asDict? with
    | none => exact ⟨artifact, List.mem_cons_self, hread⟩
    | some d =>
      obtain rfl : artifact = .dict d := by
        cases artifact <;> simp_all [PyVal.asDict?]
      have hrest : rest.mapM (EvidenceArtifact.fromDict rt) = .error e := by
        cases hrest : rest.mapM (EvidenceArtifact.fromDict rt) with
        | error e' => simpa [List.mapM_cons, EvidenceArtifact.fromDict, hrest, bind, Except.bind] using h
        | ok read =>
          simp [List.mapM_cons, EvidenceArtifact.fromDict, hrest, bind, Except.bind, pure,
            Except.pure] at h
      obtain ⟨artifact, hmem, hnone⟩ := ih hrest
      exact ⟨artifact, List.mem_cons_of_mem _ hmem, hnone⟩

/-- A run ends in one of the ways of its call. -/
lemma SessionCall.callEnd {P : LoopCall W → Prop} {call : LoopCall W} {history : List LoopEvent}
    {last : LoopEnd W} (h : SessionCall P call history)
    (hhalts : (loopStep call.cfg).HaltsWith call.state events last) : CallEnd call events last := by
  obtain ⟨t, es₁, es₂, hreach, hlast, rfl⟩ := hhalts.exists_last
  have hexecuting := executing_of_reaches hreach h.executing
  have hcases := haltCases hexecuting hlast
  have hended : ∀ world, ¬OnStep t →
      CallEnd call (es₁ ++ []) { outcome := .error invalidCompletion, world := world } := by
    rintro world hon
    rw [List.append_nil]
    rcases onStep_of_reaches hreach h.executing with
      hon' | ⟨rfl, rfl⟩ | ⟨hempty, earlier, request, rfl⟩
    · exact absurd hon' hon
    · exact .nothingToResume (h.nothingToResume hon)
    · exact .replannedEmpty hempty
  cases hcases with
  | emptyPlan hempty => exact hended _ (by simp [OnStep, hempty])
  | pastEnd _ hend => exact hended _ (by simpa [OnStep] using hend)
  | receiptMissing hstep hrequired hnone =>
    exact .returns (HaltCases.receiptMissing hstep hrequired hnone).settled
  | waits hstep hreceipt hwait => exact .returns (HaltCases.waits hstep hreceipt hwait).settled
  | governorBlocks hstep hblocked =>
    exact .returns (HaltCases.governorBlocks hstep hblocked).settled
  | raises hstarts hraises => exact .stepRaises hraises
  | completionRaises hexec _ _ hartifacts =>
    obtain ⟨artifact, hmem, hnone⟩ := exists_unreadable hartifacts
    rw [endedSnapshot_artifacts] at hmem
    exact .unreadable hexec.outcome hmem hnone
  | stops hexec hnone haction => exact .returns (HaltCases.stops hexec hnone haction).settled
  | completes hexec hnone haction hfinalized hfailed =>
    exact .returns (HaltCases.completes hexec hnone haction hfinalized hfailed).settled
  | @replannerRaises step _ request _ e =>
    rw [← List.singleton_append, ← List.append_assoc]
    exact .replannerRaises
  | violates hreplans hreplanner hreply =>
    exact .returns (HaltCases.violates hreplans hreplanner hreply).settled
  | answers hreplans hreplanner hreply hneeds =>
    exact .returns (HaltCases.answers hreplans hreplanner hreply hneeds).settled

/-- A call that reads a value, without a follow-up planner. -/
def onceReadCall : LoopCall (List ToolReply) where
  cfg := scriptedConfig [("value_read", {})]
  state := readingStart
  resumes := none

end Trion.TaskLoop
