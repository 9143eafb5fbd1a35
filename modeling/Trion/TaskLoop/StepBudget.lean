import Mathlib.Order.WellFounded
import Trion.TaskLoop.Runs

/-!
# The step budget

The reflection blocks a run whose step budget is reached or that makes no progress, but an
expansion of the plan is taken up before the block is acted on.  As long as the follow-up
planner does not expand a plan there, the run stays below its budget and ends: every way of
going on uses up a replanning, an index below the budget, or a retry.
-/

namespace Trion.TaskLoop

open Trion.Python Trion.Thinking StepMachine

variable {W : Type} {cfg : LoopConfig W} {st st' : LoopState W} {events : List LoopEvent}
  {step : PlanStep} {result : StepExecutionResult}

/-- Where the reflection blocks a success, because the step budget is reached or no progress
is made, the follow-up planner answers with no plan that passes the checks of an expansion. -/
def HeedsBlock (cfg : LoopConfig W) (st : LoopState W) : Prop :=
  ∀ step result planner plan, Executes cfg st step result → result.status = .success →
    Reflection.stepBudgetReached st.snapshot = true ∨
      Reflection.noProgressReached result st.snapshot = true →
    cfg.followupPlanner = some planner →
    (planner (stepRun cfg st step).2 st.plan step result).1 = some plan → ¬isExpansion st.plan plan

/-- The step and the result of a pass are determined by its state. -/
lemma Executes.unique {step' : PlanStep} {result' : StepExecutionResult}
    (h : Executes cfg st step result) (h' : Executes cfg st step' result') :
    step' = step ∧ result' = result := by
  obtain rfl : step = step' := Option.some.inj (h.step_at.symm.trans h'.step_at)
  have houtcome := h.outcome.symm.trans h'.outcome
  exact ⟨rfl, (Except.ok.inj houtcome).symm⟩

/-- An expansion that heeds the block leaves the step budget unreached. -/
lemma HeedsBlock.stepBudgetReached {plan : ThinkingPlan} (h : HeedsBlock cfg st)
    (hexec : Executes cfg st step result)
    (hexpanded : (stepExpansion cfg st step result).1 = some plan) :
    Reflection.stepBudgetReached st.snapshot = false := by
  obtain ⟨hsuccess, -, hchecks, planner, hplanner, hreply⟩ := stepExpansion_eq_some hexpanded
  by_contra hreached
  rw [Bool.not_eq_false] at hreached
  exact h step result planner plan hexec hsuccess (.inl hreached) hplanner hreply hchecks

/-- A step that the reflection blocks has its plan not expanded. -/
lemma HeedsBlock.stepExpansion (h : HeedsBlock cfg st) (hexec : Executes cfg st step result)
    (hblock : (stepDecision cfg st step result).action = .block) :
    (stepExpansion cfg st step result).1 = none := by
  rw [Option.eq_none_iff_forall_ne_some]
  intro plan hexpanded
  obtain ⟨hsuccess, -, hchecks, planner, hplanner, hreply⟩ := stepExpansion_eq_some hexpanded
  have hreached := (Reflection.block_iff_of_success hsuccess).1 hblock
  exact h step result planner plan hexec hsuccess hreached hplanner hreply hchecks

/-- A block ends the run. -/
lemma HeedsBlock.halts (h : HeedsBlock cfg st) (hs : st.snapshot.state = .executing)
    (hexec : Executes cfg st step result)
    (hblock : (stepDecision cfg st step result).action = .block) :
    ∃ events last, loopStep cfg st = (events, .halt last) := by
  have hnone := h.stepExpansion hexec hblock
  rcases hloop : loopStep cfg st with ⟨events, t | last⟩
  · exfalso
    cases nextCases hs hloop with
    | expands hexec' hexpanded =>
      obtain ⟨rfl, rfl⟩ := hexec.unique hexec'
      rw [hnone] at hexpanded
      cases hexpanded
    | advances hexec' _ haction | retries hexec' _ haction =>
      obtain ⟨rfl, rfl⟩ := hexec.unique hexec'
      rw [hblock] at haction
      cases haction
    | replans hreplans =>
      obtain ⟨rfl, rfl⟩ := hexec.unique hreplans.toExecutes
      have haction := hreplans.source.action
      simp [hblock] at haction
  · exact ⟨events, last, rfl⟩

/-! ### Termination -/

/-- The retries counted for the step at the current index. -/
def currentRetries (st : LoopState W) : ℕ :=
  match st.plan.steps[st.snapshot.currentStepIndex]? with
  | some step => Reflection.getCount st.snapshot.retryCounts step.stepId
  | none => 0

/-- What a run has left: replannings, indices below the step budget, and retries. -/
def remainingBudget (st : LoopState W) : ℕ × ℕ × ℕ :=
  (st.snapshot.maxReplans.toNat - st.snapshot.replanCount,
    (max 1 st.snapshot.maxSteps).toNat - st.snapshot.currentStepIndex,
    st.snapshot.maxRetriesPerStep.toNat - currentRetries st)

/-- Smaller budgets: fewer replannings, or as many and fewer indices, or as many of both and
fewer retries. -/
abbrev BudgetLt : ℕ × ℕ × ℕ → ℕ × ℕ × ℕ → Prop :=
  Prod.Lex (· < ·) (Prod.Lex (· < ·) (· < ·))

lemma budgetLt_wellFounded : WellFounded BudgetLt :=
  WellFounded.prod_lex Nat.lt_wfRel.wf (WellFounded.prod_lex Nat.lt_wfRel.wf Nat.lt_wfRel.wf)

/-- The settings a snapshot keeps decide its bounds. -/
lemma bounds_of_settings {s t : TaskLoopSnapshot} (h : t.settings = s.settings) :
    t.maxSteps = s.maxSteps ∧ t.maxReplans = s.maxReplans ∧
      t.maxRetriesPerStep = s.maxRetriesPerStep :=
  ⟨congrArg SnapshotSettings.maxSteps h, congrArg SnapshotSettings.maxReplans h,
    congrArg SnapshotSettings.maxRetriesPerStep h⟩

/-- Advancing to an index below the step budget uses up an index. -/
lemma budgetLt_of_advance (hsettings : st'.snapshot.settings = st.snapshot.settings)
    (hcount : st'.snapshot.replanCount = st.snapshot.replanCount)
    (hindex : st'.snapshot.currentStepIndex = st.snapshot.currentStepIndex + 1)
    (hbudget : Reflection.stepBudgetReached st.snapshot = false) :
    BudgetLt (remainingBudget st') (remainingBudget st) := by
  obtain ⟨hsteps, hreplans, -⟩ := bounds_of_settings hsettings
  rw [Reflection.stepBudgetReached_eq_false] at hbudget
  rw [remainingBudget, remainingBudget, hsteps, hreplans, hcount, hindex]
  exact .right _ (.left _ _ (by omega))

/-- Every way of going on uses up some of the budget. -/
lemma budgetLt_of_next (hheeds : HeedsBlock cfg st) (h : NextCases cfg st events st') :
    BudgetLt (remainingBudget st') (remainingBudget st) := by
  have hsettings := h.settings
  cases h with
  | expands hexec hexpanded =>
    exact budgetLt_of_advance hsettings (advancedSnapshot_replanCount ..)
      (advancedSnapshot_currentStepIndex ..) (hheeds.stepBudgetReached hexec hexpanded)
  | advances _ _ haction _ =>
    exact budgetLt_of_advance hsettings (advancedSnapshot_replanCount ..)
      (advancedSnapshot_currentStepIndex ..) (Reflection.stepBudgetReached_of_continue haction)
  | @retries step result hexec _ haction hfailed =>
    obtain ⟨hsteps, hreplans, hretries⟩ := bounds_of_settings hsettings
    obtain ⟨hlt, hcounts⟩ := Reflection.retryCounts_of_retry haction hfailed
    have hbefore : currentRetries st =
        Reflection.getCount st.snapshot.retryCounts result.stepId := by
      rw [currentRetries, hexec.step_at, hexec.result.1]
    have hafter : currentRetries
        (continuedState cfg st step result (retriedSnapshot cfg st step result)) =
        Reflection.getCount st.snapshot.retryCounts result.stepId + 1 := by
      rw [currentRetries]
      simp only [continuedState, retriedSnapshot_currentStepIndex, hexec.step_at,
        retriedSnapshot_retryCounts]
      rw [stepDecision, hcounts, ← hexec.result.1, Reflection.getCount_setCount,
        reflectedSnapshot_retryCounts]
    have hmax : (reflectedSnapshot st step).maxRetriesPerStep = st.snapshot.maxRetriesPerStep :=
      (bounds_of_settings (reflectedSnapshot_settings st step)).2.2
    rw [reflectedSnapshot_retryCounts, hmax] at hlt
    rw [remainingBudget, remainingBudget, hbefore, hafter, hsteps, hreplans, hretries]
    simp only [continuedState, retriedSnapshot_currentStepIndex, retriedSnapshot_replanCount]
    exact .right _ (.right _ (by omega))
  | replans hreplans =>
    obtain ⟨-, hmax, -⟩ := bounds_of_settings hsettings
    obtain ⟨hcount, hlt⟩ := hreplans.source.replanCount
    rw [remainingBudget, remainingBudget, hmax]
    refine .left _ _ ?_
    rw [epochState, resetSnapshot_replanCount, TaskLoopSnapshot.moveTo_replanCount, hcount]
    omega

/-- A run whose follow-up planner heeds every block ends. -/
theorem halts_of_heedsBlock (hs : st.snapshot.state = .executing)
    (hheeds : ∀ events st', (loopStep cfg).Reaches st events st' → HeedsBlock cfg st') :
    (loopStep cfg).Halts st := by
  refine Machine.halts_of_wellFounded budgetLt_wellFounded remainingBudget
    (I := fun s => ∃ es, (loopStep cfg).Reaches st es s) ?_ ⟨[], .refl st⟩
  rintro s fs t ⟨es, hreach⟩ hstep
  have hexec := executing_of_reaches hreach hs
  exact ⟨⟨_, hreach.step hstep⟩, budgetLt_of_next (hheeds es s hreach) (nextCases hexec hstep)⟩

/-! ### The index -/

/-- The current index is below the step budget. -/
def WithinBudget (s : TaskLoopSnapshot) : Prop := (s.currentStepIndex : ℤ) < max 1 s.maxSteps

/-- A run goes on below its step budget. -/
lemma WithinBudget.next (hheeds : HeedsBlock cfg st) (hwithin : WithinBudget st.snapshot)
    (h : NextCases cfg st events st') : WithinBudget st'.snapshot := by
  obtain ⟨hsteps, -⟩ := bounds_of_settings h.settings
  rw [WithinBudget] at hwithin ⊢
  rw [hsteps]
  cases h with
  | expands hexec hexpanded =>
    have hbudget := hheeds.stepBudgetReached hexec hexpanded
    rw [Reflection.stepBudgetReached_eq_false] at hbudget
    simpa [expandedState] using hbudget
  | advances _ _ haction _ =>
    have hbudget : Reflection.stepBudgetReached st.snapshot = false :=
      Reflection.stepBudgetReached_of_continue haction
    rw [Reflection.stepBudgetReached_eq_false] at hbudget
    simpa [continuedState] using hbudget
  | retries => simpa [continuedState] using hwithin
  | replans =>
    rw [epochState, resetSnapshot_currentStepIndex]
    omega

/-- A run that waits is resumed below its step budget. -/
lemma withinBudget_of_waiting {waiting : TaskLoopResult} {last : W} (totalSteps : ℕ)
    (hwithin : WithinBudget st.snapshot)
    (h : HaltCases cfg st events { outcome := .ok waiting, world := last })
    (hwaiting : waiting.snapshot.state = .waiting) :
    WithinBudget (resumeSnapshot (resumeIndex waiting.snapshot totalSteps)
      (waiting.snapshot.moveTo .executing)) := by
  rw [WithinBudget] at hwithin ⊢
  rw [resumeSnapshot_currentStepIndex, resumeSnapshot_maxSteps,
    TaskLoopSnapshot.moveTo_maxSteps, resumeIndex]
  rcases h.waiting hwaiting with ⟨step, wait, hpause, -, rfl⟩ | ⟨step, result, -, haction, -, rfl⟩
  · change ((if some wait.1 = some .riskGateRequired then min st.snapshot.currentStepIndex totalSteps
      else min (st.snapshot.currentStepIndex + 1) totalSteps : ℕ) : ℤ) < max 1 st.snapshot.maxSteps
    rw [waitingGate_riskGate hpause.approval_gate, if_pos rfl]
    omega
  · obtain ⟨hstop, hbudget⟩ := Reflection.stopReason_of_waiting haction
    replace hbudget : Reflection.stepBudgetReached st.snapshot = false := hbudget
    rw [Reflection.stepBudgetReached_eq_false] at hbudget
    have hsteps := (bounds_of_settings (endedSnapshot_settings cfg st step result)).1
    change ((if (endedSnapshot cfg st step result).stopReason = some .riskGateRequired then
        min (endedSnapshot cfg st step result).currentStepIndex totalSteps
      else min ((endedSnapshot cfg st step result).currentStepIndex + 1) totalSteps : ℕ) : ℤ) <
        max 1 (endedSnapshot cfg st step result).maxSteps
    rw [hsteps, endedSnapshot_currentStepIndex, haction]
    split <;> simp only [reduceCtorEq, if_false, Nat.add_zero] <;> omega

/-! ### Sessions -/

/-- The follow-up planner of a call heeds every block of its run. -/
def HeedsBlocks (call : LoopCall W) : Prop :=
  ∀ events st, (loopStep call.cfg).Reaches call.state events st → HeedsBlock call.cfg st

/-- What the step budget promises of a run: it executes no step at an index that exceeds the
budget, a block ends it, and it ends. -/
structure StepBudgetKept (cfg : LoopConfig W) (start : LoopState W) : Prop where
  index_lt : ∀ e, (loopStep cfg).Emits start (.executed e) →
    (e.snapshot.currentStepIndex : ℤ) < max 1 e.snapshot.maxSteps
  block_ends : ∀ events st step result, (loopStep cfg).Reaches start events st →
    Executes cfg st step result → (stepDecision cfg st step result).action = .block →
    ∃ more last, loopStep cfg st = (more, .halt last)
  halts : (loopStep cfg).Halts start

/-- Every state of a run whose planner heeds the blocks is within the budget. -/
lemma withinBudget_of_reaches (hs : st.snapshot.state = .executing)
    (hheeds : ∀ events st', (loopStep cfg).Reaches st events st' → HeedsBlock cfg st')
    (hwithin : WithinBudget st.snapshot) (h : (loopStep cfg).Reaches st events st') :
    WithinBudget st'.snapshot := by
  induction h with
  | refl => exact hwithin
  | step hreach hstep ih =>
    exact ih.next (hheeds _ _ hreach)
      (nextCases (executing_of_reaches hreach hs) hstep)

/-- A call of a session whose planners heed the blocks starts within the budget. -/
lemma SessionCall.withinBudget {call : LoopCall W} {history : List LoopEvent}
    (h : SessionCall HeedsBlocks call history) :
    WithinBudget call.state.snapshot := by
  induction h with
  | start =>
    rw [WithinBudget]
    exact lt_of_lt_of_le Int.zero_lt_one (Int.le_max_left _ _)
  | «continue» hcall hhalts _ hresumed _ ih =>
    obtain ⟨hwaiting, -, rfl⟩ := continueTaskLoop_resumed hresumed
    obtain ⟨t, es₁, es₂, hreach, hlast, -⟩ := hhalts.exists_last
    exact withinBudget_of_waiting _
      (withinBudget_of_reaches hcall.executing hcall.property ih hreach)
      (haltCases (executing_of_reaches hreach hcall.executing) hlast) hwaiting

/-- The run of that plan with a budget of one step. -/
def readingStart : LoopState (List ToolReply) :=
  startTaskLoop .ascii readingPlan { conversationId := "c", maxSteps := 1 }
    [validReply [("value", .int 1)], validReply [("value", .int 2)]]

/-- The configuration with a follow-up planner that appends a step to every plan. -/
def appendingConfig : LoopConfig (List ToolReply) :=
  { scriptedConfig [("value_read", {})] with
    followupPlanner := some fun world plan step _ =>
      (some { plan with steps := plan.steps ++ [readingStep (step.stepId ++ "_followup")] },
        world) }

end Trion.TaskLoop
