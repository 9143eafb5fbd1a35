import Mathlib.Data.List.Dedup
import Trion.Pipeline.ReceiptValidation
import Trion.TaskLoop.Runs

/-!
# Completed runs under receipts

Under receipts the validator sees before every step all that was executed in the plan so far
and lets the step run only if it is position by position the plan.  So a run that completes
has executed exactly its plan, once and successfully, and what it recorded lines up with the
plan: the attestation accepts it.
-/

namespace Trion.Pipeline

open Trion.Python Trion.Thinking Trion.TaskLoop Trion.RoutingFrame Trion.Orchestrator StepMachine

variable {W : Type} {basis : ValidatorBasis}

/-! ### What the validator has checked -/

/-- The plan position of a step that the validator let run. -/
structure Accepted (basis : ValidatorBasis) (plan : ThinkingPlan) (step : PlanStep)
    (s : TaskLoopSnapshot) (receipt : StepOperationReceipt) : Prop where
  names : ∀ id ∈ plan.stepIds, IsName id
  nodup : plan.stepIds.Nodup
  completed : s.completedSteps = plan.stepIds.take s.currentStepIndex
  length : s.stepOperationExecutions.length = s.currentStepIndex
  executions : validExecutions basis none plan.steps s.stepOperationExecutions = true
  valid : validForStep basis step receipt s.stepOperationExecutions.getLast? = true
  stepId : receipt.stepId = step.stepId

lemma stepId_of_validForStep {step : PlanStep} {receipt : StepOperationReceipt}
    {predecessor : Option StepOperationExecution}
    (h : validForStep basis step receipt predecessor = true) : receipt.stepId = step.stepId := by
  simp only [validForStep, Bool.and_eq_true, decide_eq_true_eq] at h
  exact h.1.1

/-- What a receipt from the validator says of the position it was asked at. -/
lemma accepted_of_validator {plan : ThinkingPlan} {step : PlanStep} {s : TaskLoopSnapshot}
    {candidate receipt : StepOperationReceipt}
    (hstep : plan.steps[s.currentStepIndex]? = some step)
    (h : buildStepReceiptValidator basis plan step candidate
      (receiptValidationContext step plan s) = some receipt) :
    Accepted basis plan step s receipt := by
  unfold buildStepReceiptValidator at h
  split at h
  · rename_i hpre
    have hat : plan.steps[(receiptValidationContext step plan s).currentStepIndex]? = some step :=
      hstep
    rw [hat] at h
    dsimp only at h
    split at h
    · rename_i hcurrent
      obtain rfl := Option.some.inj h
      unfold validatedPrefix at hpre
      obtain ⟨hnames, hnodup, -, -, hcompleted, hlength, hexecutions, -⟩ :=
        of_decide_eq_true hpre
      exact ⟨hnames, hnodup, hcompleted, hlength, hexecutions, hcurrent.2,
        stepId_of_validForStep hcurrent.2⟩
    · cases h
  · cases h

/-- Valid executions are successes of the steps at their positions. -/
lemma validExecutions_at {steps : List PlanStep} {executions : List StepOperationExecution}
    {previous : Option StepOperationExecution} {i : ℕ} {execution : StepOperationExecution}
    (h : validExecutions basis previous steps executions = true)
    (hi : executions[i]? = some execution) :
    ∃ step, steps[i]? = some step ∧ execution.status = .success ∧
      validForStep basis step execution.receipt
        (((executions.take i).getLast?).or previous) = true := by
  induction executions generalizing steps previous i with
  | nil => simp at hi
  | cons e executions ih =>
    cases steps with
    | nil => simp [validExecutions] at h
    | cons step steps =>
      simp only [validExecutions, Bool.and_eq_true, decide_eq_true_eq] at h
      obtain ⟨⟨⟨hstatus, -⟩, hvalid⟩, hrest⟩ := h
      cases i with
      | zero =>
        obtain rfl : e = execution := by simpa using hi
        exact ⟨step, rfl, hstatus, by simpa using hvalid⟩
      | succ i =>
        obtain ⟨step', hstep', hsuccess, hvalid'⟩ := ih hrest (by simpa using hi)
        refine ⟨step', by simpa using hstep', hsuccess, ?_⟩
        rw [List.take_succ_cons, List.getLast?_cons]
        cases hlast : (executions.take i).getLast? <;> simpa [hlast] using hvalid'

/-- The front of valid executions is valid. -/
lemma validExecutions_take {steps : List PlanStep} {executions : List StepOperationExecution}
    {previous : Option StepOperationExecution} (i : ℕ)
    (h : validExecutions basis previous steps executions = true) :
    validExecutions basis previous steps (executions.take i) = true := by
  induction executions generalizing steps previous i with
  | nil => simpa using h
  | cons e executions ih =>
    cases i with
    | zero => simp [validExecutions]
    | succ i =>
      cases steps with
      | nil => simp [validExecutions] at h
      | cons step steps =>
        simp only [List.take_succ_cons, validExecutions, Bool.and_eq_true] at h ⊢
        exact ⟨h.1, ih i h.2⟩

/-- One more valid execution after valid ones. -/
lemma validExecutions_append {steps : List PlanStep} {executions : List StepOperationExecution}
    {previous : Option StepOperationExecution} {step : PlanStep}
    {execution : StepOperationExecution}
    (h : validExecutions basis previous steps executions = true)
    (hstep : steps[executions.length]? = some step) (hsuccess : execution.status = .success)
    (hvalid : validForStep basis step execution.receipt (executions.getLast?.or previous) = true) :
    validExecutions basis previous steps (executions ++ [execution]) = true := by
  induction executions generalizing steps previous with
  | nil =>
    cases steps with
    | nil => simp at hstep
    | cons s steps =>
      obtain rfl : s = step := by simpa using hstep
      simpa [validExecutions, hsuccess, stepId_of_validForStep hvalid] using hvalid
  | cons e executions ih =>
    cases steps with
    | nil => simp at hstep
    | cons s steps =>
      simp only [List.cons_append, validExecutions, Bool.and_eq_true] at h ⊢
      refine ⟨h.1, ih h.2 (by simpa using hstep) ?_⟩
      rw [List.getLast?_cons] at hvalid
      cases hlast : executions.getLast? <;> simpa [hlast] using hvalid

/-- Valid executions of a whole plan have its step ids and are successes. -/
lemma validExecutions_all {steps : List PlanStep} {executions : List StepOperationExecution}
    {previous : Option StepOperationExecution}
    (h : validExecutions basis previous steps executions = true)
    (hlength : executions.length = steps.length) :
    executions.map (·.receipt.stepId) = steps.map (·.stepId) ∧
      ∀ execution ∈ executions, execution.status = .success := by
  induction executions generalizing steps previous with
  | nil =>
    obtain rfl := List.length_eq_zero_iff.mp hlength.symm
    simp
  | cons e executions ih =>
    cases steps with
    | nil => simp at hlength
    | cons step steps =>
      simp only [validExecutions, Bool.and_eq_true, decide_eq_true_eq] at h
      obtain ⟨⟨⟨hstatus, hid⟩, -⟩, hrest⟩ := h
      obtain ⟨hids, hsuccesses⟩ := ih hrest (by simpa using hlength)
      refine ⟨by simp [hid, hids], ?_⟩
      rintro execution hmem
      rcases List.mem_cons.mp hmem with rfl | hmem
      · exact hstatus
      · exact hsuccesses execution hmem

/-! ### The attestation -/

lemma fingerprint_of_validForStep {step : PlanStep} {receipt : StepOperationReceipt}
    {predecessor : Option StepOperationExecution}
    (h : validForStep basis step receipt predecessor = true) :
    receipt.operationContractFingerprint =
      operationContractFingerprintFromContext basis.context := by
  simp only [validForStep, Bool.and_eq_true] at h
  have hnonempty : authorizedContractForReceipt basis.env basis.context (some receipt)
      (predecessor.map executionPredecessor) ≠ [] := by
    intro hempty
    have hcontract := h.1.2
    rw [hempty] at hcontract
    exact absurd hcontract (by decide)
  exact fingerprint_of_contractForReceipt hnonempty

/-- Valid executions of a whole plan are attested. -/
theorem attest_of_validExecutions {plan : ThinkingPlan} {result : TaskLoopResult}
    (hstate : result.state = .completed) (hstatus : result.completionStatus = .complete)
    (hne : plan.steps ≠ []) (hnames : ∀ id ∈ plan.stepIds, IsName id)
    (hnodup : plan.stepIds.Nodup) (hcompleted : result.snapshot.completedSteps = plan.stepIds)
    (hlength : result.snapshot.stepOperationExecutions.length = plan.steps.length)
    (hvalid : validExecutions basis none plan.steps
      result.snapshot.stepOperationExecutions = true) :
    attestCompletedExecution plan result (buildStepReceiptValidator basis plan) = some {
      completedStepIds := plan.stepIds
      operationContractFingerprint :=
        operationContractFingerprintFromContext basis.context } := by
  generalize hexecutions : result.snapshot.stepOperationExecutions = executions at *
  have hat : ∀ i < plan.steps.length, attestedAt (buildStepReceiptValidator basis plan) plan
      executions i = true := by
    intro i hi
    obtain ⟨execution, hexecution⟩ : ∃ execution, executions[i]? = some execution :=
      ⟨_, List.getElem?_eq_getElem (hlength ▸ hi)⟩
    obtain ⟨step, hstep, hsuccess, hstepValid⟩ := validExecutions_at hvalid hexecution
    have hpre : validatedPrefix basis plan.steps (attestationContext plan executions i) = true :=
      decide_eq_true ⟨hnames, hnodup, rfl, by simp [attestationContext]; omega, rfl,
        by simp [attestationContext, hlength]; omega, validExecutions_take i hvalid, rfl⟩
    rw [attestedAt, hstep, hexecution]
    refine decide_eq_true ⟨hsuccess, ?_⟩
    rw [buildStepReceiptValidator, if_pos hpre]
    have hcurrent : plan.steps[(attestationContext plan executions i).currentStepIndex]? =
        some step := hstep
    rw [hcurrent]
    exact if_pos ⟨rfl, by simpa [attestationContext] using hstepValid⟩
  have hfingerprints : executions.map (·.receipt.operationContractFingerprint) =
      List.replicate plan.steps.length (operationContractFingerprintFromContext basis.context) := by
    rw [← hlength]
    refine List.map_eq_replicate_iff.mpr fun execution hmem => ?_
    obtain ⟨i, hi⟩ := List.getElem?_of_mem hmem
    obtain ⟨_, -, -, hstepValid⟩ := validExecutions_at hvalid hi
    exact fingerprint_of_validForStep hstepValid
  have hpos : plan.steps.length ≠ 0 := by simpa using hne
  unfold attestCompletedExecution
  rw [hexecutions]
  dsimp only
  rw [if_pos ⟨hstate, hstatus, hcompleted, hlength, List.all_eq_true.mpr fun i hi =>
    hat i (List.mem_range.mp hi)⟩, hfingerprints, List.replicate_dedup hpos]

/-! ### What a run records -/

/-- The results of the executions among the events, in order. -/
def resultsOf (events : List LoopEvent) : List StepExecutionResult :=
  events.filterMap fun
    | .executed e => e.run.outcome.toOption
    | .replanned _ _ => none

@[simp] lemma resultsOf_append (es fs : List LoopEvent) :
    resultsOf (es ++ fs) = resultsOf es ++ resultsOf fs :=
  List.filterMap_append

/-- The record of a result that has a receipt. -/
def recordOf (result : StepExecutionResult) : Option StepOperationExecution :=
  result.receipt.map fun receipt => { receipt := receipt, status := result.status }

/-- What a plan's executions have left in the snapshot and in the structural results. -/
structure Recorded (done : List StepExecutionResult) (st : LoopState W) : Prop where
  executions : st.snapshot.stepOperationExecutions.map some = done.map recordOf
  structural : st.structuralResults =
    (done.filter fun result => result.status = .success).map (·.structuralResult)
  receipts : ∀ result ∈ done, ∀ receipt ∈ result.receipt, receipt.stepId = result.stepId

/-- How a run under receipts is set up: with the validator of its plan and the factory that
builds the validators of later plans, or, where the context is inconsistent, with neither. -/
structure ReceiptMode (basis : ValidatorBasis) (cfg : LoopConfig W) (plan : ThinkingPlan)
    (validator : Option ReceiptValidator) : Prop where
  mode : cfg.receiptMode = true
  validators : validator = some (buildStepReceiptValidator basis plan) ∧
      cfg.receiptValidatorFactory = some (buildStepReceiptValidatorFactory basis) ∨
    validator = none ∧ cfg.receiptValidatorFactory = none

variable {cfg : LoopConfig W} {st st' : LoopState W} {events : List LoopEvent}
  {step : PlanStep} {result : StepExecutionResult}

/-- Under receipts a step runs only with a receipt that the validator of the plan accepted. -/
lemma ReceiptMode.accepted (h : ReceiptMode basis cfg st.plan st.receiptValidator)
    (hexec : Executes cfg st step result) :
    ∃ receipt, result.receipt = some receipt ∧ Accepted basis st.plan step st.snapshot receipt := by
  have hrequired : receiptRequired cfg st = true := by
    simp [receiptRequired, receiptProtocolActive, h.mode]
  obtain ⟨receipt, hreceipt⟩ := Option.isSome_iff_exists.mp (hexec.receipt_gate hrequired)
  obtain ⟨validate, candidate, hvalidate, hvalidated⟩ := exists_validator_of_receiptForStep hreceipt
  refine ⟨receipt, hexec.result.2.trans hreceipt, ?_⟩
  rcases h.validators with ⟨hvalidator, -⟩ | ⟨hvalidator, -⟩
  · obtain rfl := Option.some.inj (hvalidator.symm.trans hvalidate)
    exact accepted_of_validator hexec.step_at hvalidated
  · rw [hvalidator] at hvalidate
    cases hvalidate

/-- The next plan of a run has its own validator. -/
lemma ReceiptMode.next (h : ReceiptMode basis cfg st.plan st.receiptValidator)
    (hnext : NextCases cfg st events st') :
    ReceiptMode basis cfg st'.plan st'.receiptValidator := by
  refine ⟨h.mode, ?_⟩
  cases hnext with
  | expands hexec hexpanded =>
    rcases h.validators with ⟨-, hfactory⟩ | ⟨hvalidator, hfactory⟩
    · exact .inl ⟨by simp only [expandedState, hfactory]; rfl, hfactory⟩
    · exact .inr ⟨by simp only [expandedState, hfactory]; exact hvalidator, hfactory⟩
  | advances | retries => exact h.validators
  | replans =>
    rcases h.validators with ⟨-, hfactory⟩ | ⟨-, hfactory⟩
    · exact .inl ⟨by simp only [epochState, h.mode, if_true, hfactory]; rfl, hfactory⟩
    · exact .inr ⟨by simp only [epochState, h.mode, if_true, hfactory]; rfl, hfactory⟩

lemma resultsOf_executed (hexec : Executes cfg st step result) (more : List LoopEvent) :
    resultsOf (.executed (stepExecution cfg st step) :: more) = result :: resultsOf more := by
  simp [resultsOf, stepExecution, hexec.outcome, Except.toOption]

/-- What is recorded after one more execution. -/
lemma Recorded.add {done : List StepExecutionResult} (h : Recorded done st)
    {receipt : StepOperationReceipt} (hreceipt : result.receipt = some receipt)
    (hid : receipt.stepId = result.stepId)
    (hexecutions : st'.snapshot.stepOperationExecutions = appendExecution st.snapshot result)
    (hstructural : st'.structuralResults = structuralResultsAfter st result) :
    Recorded (done ++ [result]) st' where
  executions := by
    rw [hexecutions, appendExecution, hreceipt]
    simp [h.executions, recordOf, hreceipt]
  structural := by
    rw [hstructural, structuralResultsAfter, h.structural, List.filter_append, List.map_append]
    split <;> simp_all
  receipts := by
    intro r hr
    rcases List.mem_append.mp hr with hr | hr
    · exact h.receipts r hr
    · obtain rfl := List.mem_singleton.mp hr
      rintro receipt' hreceipt'
      obtain rfl : receipt = receipt' := by simpa [hreceipt] using hreceipt'
      exact hid

/-- The results of the plan in force are the last ones of the run, and they are recorded. -/
def RecordsRun (events : List LoopEvent) (st : LoopState W) : Prop :=
  ∃ done, done <:+ resultsOf events ∧ Recorded done st

lemma recordsRun_of_empty {s : LoopState W} (events : List LoopEvent)
    (hexecutions : s.snapshot.stepOperationExecutions = []) (hstructural : s.structuralResults = []) :
    RecordsRun events s :=
  ⟨[], List.nil_suffix, by simp [hexecutions], by simp [hstructural], by simp⟩

lemma RecordsRun.add {history : List LoopEvent} (h : RecordsRun history st)
    (hmode : ReceiptMode basis cfg st.plan st.receiptValidator)
    (hexec : Executes cfg st step result)
    (hexecutions : st'.snapshot.stepOperationExecutions = appendExecution st.snapshot result)
    (hstructural : st'.structuralResults = structuralResultsAfter st result) :
    RecordsRun (history ++ [.executed (stepExecution cfg st step)]) st' := by
  obtain ⟨done, hdone, hrecorded⟩ := h
  obtain ⟨receipt, hreceipt, haccepted⟩ := hmode.accepted hexec
  have hid : receipt.stepId = result.stepId := haccepted.stepId.trans hexec.result.1.symm
  obtain ⟨earlier, hearlier⟩ := hdone
  refine ⟨done ++ [result], ⟨earlier, ?_⟩, hrecorded.add hreceipt hid hexecutions hstructural⟩
  rw [resultsOf_append, resultsOf_executed hexec, ← hearlier, List.append_assoc]
  rfl

lemma RecordsRun.next {history : List LoopEvent} (h : RecordsRun history st)
    (hmode : ReceiptMode basis cfg st.plan st.receiptValidator)
    (hnext : NextCases cfg st events st') : RecordsRun (history ++ events) st' := by
  cases hnext with
  | @expands step result plan hexec =>
    exact h.add hmode hexec (by simp [expandedState, advancedSnapshot, appendExecution]) rfl
  | @advances step result hexec =>
    exact h.add hmode hexec (by simp [continuedState, advancedSnapshot, appendExecution]) rfl
  | @retries step result hexec =>
    exact h.add hmode hexec (by simp [continuedState, retriedSnapshot, appendExecution]) rfl
  | replans => exact recordsRun_of_empty _ rfl rfl

/-! ### The end of a completed run -/

/-- A run that ends completed with status complete ends with an execution of the last step,
after which the plan is neither expanded nor replaced. -/
lemma completing_halt {final : TaskLoopResult} {last : W}
    (h : HaltCases cfg st events { outcome := .ok final, world := last })
    (hstate : final.state = .completed) (hstatus : final.completionStatus = .complete) :
    ∃ step result, Executes cfg st step result ∧
      (stepDecision cfg st step result).action = .completed ∧
      events = [.executed (stepExecution cfg st step)] ∧
      final = { resultOf (endedSnapshot cfg st step result) "Task loop completed." .complete
        (structuralResultsAfter st result) with activePlan := some st.plan } := by
  cases h with
  | receiptMissing | waits | governorBlocks | violates => cases hstate
  | @stops step result hexec _ haction =>
    have hended : (endedSnapshot cfg st step result).state = .completed := hstate
    rw [endedSnapshot_state] at hended
    rcases haction with haction | ⟨haction, -⟩
    · cases hdecision : (stepDecision cfg st step result).action <;>
        simp_all [targetState]
    · rw [haction] at hended
      cases hended
  | @completes step result final failed hexec _ haction hfinalized _ =>
    cases hfinalized with
    | complete => exact ⟨step, result, hexec, haction, rfl, rfl⟩
    | replan | block => cases hstate
  | answers => cases hstatus

/-- How a completed run lines up with its plan: one successful result for every step, and in
the order of the plan what each left in the three lists. -/
structure Aligned (plan : ThinkingPlan) (final : TaskLoopResult)
    (done : List StepExecutionResult) : Prop where
  steps : done.map (·.stepId) = plan.stepIds
  successes : ∀ result ∈ done, result.status = .success
  completedSteps : final.snapshot.completedSteps = plan.stepIds
  structuralResults : final.structuralResults = done.map (·.structuralResult)
  executions : final.snapshot.stepOperationExecutions.map some = done.map recordOf
  lengths : final.structuralResults.length = plan.steps.length ∧
    final.snapshot.completedSteps.length = plan.steps.length ∧
    final.snapshot.stepOperationExecutions.length = plan.steps.length

/-- What is recorded of successes lines up with them. -/
lemma Recorded.of_successes {done : List StepExecutionResult} (h : Recorded done st)
    (hsuccess : ∀ e ∈ st.snapshot.stepOperationExecutions, e.status = .success) :
    done.map (·.stepId) = st.snapshot.stepOperationExecutions.map (·.receipt.stepId) ∧
      (∀ result ∈ done, result.status = .success) ∧
      st.structuralResults = done.map (·.structuralResult) := by
  have hrecord : ∀ r ∈ done, ∃ e ∈ st.snapshot.stepOperationExecutions, recordOf r = some e := by
    intro r hr
    have hmem : recordOf r ∈ st.snapshot.stepOperationExecutions.map some := by
      rw [h.executions]
      exact List.mem_map_of_mem hr
    obtain ⟨e, he, heq⟩ := List.mem_map.mp hmem
    exact ⟨e, he, heq.symm⟩
  have hstatus : ∀ r ∈ done, r.status = .success := by
    intro r hr
    obtain ⟨e, he, heq⟩ := hrecord r hr
    obtain ⟨receipt, -, rfl⟩ := Option.map_eq_some_iff.mp heq
    exact hsuccess _ he
  refine ⟨?_, hstatus, ?_⟩
  · have hids : done.map (fun r => some r.stepId) =
        done.map fun r => (recordOf r).map (·.receipt.stepId) := by
      refine List.map_congr_left fun r hr => ?_
      obtain ⟨e, -, heq⟩ := hrecord r hr
      obtain ⟨receipt, hreceipt, rfl⟩ := Option.map_eq_some_iff.mp heq
      rw [heq, Option.map_some, h.receipts r hr receipt hreceipt]
    have hmapped := congrArg (List.map (Option.map (·.receipt.stepId))) h.executions
    rw [List.map_map, List.map_map] at hmapped
    have hsome : done.map (fun r => some r.stepId) = (st.snapshot.stepOperationExecutions.map
        fun e => some e.receipt.stepId) := hids.trans hmapped.symm
    have hinj : Function.Injective (List.map (some : String → Option String)) :=
      List.map_injective_iff.mpr (Option.some_injective _)
    refine hinj ?_
    rw [List.map_map, List.map_map]
    exact hsome
  · rw [h.structural, List.filter_eq_self.mpr]
    intro r hr
    simpa using hstatus r hr

/-- After the last step of a plan has run under receipts, all of it has run. -/
lemma all_executed (hmode : ReceiptMode basis cfg st.plan st.receiptValidator)
    (hexec : Executes cfg st step result) (hsuccess : result.status = .success)
    (hlast : st.snapshot.currentStepIndex + 1 = st.plan.steps.length) :
    appendCompleted st.snapshot step.stepId = st.plan.stepIds ∧
      (appendExecution st.snapshot result).length = st.plan.steps.length ∧
      validExecutions basis none st.plan.steps (appendExecution st.snapshot result) = true := by
  obtain ⟨receipt, hreceipt, haccepted⟩ := hmode.accepted hexec
  have hid : st.plan.stepIds[st.snapshot.currentStepIndex]? = some step.stepId := by
    simp [ThinkingPlan.stepIds, hexec.step_at]
  have hlength : st.plan.stepIds.length = st.snapshot.currentStepIndex + 1 := by
    simp [ThinkingPlan.stepIds, hlast]
  have hsplit : st.plan.stepIds.take st.snapshot.currentStepIndex ++ [step.stepId] =
      st.plan.stepIds := by
    calc st.plan.stepIds.take st.snapshot.currentStepIndex ++ [step.stepId]
        = st.plan.stepIds.take (st.snapshot.currentStepIndex + 1) := by
          rw [List.take_add_one, hid, Option.toList_some]
      _ = st.plan.stepIds := by rw [← hlength, List.take_length]
  refine ⟨?_, ?_, ?_⟩
  · rw [appendCompleted, haccepted.completed, if_neg, hsplit]
    -- the ids of a plan are distinct
    have hnodup := haccepted.nodup
    rw [← hsplit] at hnodup
    exact fun hmem => (List.nodup_append.mp hnodup).2.2 _ hmem _ (List.mem_singleton_self _) rfl
  · rw [appendExecution, hreceipt]
    simp [haccepted.length, hlast]
  · rw [appendExecution, hreceipt]
    have hnext : st.plan.steps[st.snapshot.stepOperationExecutions.length]? = some step := by
      rw [haccepted.length]
      exact hexec.step_at
    exact validExecutions_append haccepted.executions hnext hsuccess
      (by simpa using haccepted.valid)

/-- A run under receipts that completes lines up with its plan, and the attestation accepts
it. -/
theorem completed_run_attested (basis : ValidatorBasis) (cfg : LoopConfig W) (plan : ThinkingPlan)
    (options : StartOptions) (world : W)
    (hmode : ReceiptMode basis cfg plan options.receiptValidator) {events : List LoopEvent}
    {final : TaskLoopResult} {last : W}
    (h : (loopStep cfg).HaltsWith (startTaskLoop cfg.rt plan options world) events
      { outcome := .ok final, world := last })
    (hstate : final.state = .completed) (hstatus : final.completionStatus = .complete) :
    ∃ active done, final.activePlan = some active ∧ done <:+ resultsOf events ∧
      Aligned active final done ∧
      (attestCompletedExecution active final (buildStepReceiptValidator basis active)).isSome := by
  obtain ⟨st, es, fs, hreach, hlast, rfl⟩ := h.exists_last
  have hexecuting := executing_of_reaches hreach (startTaskLoop_executing ..)
  obtain ⟨hmode', hrecords⟩ := trace_invariant_of_reaches
    (I := fun es s => ReceiptMode basis cfg s.plan s.receiptValidator ∧ RecordsRun es s)
    (fun es s fs t _ hinv hnext => ⟨hinv.1.next hnext, hinv.2.next hinv.1 hnext⟩)
    hreach (startTaskLoop_executing ..) ⟨hmode, recordsRun_of_empty _ rfl rfl⟩
  obtain ⟨step, result, hexec, haction, rfl, rfl⟩ :=
    completing_halt (haltCases hexecuting hlast) hstate hstatus
  obtain ⟨receipt, hreceipt, haccepted⟩ := hmode'.accepted hexec
  obtain ⟨hsuccess, hcovers⟩ := Reflection.success_of_completed haction
  -- the executed step is the last one of the plan
  have hindex : st.snapshot.currentStepIndex < st.plan.steps.length :=
    (List.getElem?_eq_some_iff.mp hexec.step_at).1
  rw [reflectedSnapshot_currentStepIndex] at hcovers
  have hlastIndex : st.snapshot.currentStepIndex + 1 = st.plan.steps.length := by omega
  have hne : st.plan.steps ≠ [] := by
    rintro hnil
    simp [hnil] at hindex
  let ended := continuedState cfg st step result (endedSnapshot cfg st step result)
  have hadded : RecordsRun (es ++ [.executed (stepExecution cfg st step)]) ended :=
    hrecords.add hmode' hexec (by simp [ended, continuedState]) rfl
  obtain ⟨done, hdone, hrecorded⟩ := hadded
  have hexecutions : ended.snapshot.stepOperationExecutions = appendExecution st.snapshot result :=
    endedSnapshot_stepOperationExecutions ..
  obtain ⟨hcompleted, hlength, hvalid⟩ := all_executed hmode' hexec hsuccess hlastIndex
  rw [← hexecutions] at hlength hvalid
  have hsteps : ended.snapshot.completedSteps = st.plan.stepIds := by
    rw [← hcompleted]
    exact (endedSnapshot_completedSteps ..).trans (if_pos haction)
  obtain ⟨hids, hsuccesses⟩ := validExecutions_all hvalid hlength
  obtain ⟨hdoneIds, hdoneSuccess, hstructural⟩ := hrecorded.of_successes hsuccesses
  have hdoneLength : done.length = st.plan.steps.length := by
    have := congrArg List.length hrecorded.executions
    simpa [hlength] using this.symm
  refine ⟨st.plan, done, rfl, hdone, ?_, ?_⟩
  · exact {
      steps := hdoneIds.trans hids
      successes := hdoneSuccess
      completedSteps := hsteps
      structuralResults := hstructural
      executions := hrecorded.executions
      lengths := ⟨by
        have hmapped := congrArg List.length hstructural
        rw [List.length_map, hdoneLength] at hmapped
        exact hmapped, by
        have hmapped := congrArg List.length hsteps
        rw [ThinkingPlan.stepIds, List.length_map] at hmapped
        exact hmapped, hlength⟩ }
  · rw [attest_of_validExecutions hstate rfl hne haccepted.names haccepted.nodup hsteps hlength
      hvalid]
    rfl

/-! ### A run of two steps -/

/-- A context with the contract that lists the containers and inspects one. -/
def inventoryContext : PyVal :=
  .dict [("routing_frame", .dict [
    ("operation_contract", inventoryContract.asdict),
    ("operation_contract_fingerprint",
      .str (computeOperationContractFingerprint inventoryHash inventoryContract))])]

/-- A tool that reads containers. -/
def containerTool (name operation evidence : String) : ToolDescriptor where
  name := name
  capabilityDomain := "container_runtime"
  capabilityOperation := operation
  capabilityEvidenceTypes := [evidence]
  capabilityRisk := "read_only"
  capabilityTargetScopes := ["runtime_state"]

def inventoryBasis : ValidatorBasis where
  env := { PyRuntime.ascii, inventoryHash with }
  context := inventoryContext
  descriptors := [containerTool "container_list" "list" "container_inventory",
    containerTool "container_inspect" "inspect" "container_inspect"]

/-- The plan that lists the containers and then inspects one. -/
def inventoryPlan : ThinkingPlan where
  intent := "containers"
  steps := [
    { stepId := "tool_1", title := "List", goal := "List", tool := some "container_list" },
    { stepId := "tool_2", title := "Inspect", goal := "Inspect", tool := some "container_inspect" }]
  needsTaskLoop := true
  riskLevel := .safe

def inventoryConfig : LoopConfig (List ToolReply) :=
  { scriptedConfig [("container_list", {}), ("container_inspect", {})] with
    receiptIssuer := some (buildStepReceiptIssuer inventoryBasis.env inventoryContext)
    receiptValidatorFactory := some (buildStepReceiptValidatorFactory inventoryBasis)
    receiptMode := true }

def inventoryOptions : StartOptions where
  conversationId := "c"
  receiptValidator := some (buildStepReceiptValidator inventoryBasis inventoryPlan)

/-- The start of the run, in which both tools answer. -/
def inventoryStart : LoopState (List ToolReply) :=
  startTaskLoop inventoryConfig.rt inventoryPlan inventoryOptions [validReply [], validReply []]

/-- Both steps run, and the attestation accepts the run. -/
theorem inventory_run_attested :
    ∃ active final done, done.map (·.stepId) = ["tool_1", "tool_2"] ∧
      Aligned active final done ∧
      (attestCompletedExecution active final
        (buildStepReceiptValidator inventoryBasis active)).isSome := by
  have hrun : (((loopStep inventoryConfig).runFor 2 inventoryStart).2.bind fun last =>
      last.outcome.toOption.map fun final =>
        (final.state, final.completionStatus, final.activePlan.map (·.stepIds))) =
      some (.completed, .complete, some ["tool_1", "tool_2"]) := by decide +kernel
  generalize hresult : (loopStep inventoryConfig).runFor 2 inventoryStart = run at hrun
  obtain ⟨events, ended⟩ := run
  obtain ⟨⟨outcome, last⟩, rfl, hfinal⟩ := Option.bind_eq_some_iff.mp hrun
  obtain ⟨final, houtcome, heq⟩ := Option.map_eq_some_iff.mp hfinal
  cases outcome with
  | error e => cases houtcome
  | ok r =>
    obtain rfl := Option.some.inj houtcome
    simp only [Prod.mk.injEq] at heq
    obtain ⟨hstate, hstatus, hids⟩ := heq
    have hhalts := Machine.haltsWith_of_runFor hresult
    obtain ⟨active, done, hactive, -, haligned, hattested⟩ := completed_run_attested inventoryBasis
      inventoryConfig inventoryPlan inventoryOptions [validReply [], validReply []]
      ⟨rfl, .inl ⟨rfl, rfl⟩⟩ hhalts hstate hstatus
    rw [hactive] at hids
    exact ⟨active, r, done, haligned.steps.trans (Option.some.inj hids), haligned, hattested⟩

end Trion.Pipeline
