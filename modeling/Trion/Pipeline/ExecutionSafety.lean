import Mathlib.Data.List.Chain
import Trion.Pipeline.Attestation
import Trion.TaskLoop.StepBudget

/-!
# What runs under receipts

Under receipts the tool runner is called for a step only when all before it in the plan has
been executed once and successfully, along the transitions of the contract, and only for the
one tool that the step names and the narrowed contract lets through.  Failures, retries,
replanned and expanded plans make no difference: whatever the run has done before, the
validator decides on what is on record when the step is about to run.
-/

namespace Trion.Pipeline

open Trion.Python Trion.Thinking Trion.TaskLoop Trion.RoutingFrame Trion.Orchestrator StepMachine

variable {W : Type} {basis : ValidatorBasis} {cfg : LoopConfig W} {st : LoopState W}
  {step : PlanStep}

/-! ### The operations of a contract -/

/-- The operations that may follow another one under a contract, and, after none, the
operation it begins with. -/
def OperationFollows (rt : PyRuntime) (contract : PyDict) : Option String → String → Prop
  | none, operation => operation = clean rt (PyDict.get contract "primary_operation") ∧
      operation ∈ values rt (PyDict.get contract "allowed_operations")
  | some previous, operation => ∃ evidence,
      transitionRequirement rt previous (PyDict.get contract "transition_requirements") =
        some (operation, evidence)

/-- The operations begin with the primary one and each leads to the next by the only
transition out of it. -/
structure OperationChain (rt : PyRuntime) (contract : PyDict) (operations : List String) :
    Prop where
  begins : ∀ operation ∈ operations.head?, OperationFollows rt contract none operation
  follows : operations.IsChain fun previous operation =>
    OperationFollows rt contract (some previous) operation

/-- A receipt that authorizes a contract has an operation that may follow. -/
lemma operationFollows_of_contractForReceipt {rt : PyRuntime} {contract : PyDict}
    {receipt : StepOperationReceipt} {fingerprint : String} {predecessor : Option Predecessor}
    (h : contractForReceipt rt contract (some receipt) fingerprint predecessor ≠ []) :
    OperationFollows rt contract (predecessor.bind fun p => p.receipt.map (·.operation))
      receipt.operation := by
  unfold contractForReceipt at h
  dsimp only at h
  split at h
  · exact absurd rfl h
  · cases predecessor with
    | none =>
      dsimp only at h
      split at h
      · exact absurd rfl h
      · rename_i hprimary
        rw [not_or, not_not, not_not] at hprimary
        exact hprimary
    | some p =>
      dsimp only at h
      cases htransition : (p.validReceipt fingerprint).bind fun previous =>
          transitionRequirement rt previous.operation
            (PyDict.get contract "transition_requirements") with
      | none => simp [htransition] at h
      | some transition =>
        obtain ⟨previous, hprevious, hfollows⟩ := Option.bind_eq_some_iff.mp htransition
        have htarget : transition.1 = receipt.operation := by
          by_contra hne
          simp [htransition, hne] at h
        have hreceipt : p.receipt = some previous := (Option.filter_eq_some_iff.mp hprevious).1
        rw [Option.bind_some, hreceipt, Option.map_some]
        exact ⟨transition.2, by rw [hfollows, ← htarget]⟩

/-- The contract that a step is held against. -/
abbrev ValidatorBasis.contract (basis : ValidatorBasis) : PyDict :=
  operationContractFromContext basis.env basis.context

/-- The fingerprint that the receipts of a run carry. -/
abbrev ValidatorBasis.fingerprint (basis : ValidatorBasis) : String :=
  operationContractFingerprintFromContext basis.context

lemma authorizes_of_validForStep {receipt : StepOperationReceipt}
    {predecessor : Option StepOperationExecution}
    (h : validForStep basis step receipt predecessor = true) :
    authorizedContractForReceipt basis.env basis.context (some receipt)
      (predecessor.map executionPredecessor) ≠ [] := by
  simp only [validForStep, Bool.and_eq_true] at h
  intro hempty
  have hcontract := h.1.2
  rw [hempty] at hcontract
  exact absurd hcontract (by decide)

/-- The operation of a valid receipt may follow the one before it. -/
lemma operationFollows_of_validForStep {receipt : StepOperationReceipt}
    {predecessor : Option StepOperationExecution}
    (h : validForStep basis step receipt predecessor = true) :
    OperationFollows basis.env.toPyRuntime basis.contract
      (predecessor.map (·.receipt.operation)) receipt.operation := by
  have hfollows := operationFollows_of_contractForReceipt (authorizes_of_validForStep h)
  cases predecessor <;> exact hfollows

/-- The operations of valid executions: the first may follow what was before them. -/
lemma operations_of_validExecutions {steps : List PlanStep}
    {executions : List StepOperationExecution} {previous : Option StepOperationExecution}
    (h : validExecutions basis previous steps executions = true) :
    (∀ operation ∈ (executions.map (·.receipt.operation)).head?,
      OperationFollows basis.env.toPyRuntime basis.contract
        (previous.map (·.receipt.operation)) operation) ∧
    (executions.map (·.receipt.operation)).IsChain fun previous operation =>
      OperationFollows basis.env.toPyRuntime basis.contract (some previous) operation := by
  induction executions generalizing steps previous with
  | nil => exact ⟨by simp, .nil⟩
  | cons e executions ih =>
    cases steps with
    | nil => simp [validExecutions] at h
    | cons step steps =>
      simp only [validExecutions, Bool.and_eq_true] at h
      obtain ⟨⟨-, hvalid⟩, hrest⟩ := h
      obtain ⟨hbegins, hchain⟩ := ih hrest
      refine ⟨?_, List.isChain_cons.mpr ⟨hbegins, hchain⟩⟩
      rintro operation hoperation
      obtain rfl : e.receipt.operation = operation := by simpa using hoperation
      exact operationFollows_of_validForStep hvalid

/-- A valid receipt continues the operations of the executions before it. -/
lemma operationChain_of_valid {steps : List PlanStep} {executions : List StepOperationExecution}
    {receipt : StepOperationReceipt} (h : validExecutions basis none steps executions = true)
    (hvalid : validForStep basis step receipt executions.getLast? = true) :
    OperationChain basis.env.toPyRuntime basis.contract
      (executions.map (·.receipt.operation) ++ [receipt.operation]) := by
  obtain ⟨hbegins, hchain⟩ := operations_of_validExecutions h
  have hfollows := operationFollows_of_validForStep hvalid
  constructor
  · rintro operation hoperation
    cases executions with
    | nil =>
      obtain rfl : receipt.operation = operation := by simpa using hoperation
      exact hfollows
    | cons e executions => exact hbegins operation (by simpa using hoperation)
  · refine List.isChain_append.mpr ⟨hchain, List.isChain_singleton _, ?_⟩
    rintro previous hprevious operation hoperation
    obtain rfl : receipt.operation = operation := by simpa using hoperation
    rw [List.getLast?_map] at hprevious
    obtain ⟨last, hlast, rfl⟩ := Option.map_eq_some_iff.mp (Option.mem_def.mp hprevious)
    simpa [hlast] using hfollows

/-- The one tool of a step under a valid receipt. -/
lemma tool_of_validForStep {receipt : StepOperationReceipt}
    {predecessor : Option StepOperationExecution}
    (h : validForStep basis step receipt predecessor = true) :
    ∃ tool, (basis.descriptors.filter fun tool => some tool.name = step.tool) = [tool] ∧
      tool ∈ eligibleToolsForContract basis.env.toPyRuntime basis.descriptors
        (.dict (authorizedContractForReceipt basis.env basis.context (some receipt)
          (predecessor.map executionPredecessor))) := by
  simp only [validForStep, Bool.and_eq_true] at h
  have htool := h.2
  split at htool
  · rename_i tool hfilter
    exact ⟨tool, hfilter, of_decide_eq_true htool⟩
  · cases htool

/-! ### What is on record when a step runs -/

/-- A step is entitled to run: the executions on record are one success for each step before
it, their operations and its own are a chain of the contract, and its tool is the one the
narrowed contract lets through. -/
structure Entitled (basis : ValidatorBasis) (plan : ThinkingPlan) (s : TaskLoopSnapshot)
    (step : PlanStep) (receipt : StepOperationReceipt) (tool : ToolDescriptor) : Prop where
  step_at : plan.steps[s.currentStepIndex]? = some step
  executed : s.stepOperationExecutions.map (·.receipt.stepId) = plan.stepIds.take s.currentStepIndex
  once : (plan.stepIds.take s.currentStepIndex).Nodup
  completed : s.completedSteps = plan.stepIds.take s.currentStepIndex
  successes : ∀ e ∈ s.stepOperationExecutions, e.status = .success
  fingerprints : ∀ e ∈ s.stepOperationExecutions,
    e.receipt.operationContractFingerprint = basis.fingerprint
  own_receipt : receipt.stepId = step.stepId ∧
    receipt.operationContractFingerprint = basis.fingerprint
  operations : OperationChain basis.env.toPyRuntime basis.contract
    (s.stepOperationExecutions.map (·.receipt.operation) ++ [receipt.operation])
  named : (basis.descriptors.filter fun tool => some tool.name = step.tool) = [tool]
  eligible : tool ∈ eligibleToolsForContract basis.env.toPyRuntime basis.descriptors
    (.dict (authorizedContractForReceipt basis.env basis.context (some receipt)
      (s.stepOperationExecutions.getLast?.map executionPredecessor)))

/-- Valid executions are of the first steps of the plan. -/
lemma stepIds_of_validExecutions {steps : List PlanStep}
    {executions : List StepOperationExecution} {previous : Option StepOperationExecution}
    (h : validExecutions basis previous steps executions = true) :
    executions.map (·.receipt.stepId) = (steps.map (·.stepId)).take executions.length := by
  induction executions generalizing steps previous with
  | nil => rfl
  | cons e executions ih =>
    cases steps with
    | nil => simp [validExecutions] at h
    | cons step steps =>
      simp only [validExecutions, Bool.and_eq_true, decide_eq_true_eq] at h
      obtain ⟨⟨⟨-, hid⟩, -⟩, hrest⟩ := h
      simp [hid, ih hrest]

/-- What the validator accepts is entitled to run. -/
lemma Accepted.entitled {plan : ThinkingPlan} {s : TaskLoopSnapshot}
    {receipt : StepOperationReceipt} (h : Accepted basis plan step s receipt)
    (hstep : plan.steps[s.currentStepIndex]? = some step) :
    ∃ tool, Entitled basis plan s step receipt tool := by
  obtain ⟨tool, hnamed, heligible⟩ := tool_of_validForStep h.valid
  have hat : ∀ e ∈ s.stepOperationExecutions, e.status = .success ∧
      e.receipt.operationContractFingerprint = basis.fingerprint := by
    rintro e he
    obtain ⟨i, hi⟩ := List.getElem?_of_mem he
    obtain ⟨_, -, hsuccess, hvalid⟩ := validExecutions_at h.executions hi
    exact ⟨hsuccess, fingerprint_of_validForStep hvalid⟩
  exact ⟨tool, {
    step_at := hstep
    executed := by rw [stepIds_of_validExecutions h.executions, h.length]; rfl
    once := h.nodup.sublist (List.take_sublist _ _)
    completed := h.completed
    successes := fun e he => (hat e he).1
    fingerprints := fun e he => (hat e he).2
    own_receipt := ⟨h.stepId, fingerprint_of_validForStep h.valid⟩
    operations := operationChain_of_valid h.executions h.valid
    named := hnamed
    eligible := heligible }⟩

/-- A receipt of a step under receipts is one that the validator of the plan accepted. -/
lemma ReceiptMode.accepted_of_stepReceipt {receipt : StepOperationReceipt}
    (h : ReceiptMode basis cfg st.plan st.receiptValidator)
    (hstep : st.plan.steps[st.snapshot.currentStepIndex]? = some step)
    (hreceipt : stepReceipt cfg st step = some receipt) :
    Accepted basis st.plan step st.snapshot receipt := by
  obtain ⟨validate, candidate, hvalidate, hvalidated⟩ := exists_validator_of_receiptForStep hreceipt
  rcases h.validators with ⟨hvalidator, -⟩ | ⟨hvalidator, -⟩
  · obtain rfl := Option.some.inj (hvalidator.symm.trans hvalidate)
    exact accepted_of_validator hstep hvalidated
  · rw [hvalidator] at hvalidate
    cases hvalidate

lemma ReceiptMode.required (h : ReceiptMode basis cfg st.plan st.receiptValidator) :
    receiptRequired cfg st = true := by
  simp [receiptRequired, receiptProtocolActive, h.mode]

/-- A step that starts under receipts has a receipt that the validator accepted. -/
lemma ReceiptMode.accepted_of_starts (h : ReceiptMode basis cfg st.plan st.receiptValidator)
    (hstarts : Starts cfg st step) :
    ∃ receipt, stepReceipt cfg st step = some receipt ∧
      Accepted basis st.plan step st.snapshot receipt := by
  obtain ⟨receipt, hreceipt⟩ := Option.isSome_iff_exists.mp (hstarts.receipt_gate h.required)
  exact ⟨receipt, hreceipt, h.accepted_of_stepReceipt hstarts.step_at hreceipt⟩

/-- The tool that a step's call names is the step's. -/
lemma stepRun_call {call : TaskToolCall} (h : (stepRun cfg st step).1.call = some call) :
    call.toolName = step.toolName ∧ call.stepId = step.stepId := by
  rw [stepRun, executeStarted, executeStep] at h
  cases hprepared : prepareStep cfg.executor step (startedSnapshot st.snapshot step.stepId)
      (stepReceipt cfg st step) (passClock cfg st).toolCall with
  | error e => simp [hprepared] at h
  | ok prepared =>
    cases prepared with
    | finished result => simp [hprepared] at h
    | ready prepared =>
      obtain rfl : prepared = call := by simpa [hprepared] using h
      obtain ⟨-, hname, hid, -⟩ := prepareStep_ready hprepared
      exact ⟨hname, hid⟩

/-- Whatever state a run under receipts starts from, and whatever the tools, the replanner and
the follow-up planner answer, it calls the tool runner only for a step that is entitled to
run, and for the one tool that the step names. -/
theorem called_entitled (basis : ValidatorBasis) (cfg : LoopConfig W) (st : LoopState W)
    (hs : st.snapshot.state = .executing)
    (hmode : ReceiptMode basis cfg st.plan st.receiptValidator) (e : Execution)
    (he : (loopStep cfg).Emits st (.executed e)) (call : TaskToolCall)
    (hcall : e.run.call = some call) :
    ∃ receipt tool, e.receipt = some receipt ∧
      Entitled basis e.plan e.snapshot e.step receipt tool ∧
      call.toolName = strip tool.name ∧ call.stepId = e.step.stepId := by
  refine forall_executed (I := fun s => ReceiptMode basis cfg s.plan s.receiptValidator)
    (P := fun e => ∀ call, e.run.call = some call → ∃ receipt tool, e.receipt = some receipt ∧
      Entitled basis e.plan e.snapshot e.step receipt tool ∧
      call.toolName = strip tool.name ∧ call.stepId = e.step.stepId)
    (fun s fs t _ hinv hnext => hinv.next hnext) ?_ he hs hmode call hcall
  rintro s step - hinv hstarts call hcall
  obtain ⟨receipt, hreceipt, haccepted⟩ := hinv.accepted_of_starts hstarts
  obtain ⟨tool, hentitled⟩ := haccepted.entitled hstarts.step_at
  obtain ⟨hname, hid⟩ := stepRun_call hcall
  have htool : some tool.name = step.tool := by
    have hmem : tool ∈ basis.descriptors.filter fun tool => some tool.name = step.tool := by
      rw [hentitled.named]
      exact List.mem_singleton_self _
    exact of_decide_eq_true (List.mem_filter.mp hmem).2
  refine ⟨receipt, tool, hreceipt, ?_, ?_, hid⟩
  · -- starting a step changes none of what is on record
    exact { hentitled with }
  · rw [hname, PlanStep.toolName, ← htool, Option.getD_some]

/-! ### Failed steps -/

/-- A step that has been executed under receipts gets no receipt at the same index again: its
execution is on record, and the validator wants one for each step before the index. -/
lemma ReceiptMode.stepReceipt_of_retried {result : StepExecutionResult}
    (h : ReceiptMode basis cfg st.plan st.receiptValidator) (hexec : Executes cfg st step result) :
    stepReceipt cfg
      (continuedState cfg st step result (retriedSnapshot cfg st step result)) step = none := by
  set retried := continuedState cfg st step result (retriedSnapshot cfg st step result)
  obtain ⟨receipt, hreceipt, haccepted⟩ := h.accepted hexec
  have hlength : retried.snapshot.stepOperationExecutions.length =
      retried.snapshot.currentStepIndex + 1 := by
    change (retriedSnapshot cfg st step result).stepOperationExecutions.length =
      (retriedSnapshot cfg st step result).currentStepIndex + 1
    simp [appendExecution, hreceipt, haccepted.length]
  have hmode : ReceiptMode basis cfg retried.plan retried.receiptValidator := h
  have hstep : retried.plan.steps[retried.snapshot.currentStepIndex]? = some step := by
    change st.plan.steps[(retriedSnapshot cfg st step result).currentStepIndex]? = some step
    rw [retriedSnapshot_currentStepIndex]
    exact hexec.step_at
  rw [Option.eq_none_iff_forall_ne_some]
  rintro again hagain
  have hrecorded := (hmode.accepted_of_stepReceipt hstep hagain).length
  omega

/-- Under receipts a failed step is not tried again, whatever the retry budget: when the run
goes on in the same plan after a failure, its next pass ends it, blocked for want of a
receipt. -/
theorem failed_step_blocked (basis : ValidatorBasis) (cfg : LoopConfig W) (start : LoopState W)
    (hs : start.snapshot.state = .executing)
    (hmode : ReceiptMode basis cfg start.plan start.receiptValidator)
    (history events : List LoopEvent) (st st' : LoopState W)
    (hreach : (loopStep cfg).Reaches start history st)
    (hnext : loopStep cfg st = (events, .next st')) (step : PlanStep)
    (result : StepExecutionResult) (hexec : Executes cfg st step result)
    (hfailed : result.status ≠ .success)
    (hplan : ∀ request reply, LoopEvent.replanned request reply ∉ events) :
    loopStep cfg st' = ([], .halt {
      outcome := .ok { receiptBlockedResult st' step with activePlan := some st'.plan }
      world := st'.world }) := by
  have hexecuting := executing_of_reaches hreach hs
  have hinv : ReceiptMode basis cfg st.plan st.receiptValidator :=
    invariant_of_reaches (I := fun s => ReceiptMode basis cfg s.plan s.receiptValidator)
      (fun _ _ _ _ hinv hnext => hinv.next hnext) hreach hs hmode
  have hcases := nextCases hexecuting hnext
  have hafter := hinv.next hcases
  have hstate := hcases.executing
  cases hcases with
  | expands hexec' hexpanded =>
    obtain ⟨rfl, rfl⟩ := hexec.unique hexec'
    exact absurd (stepExpansion_eq_some hexpanded).1 hfailed
  | advances hexec' _ _ hsuccess =>
    obtain ⟨rfl, rfl⟩ := hexec.unique hexec'
    exact absurd hsuccess hfailed
  | retries hexec' =>
    obtain ⟨rfl, rfl⟩ := hexec.unique hexec'
    refine loopStep_of_receiptMissing hstate ?_ hafter.required (hinv.stepReceipt_of_retried hexec)
    change st.plan.steps[(retriedSnapshot _ _ _ _).currentStepIndex]? = _
    rw [retriedSnapshot_currentStepIndex]
    exact hexec.step_at
  | replans => exact absurd (List.mem_cons_of_mem _ List.mem_cons_self) (hplan _ _)

/-! ### A run on the containers -/

/-- The hash of the text of that contract. -/
def containerHash : FingerprintRuntime where
  printable _ := true
  sha256 _ := "9c514fea142972b7b0ad91b765b5f892721f70d5e6302dd854a45fdaae7272a6"

def containerContext : PyVal :=
  .dict [("routing_frame", .dict [
    ("operation_contract", inventoryContract.asdict),
    ("operation_contract_fingerprint",
      .str "9c514fea142972b7b0ad91b765b5f892721f70d5e6302dd854a45fdaae7272a6")])]

def containerBasis : ValidatorBasis where
  env := { PyRuntime.ascii, containerHash with }
  context := containerContext
  descriptors := inventoryBasis.descriptors

def containerConfig : LoopConfig (List ToolReply) :=
  { scriptedConfig [("container_list", {}), ("container_inspect", {})] with
    receiptIssuer := some (buildStepReceiptIssuer containerBasis.env containerContext)
    receiptValidatorFactory := some (buildStepReceiptValidatorFactory containerBasis)
    receiptMode := true }

/-- The start of the run in which the first tool answers and the second one fails. -/
def containerStart : LoopState (List ToolReply) :=
  startTaskLoop containerConfig.rt inventoryPlan
    { conversationId := "c", receiptValidator := some (buildStepReceiptValidator containerBasis inventoryPlan) }
    [validReply [], .raised "unreachable"]

/-- What the two steps of the run do, if each is an execution after which the run goes on. -/
def twoSteps (st : LoopState (List ToolReply)) : Option (String × StepExecutionStatus) :=
  match loopStep containerConfig st with
  | ([.executed _], .next st') => match loopStep containerConfig st' with
    | ([.executed e], .next _) => match e.run.call, e.run.outcome with
      | some call, .ok result => some (call.toolName, result.status)
      | _, _ => none
    | _ => none
  | _ => none

lemma exists_twoSteps {start : LoopState (List ToolReply)} {name : String}
    {status : StepExecutionStatus} (h : twoSteps start = some (name, status)) :
    ∃ e e' st st', loopStep containerConfig start = ([.executed e], .next st) ∧
      loopStep containerConfig st = ([.executed e'], .next st') ∧
      ∃ call result, e'.run.call = some call ∧ e'.run.outcome = .ok result ∧
        call.toolName = name ∧ result.status = status := by
  unfold twoSteps at h
  split at h
  · rename_i e st hfirst
    split at h
    · rename_i e' st' hsecond
      split at h
      · rename_i call result hcall houtcome
        obtain ⟨hname, hstatus⟩ := Prod.mk.inj (Option.some.inj h)
        exact ⟨e, e', st, st', hfirst, hsecond, call, result, hcall, houtcome, hname, hstatus⟩
      · cases h
    · cases h
  · cases h

lemma twoSteps_containerStart : twoSteps containerStart = some ("container_inspect", .failed) := by
  decide +kernel

/-- The second step of the run is entitled to its call after the first. -/
theorem called_entitled_container :
    ∃ (e : Execution) (receipt : StepOperationReceipt) (tool : ToolDescriptor),
      strip tool.name = "container_inspect" ∧
      Entitled containerBasis e.plan e.snapshot e.step receipt tool := by
  obtain ⟨e, e', st, st', hfirst, hsecond, call, -, hcall, -, hname, -⟩ :=
    exists_twoSteps twoSteps_containerStart
  have hemits : (loopStep containerConfig).Emits containerStart (.executed e') :=
    ⟨_, st, .single hfirst, by rw [hsecond]; exact List.mem_cons_self⟩
  obtain ⟨receipt, tool, -, hentitled, htool, -⟩ := called_entitled containerBasis containerConfig
    containerStart rfl ⟨rfl, .inl ⟨rfl, rfl⟩⟩ e' hemits call hcall
  exact ⟨e', receipt, tool, htool.symm.trans hname, hentitled⟩

/-- The second step fails; one retry is allowed, but the next pass blocks the run. -/
theorem failed_step_blocked_container :
    ∃ (st' : LoopState (List ToolReply)) (step : PlanStep),
      containerStart.snapshot.maxRetriesPerStep = 1 ∧
      loopStep containerConfig st' = ([], .halt {
        outcome := .ok { receiptBlockedResult st' step with activePlan := some st'.plan }
        world := st'.world }) := by
  obtain ⟨e, e', st, st', hfirst, hsecond, -, result, -, houtcome, -, hstatus⟩ :=
    exists_twoSteps twoSteps_containerStart
  have hreach : (loopStep containerConfig).Reaches containerStart [.executed e] st := .single hfirst
  obtain ⟨step, hstarts, rfl⟩ := @exists_starts_of_mem _ containerConfig st e'
    (executing_of_reaches hreach rfl) (by rw [hsecond]; exact List.mem_cons_self)
  refine ⟨st', step, rfl, ?_⟩
  exact failed_step_blocked containerBasis containerConfig containerStart rfl
    ⟨rfl, .inl ⟨rfl, rfl⟩⟩ _ _ st st' hreach hsecond step result ⟨hstarts, houtcome⟩
    (by simp [hstatus]) (by simp)

end Trion.Pipeline
