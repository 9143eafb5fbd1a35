import Trion.TaskLoop.StepCases

/-!
# Runs of the loop

The rules by which the proofs about runs go: a property of the state that every way of
going on preserves holds in every state of a run, and every event of a run is the event of
a step from such a state.
-/

namespace Trion.TaskLoop

open Trion.Python Trion.Thinking StepMachine

variable {W : Type} {cfg : LoopConfig W} {st st' : LoopState W} {events : List LoopEvent}

lemma ReplanSource.settings {step : PlanStep} {result failure : StepExecutionResult}
    {s : TaskLoopSnapshot} (h : ReplanSource cfg st step result s failure) :
    s.settings = st.snapshot.settings := by
  cases h with
  | failedStep => exact endedSnapshot_settings cfg st step result
  | unmetObjective => exact endedSnapshot_settings cfg st step result

/-- A replanning comes from a step that failed or from a plan that was executed to its end. -/
lemma ReplanSource.action {step : PlanStep} {result failure : StepExecutionResult}
    {s : TaskLoopSnapshot} (h : ReplanSource cfg st step result s failure) :
    (stepDecision cfg st step result).action = .replan ∨
      (stepDecision cfg st step result).action = .completed := by
  cases h with
  | failedStep haction => exact .inl haction
  | unmetObjective haction => exact .inr haction

/-- A replanning is counted, and the bound leaves room for it. -/
lemma ReplanSource.replanCount {step : PlanStep} {result failure : StepExecutionResult}
    {s : TaskLoopSnapshot} (h : ReplanSource cfg st step result s failure) :
    s.replanCount = st.snapshot.replanCount + 1 ∧
      st.snapshot.replanCount < st.snapshot.maxReplans.toNat := by
  cases h with
  | failedStep haction =>
    refine ⟨by rw [endedSnapshot_replanCount, if_pos haction], ?_⟩
    exact replanCount_lt_of_canReplan (Reflection.canReplan_of_replan haction)
  | unmetObjective haction hallowed =>
    have hcount := replanCount_lt_of_canReplan hallowed
    rw [endedSnapshot_replanCount, haction] at hcount ⊢
    exact ⟨rfl, hcount⟩

/-- The replanner is asked with the artifacts of the run so far. -/
lemma ReplanSource.artifacts {step : PlanStep} {result failure : StepExecutionResult}
    {s : TaskLoopSnapshot} (h : ReplanSource cfg st step result s failure) :
    s.artifacts = st.snapshot.artifacts ++ result.artifacts := by
  cases h with
  | failedStep => exact endedSnapshot_artifacts cfg st step result
  | unmetObjective => exact endedSnapshot_artifacts cfg st step result

/-- The result of a pass is about the step it executed, and has its receipt. -/
lemma Executes.result {step : PlanStep} {result : StepExecutionResult}
    (h : Executes cfg st step result) :
    result.stepId = step.stepId ∧ result.receipt = stepReceipt cfg st step :=
  let ⟨hid, hreceipt, _⟩ := executeStep_ok h.outcome
  ⟨hid, hreceipt⟩

/-- A run keeps the settings it was started with. -/
lemma NextCases.settings (h : NextCases cfg st events st') :
    st'.snapshot.settings = st.snapshot.settings := by
  cases h with
  | @expands step result => exact advancedSnapshot_settings cfg st step result
  | @advances step result => exact advancedSnapshot_settings cfg st step result
  | @retries step result => exact retriedSnapshot_settings cfg st step result
  | replans hreplans =>
    rw [epochState, resetSnapshot_settings, TaskLoopSnapshot.moveTo_settings]
    exact hreplans.source.settings

/-- A run goes on with an executing snapshot. -/
lemma NextCases.executing (h : NextCases cfg st events st') :
    st'.snapshot.state = .executing := by
  cases h with
  | @expands step result => exact advancedSnapshot_state cfg st step result
  | @advances step result => exact advancedSnapshot_state cfg st step result
  | @retries step result => exact retriedSnapshot_state cfg st step result
  | replans => rw [epochState, resetSnapshot_state, TaskLoopSnapshot.moveTo_state]

/-- An expansion is a plan of the follow-up planner, after a success of the last step, that
passes the checks. -/
lemma stepExpansion_eq_some {step : PlanStep} {result : StepExecutionResult} {plan : ThinkingPlan}
    (h : (stepExpansion cfg st step result).1 = some plan) :
    result.status = .success ∧ st.snapshot.currentStepIndex + 1 = st.plan.steps.length ∧
      isExpansion st.plan plan ∧ ∃ planner, cfg.followupPlanner = some planner ∧
        (planner (stepRun cfg st step).2 st.plan step result).1 = some plan := by
  rw [stepExpansion, expandedPlanAfterSuccess] at h
  split at h
  · simp at h
  · rename_i planner hplanner
    split at h
    · rename_i hlast
      obtain ⟨hreply, hchecks⟩ := Option.filter_eq_some_iff.1 h
      exact ⟨hlast.1, hlast.2, hchecks, planner, hplanner, hreply⟩
    · simp at h

/-- Without a follow-up planner no plan is expanded. -/
lemma stepExpansion_of_planner_none {step : PlanStep} {result : StepExecutionResult}
    (h : cfg.followupPlanner = none) :
    stepExpansion cfg st step result = (none, (stepRun cfg st step).2) := by
  rw [stepExpansion, expandedPlanAfterSuccess, h]

/-- Every state of a run that starts executing is executing. -/
lemma executing_of_reaches (h : (loopStep cfg).Reaches st events st')
    (hs : st.snapshot.state = .executing) : st'.snapshot.state = .executing :=
  h.invariant (I := fun s => s.snapshot.state = .executing)
    (fun _ _ _ hexec hnext => (nextCases hexec hnext).executing) hs

/-- A property of the events and the state that every way of going on preserves holds
throughout a run. -/
theorem trace_invariant_of_reaches {I : List LoopEvent → LoopState W → Prop}
    (hstep : ∀ es s fs t, s.snapshot.state = .executing → I es s → NextCases cfg s fs t →
      I (es ++ fs) t)
    (h : (loopStep cfg).Reaches st events st') (hs : st.snapshot.state = .executing)
    (hI : I [] st) : I events st' := by
  have hrun := h.trace_invariant
    (I := fun es s => s.snapshot.state = .executing ∧ I es s)
    (fun es s fs t hinv hnext =>
      have hcases := nextCases hinv.1 hnext
      ⟨hcases.executing, hstep es s fs t hinv.1 hinv.2 hcases⟩)
    ⟨hs, hI⟩
  exact hrun.2

/-- A property of the state that every way of going on preserves holds throughout a run. -/
theorem invariant_of_reaches {I : LoopState W → Prop}
    (hstep : ∀ s fs t, s.snapshot.state = .executing → I s → NextCases cfg s fs t → I t)
    (h : (loopStep cfg).Reaches st events st') (hs : st.snapshot.state = .executing)
    (hI : I st) : I st' :=
  trace_invariant_of_reaches (I := fun _ => I) (fun _ => hstep) h hs hI

/-- The events of a step: none, an execution, or an execution and after it a question to the
replanner. -/
inductive StepEvents (cfg : LoopConfig W) (st : LoopState W) : List LoopEvent → Prop
  | none : StepEvents cfg st []
  | executed {step : PlanStep} : Starts cfg st step →
      StepEvents cfg st [.executed (stepExecution cfg st step)]
  | replanned {step : PlanStep} {result : StepExecutionResult} {request : ReplanRequest}
      {reply : ReplanReply} : Replans cfg st step result request →
      StepEvents cfg st [.executed (stepExecution cfg st step), .replanned request reply]

lemma stepEvents (cfg : LoopConfig W) (hs : st.snapshot.state = .executing) :
    StepEvents cfg st (loopStep cfg st).1 := by
  have hcases := stepCases cfg hs
  rcases hloop : loopStep cfg st with ⟨events, outcome⟩
  rw [hloop] at hcases
  cases hcases with
  | next hnext =>
    cases hnext with
    | expands hexec | advances hexec | retries hexec => exact .executed hexec.toStarts
    | replans hreplans => exact .replanned hreplans
  | halt hhalt =>
    cases hhalt with
    | emptyPlan | pastEnd | receiptMissing | waits | governorBlocks => exact .none
    | raises hstarts => exact .executed hstarts
    | completionRaises hexec | stops hexec | completes hexec => exact .executed hexec.toStarts
    | replannerRaises hreplans | violates hreplans | answers hreplans => exact .replanned hreplans

/-- The tool call an event makes, if it makes one. -/
def LoopEvent.call? : LoopEvent → Option TaskToolCall
  | .executed e => e.run.call
  | .replanned _ _ => none

/-- The tool calls of a run, in order. -/
def toolCalls (events : List LoopEvent) : List TaskToolCall := events.filterMap LoopEvent.call?

/-- An execution among the events of a step is the one execution of that step. -/
lemma exists_starts_of_mem {e : Execution} (hs : st.snapshot.state = .executing)
    (h : .executed e ∈ (loopStep cfg st).1) :
    ∃ step, Starts cfg st step ∧ e = stepExecution cfg st step := by
  have hevents := stepEvents cfg hs
  generalize (loopStep cfg st).1 = events at h hevents
  cases hevents with
  | none => simp at h
  | executed hstarts => exact ⟨_, hstarts, by simpa using h⟩
  | replanned hreplans => exact ⟨_, hreplans.toStarts, by simpa using h⟩

/-- An execution among the events of a step with which the run goes on is of that step. -/
lemma NextCases.exists_starts {e : Execution} (h : NextCases cfg st events st')
    (he : .executed e ∈ events) : ∃ step, Starts cfg st step ∧ e = stepExecution cfg st step := by
  cases h with
  | expands hexec | advances hexec | retries hexec =>
    exact ⟨_, hexec.toStarts, by simpa using he⟩
  | replans hreplans => exact ⟨_, hreplans.toStarts, by simpa using he⟩

/-- So is an execution among the events of a step with which the run ends waiting. -/
lemma HaltCases.exists_starts {e : Execution} {last : LoopEnd W} (h : HaltCases cfg st events last)
    (he : .executed e ∈ events) : ∃ step, Starts cfg st step ∧ e = stepExecution cfg st step := by
  cases h with
  | emptyPlan | pastEnd | receiptMissing | waits | governorBlocks => simp at he
  | raises hstarts => exact ⟨_, hstarts, by simpa using he⟩
  | completionRaises hexec | stops hexec | completes hexec =>
    exact ⟨_, hexec.toStarts, by simpa using he⟩
  | replannerRaises hreplans | violates hreplans | answers hreplans =>
    exact ⟨_, hreplans.toStarts, by simpa using he⟩

/-- What an invariant of the run says of every execution. -/
theorem forall_executed {I : LoopState W → Prop} {P : Execution → Prop}
    (hstep : ∀ s fs t, s.snapshot.state = .executing → I s → NextCases cfg s fs t → I t)
    (hexecuted : ∀ s step, s.snapshot.state = .executing → I s → Starts cfg s step →
      P (stepExecution cfg s step))
    {e : Execution} (h : (loopStep cfg).Emits st (.executed e))
    (hs : st.snapshot.state = .executing) (hI : I st) : P e := by
  obtain ⟨es, s, hreach, he⟩ := h
  have hexec := executing_of_reaches hreach hs
  obtain ⟨step, hstarts, rfl⟩ := exists_starts_of_mem hexec he
  exact hexecuted s step hexec (invariant_of_reaches hstep hreach hs hI) hstarts

/-- A run of `start_task_loop` starts with an executing snapshot. -/
@[simp] lemma startTaskLoop_executing (rt : PyRuntime) (plan : ThinkingPlan)
    (options : StartOptions) (world : W) :
    (startTaskLoop rt plan options world).snapshot.state = .executing := rfl

/-- The state in which a waiting snapshot is resumed, given what the caller supplies. -/
@[simps]
def continuedFrom (s : TaskLoopSnapshot) (plan : ThinkingPlan) (stepReceipts : Option StepReceipts)
    (receiptValidator : Option ReceiptValidator) (world : W) : LoopState W where
  plan := plan
  snapshot := resumeSnapshot (resumeIndex s plan.steps.length) (s.moveTo .executing)
  stepReceipts := stepReceipts
  receiptValidator := receiptValidator
  approvedStepId := if s.stopReason = some .riskGateRequired then s.pendingStep else ""
  world := world

/-- How `continue_task_loop` resumes a snapshot. -/
lemma continueTaskLoop_resumed {rt : PyRuntime} {s : TaskLoopSnapshot} {userText : String}
    {plan : ThinkingPlan} {stepReceipts : Option StepReceipts}
    {receiptValidator : Option ReceiptValidator} {world : W}
    (h : continueTaskLoop rt s userText plan stepReceipts receiptValidator world = .resumed st) :
    s.state = .waiting ∧ rt.lower (strip userText) ∉ cancelWords ∧
      st = continuedFrom s plan stepReceipts receiptValidator world := by
  rw [continueTaskLoop] at h
  split at h
  · cases h
  · rename_i hwaiting
    rw [ne_eq, not_not] at hwaiting
    split at h
    · cases h
    · rename_i hcancel
      rw [TaskLoopSnapshot.transitionTo_eq_ok (by simp [hwaiting, allowedTransitions])] at h
      exact ⟨hwaiting, hcancel, (Continuation.resumed.inj h).symm⟩

/-- A run pauses in a state: its step has the receipt it needs, and it waits for approval. -/
structure Pauses (cfg : LoopConfig W) (st : LoopState W) (step : PlanStep)
    (wait : StopReason × String × String) : Prop where
  step_at : st.plan.steps[st.snapshot.currentStepIndex]? = some step
  receipt_gate : receiptRequired cfg st = true → (stepReceipt cfg st step).isSome
  approval_gate : waitingGate cfg st step = some wait

/-- A run that ends waiting waits for the approval of the step at its index, or for a
decision of the user after that step. -/
lemma HaltCases.waiting {result : TaskLoopResult} {last : W}
    (h : HaltCases cfg st events { outcome := .ok result, world := last })
    (hwaiting : result.snapshot.state = .waiting) :
    (∃ step wait, Pauses cfg st step wait ∧ events = [] ∧
      result = { waitingResult st step wait with activePlan := some st.plan }) ∨
    (∃ step stepResult, Executes cfg st step stepResult ∧
      (stepDecision cfg st step stepResult).action = .waiting ∧
      events = [.executed (stepExecution cfg st step)] ∧
      result = { endedResult cfg st step stepResult with activePlan := some st.plan }) := by
  cases h with
  | receiptMissing | governorBlocks | violates => cases hwaiting
  | waits hstep hreceipt hwait => exact .inl ⟨_, _, ⟨hstep, hreceipt, hwait⟩, rfl, rfl⟩
  | @stops step stepResult hexec _ haction =>
    have htarget : targetState (stepDecision cfg st step stepResult).action = .waiting := by
      rw [← endedSnapshot_state]
      exact hwaiting
    refine .inr ⟨step, stepResult, hexec, ?_, rfl, rfl⟩
    cases h : (stepDecision cfg st step stepResult).action <;> simp_all [targetState]
  | @completes step stepResult final failed hexec _ haction hfinalized _ =>
    cases hfinalized with
    | complete =>
      have : targetState (stepDecision cfg st step stepResult).action = .waiting := by
        rw [← endedSnapshot_state]
        exact hwaiting
      simp [haction, targetState] at this
    | replan | block => cases hwaiting
  | answers => cases hwaiting

/-- The approval gate waits at the risk gate. -/
lemma waitingGate_riskGate {step : PlanStep} {wait : StopReason × String × String}
    (h : waitingGate cfg st step = some wait) : wait.1 = .riskGateRequired := by
  rw [waitingGate] at h
  split at h
  · cases h
  · exact requiresWaiting_reason h

/-! ### Scripted runs -/

/-- A tool runner that answers from a script, which is its world, and that fails when the
script is over. -/
def scriptedToolRunner (script : List ToolReply) (_ : TaskToolCall) : ToolReply × List ToolReply :=
  match script with
  | reply :: rest => (reply, rest)
  | [] => (.raised "tool_runner_missing", [])

/-- The configuration of a run that answers from a script, at time zero, with the given tools
registered. -/
def scriptedConfig (tools : ToolDetails) : LoopConfig (List ToolReply) where
  rt := .ascii
  toolRunner := scriptedToolRunner
  clock := fun script => ({ stepStart := 0, toolCall := 0, reflection := 0, completion := 0 }, script)
  toolDetailsByName := some tools

/-- A successful reply with a structurally valid result. -/
def validReply (result : PyDict) : ToolReply :=
  .returned {
    status := .successValue
    result := result
    structuralResult := some (.dict result)
    structuralValidationStatus := .valid
    missing_iff := by simp }

/-- A step that reads a value. -/
def readingStep (stepId : String) : PlanStep where
  stepId := stepId
  title := "Use value_read"
  goal := "Read the value"
  tool := some "value_read"

/-- The plan of one such step. -/
def readingPlan : ThinkingPlan where
  intent := "read"
  steps := [readingStep "tool_1"]
  needsTaskLoop := true
  riskLevel := .safe

/-- A step that needs approval. -/
def deletionStep (stepId : String) : PlanStep where
  stepId := stepId
  title := "Use file_delete"
  goal := "Delete the file"
  tool := some "file_delete"
  risk := .needsConfirmation

/-- The plan of one such step. -/
def deletionPlan : ThinkingPlan where
  intent := "delete"
  steps := [deletionStep "tool_1"]
  needsTaskLoop := true
  riskLevel := .needsConfirmation

/-! ### Sessions -/

/-- A call of `start_task_loop` or `continue_task_loop` that runs the loop: how the run is
configured, the state it starts from, and the snapshot it resumes, if any. -/
structure LoopCall (W : Type) where
  cfg : LoopConfig W
  state : LoopState W
  resumes : Option TaskLoopSnapshot

/-- The calls of a session, each with the events of the calls before it: a start, and any
number of continuations, each of the result of the call before it and with the plan that was
active there.  Every call satisfies `P`. -/
inductive SessionCall (P : LoopCall W → Prop) : LoopCall W → List LoopEvent → Prop
  | start {cfg : LoopConfig W} {plan : ThinkingPlan} {options : StartOptions} {world : W} :
      P ⟨cfg, startTaskLoop cfg.rt plan options world, none⟩ →
      SessionCall P ⟨cfg, startTaskLoop cfg.rt plan options world, none⟩ []
  | continue {call : LoopCall W} {history events : List LoopEvent} {result : TaskLoopResult}
      {last world : W} {cfg : LoopConfig W} {plan : ThinkingPlan} {userText : String}
      {stepReceipts : Option StepReceipts} {receiptValidator : Option ReceiptValidator}
      {st : LoopState W} :
      SessionCall P call history →
      (loopStep call.cfg).HaltsWith call.state events { outcome := .ok result, world := last } →
      result.activePlan = some plan →
      continueTaskLoop cfg.rt result.snapshot userText plan stepReceipts receiptValidator world =
        .resumed st →
      P ⟨cfg.continued, st, some result.snapshot⟩ →
      SessionCall P ⟨cfg.continued, st, some result.snapshot⟩ (history ++ events)

variable {P : LoopCall W → Prop} {call : LoopCall W} {history : List LoopEvent}

/-- Every call of a session starts with an executing snapshot. -/
lemma SessionCall.executing (h : SessionCall P call history) :
    call.state.snapshot.state = .executing := by
  cases h with
  | start => rfl
  | «continue» _ _ _ hresumed =>
    obtain ⟨-, -, rfl⟩ := continueTaskLoop_resumed hresumed
    rfl

lemma SessionCall.property (h : SessionCall P call history) : P call := by
  cases h <;> assumption

/-- A property of the events and the state that holds at a start, that every way of going on
preserves, and that a resumption preserves, holds throughout every session. -/
theorem SessionCall.trace_invariant {I : List LoopEvent → LoopState W → Prop}
    (hstart : ∀ cfg plan options world, P ⟨cfg, startTaskLoop cfg.rt plan options world, none⟩ →
      I [] (startTaskLoop cfg.rt plan options world))
    (hnext : ∀ call es s fs t, P call → (∃ gs, (loopStep call.cfg).Reaches call.state gs s) →
      s.snapshot.state = .executing → I es s → NextCases call.cfg s fs t → I (es ++ fs) t)
    (hresume : ∀ call es s fs result plan stepReceipts receiptValidator last world, P call →
      (∃ gs, (loopStep call.cfg).Reaches call.state gs s) →
      s.snapshot.state = .executing → I es s →
      HaltCases call.cfg s fs { outcome := .ok result, world := last } →
      result.snapshot.state = .waiting → result.activePlan = some plan →
      I (es ++ fs) (continuedFrom result.snapshot plan stepReceipts receiptValidator world))
    (h : SessionCall P call history) (hreach : (loopStep call.cfg).Reaches call.state events st) :
    I (history ++ events) st := by
  have hrun : ∀ call history, P call → call.state.snapshot.state = .executing →
      I history call.state → ∀ events st,
      (loopStep call.cfg).Reaches call.state events st → I (history ++ events) st := by
    intro call history hP hs hI events st hreach
    induction hreach with
    | refl => rwa [List.append_nil]
    | step hreach hstep ih =>
      have hexec := executing_of_reaches hreach hs
      rw [← List.append_assoc]
      exact hnext call _ _ _ _ hP ⟨_, hreach⟩ hexec ih (nextCases hexec hstep)
  suffices hI : I history call.state from hrun call history h.property h.executing hI events st hreach
  clear hreach
  induction h with
  | start hP => exact hstart _ _ _ _ hP
  | «continue» hcall hhalts hplan hresumed _ ih =>
    obtain ⟨hwaiting, -, rfl⟩ := continueTaskLoop_resumed hresumed
    obtain ⟨t, es₁, es₂, hreach, hlast, rfl⟩ := hhalts.exists_last
    have hexec := executing_of_reaches hreach hcall.executing
    have hI := hrun _ _ hcall.property hcall.executing ih _ _ hreach
    rw [← List.append_assoc]
    exact hresume _ _ _ _ _ _ _ _ _ _ hcall.property ⟨_, hreach⟩ hexec hI (haltCases hexec hlast)
      hwaiting hplan

/-- Every execution of a session was made by a pass of one of its calls. -/
lemma SessionCall.exists_starts {e : Execution} (h : SessionCall P call history)
    (hreach : (loopStep call.cfg).Reaches call.state events st)
    (he : .executed e ∈ history ++ events) :
    ∃ made s step, P made ∧ Starts made.cfg s step ∧ e = stepExecution made.cfg s step := by
  refine h.trace_invariant (I := fun es _ => ∀ e, LoopEvent.executed e ∈ es →
    ∃ made s step, P made ∧ Starts made.cfg s step ∧ e = stepExecution made.cfg s step)
    ?_ ?_ ?_ hreach e he
  · intro cfg plan options world _ e he
    simp at he
  · intro call es s fs t hP _ _ hI hnext e he
    rcases List.mem_append.1 he with he | he
    · exact hI e he
    · obtain ⟨step, hstarts, rfl⟩ := hnext.exists_starts he
      exact ⟨call, s, step, hP, hstarts, rfl⟩
  · intro call es s fs result plan stepReceipts receiptValidator last world hP _ _ hI hhalt _ _ e he
    rcases List.mem_append.1 he with he | he
    · exact hI e he
    · obtain ⟨step, hstarts, rfl⟩ := hhalt.exists_starts he
      exact ⟨call, s, step, hP, hstarts, rfl⟩

end Trion.TaskLoop
