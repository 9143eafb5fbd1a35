import Trion.Pipeline.PlanStepIds
import Trion.TaskLoop.Epochs
import Trion.TaskLoop.Provenance

/-!
# Evidence and plan epochs

A run keeps its artifacts when it passes to another plan, and the evaluator attributes them to
steps by step id alone.  As long as whatever is brought names no step of another time or place,
the artifacts attributed to a step of the plan in force were brought by an execution of that
step in the current epoch.
-/

namespace Trion.TaskLoop

open Trion.Python Trion.Thinking Trion.Pipeline StepMachine

/-- One more event of the current epoch: a replanning the run goes on with starts the next. -/
def addToEpoch (executions : List Execution) : LoopEvent → List Execution
  | .executed e => executions ++ [e]
  | .replanned request reply =>
    if (LoopEvent.replanned request reply).adopted?.isSome then [] else executions

/-- The executions of the current epoch of a run. -/
def currentExecutions (events : List LoopEvent) : List Execution := events.foldl addToEpoch []

@[simp] lemma currentExecutions_executed (events : List LoopEvent) (e : Execution) :
    currentExecutions (events ++ [.executed e]) = currentExecutions events ++ [e] := by
  simp [currentExecutions, addToEpoch]

/-- The artifact names a step. -/
def Names (rt : PyRuntime) (raw : PyVal) (stepId : String) : Prop :=
  ∃ a, EvidenceArtifact.fromDict rt raw = .ok a ∧ a.stepId = stepId

/-- Every artifact that names a step of the plan was brought by an execution of that step, at
its place in the plan and in the current epoch. -/
def RestsOnActivePlan (rt : PyRuntime) (events : List LoopEvent) (plan : ThinkingPlan) : Prop :=
  ∀ e raw i stepId, (e, raw) ∈ produced events → plan.stepIds[i]? = some stepId →
    Names rt raw stepId →
    e ∈ currentExecutions events ∧ e.step.stepId = stepId ∧ e.snapshot.currentStepIndex = i

variable {W : Type} {cfg : LoopConfig W} {rt : PyRuntime} {st st' : LoopState W} {step : PlanStep}
  {result : StepExecutionResult} {events history : List LoopEvent} {plan : ThinkingPlan}
  {evidence : List EvidenceArtifact}

/-- The artifacts that a tool writes into its result name no other step of the plan. -/
def NamesOwnStep (rt : PyRuntime) (plan : ThinkingPlan) (step : PlanStep)
    (reply : Option ToolReply) : Prop :=
  ∀ answer, reply = some (.returned answer) → ∀ raw ∈ selfWrittenArtifacts answer.result,
    ∀ other ∈ plan.steps, Names rt raw other.stepId → other.stepId = step.stepId

/-- A call in which nothing names a step of another time or place: the steps of every plan have
distinct ids; what a tool writes names no other step of the plan; and when a plan is adopted or
expanded, no artifact brought so far names one of the steps it brings. -/
structure KeepsApart (rt : PyRuntime) (call : LoopCall W) : Prop where
  rt_eq : call.cfg.rt = rt
  distinct : call.resumes = none → call.state.plan.stepIds.Nodup
  selfWritten : ∀ es s step result, (loopStep call.cfg).Reaches call.state es s →
    Executes call.cfg s step result →
    NamesOwnStep rt s.plan step (stepExecution call.cfg s step).run.reply
  expands : ∀ es s step result expanded new, (loopStep call.cfg).Reaches call.state es s →
    Executes call.cfg s step result → (stepExpansion call.cfg s step result).1 = some expanded →
    expanded.steps.getLast? = some new →
    ∀ raw ∈ s.snapshot.artifacts ++ result.artifacts, ¬ Names rt raw new.stepId
  replans : ∀ es s step result request replanned replanner,
    (loopStep call.cfg).Reaches call.state es s → Replans call.cfg s step result request →
    call.cfg.replannerFn = some replanner →
    (replanner (stepExpansion call.cfg s step result).2 request).1 = .plan replanned →
    replanned.needsTaskLoop = true → replanned.stepIds.Nodup ∧
      ∀ raw ∈ request.snapshot.artifacts, ∀ new ∈ replanned.steps, ¬ Names rt raw new.stepId

/-- The plan's step ids are distinct and its evidence is its own. -/
structure OwnEvidence (rt : PyRuntime) (events : List LoopEvent) (plan : ThinkingPlan) : Prop where
  distinct : plan.stepIds.Nodup
  rests : RestsOnActivePlan rt events plan

/-- An artifact of a step's result names no other step of its plan. -/
lemma stepId_eq_of_names
    (hself : NamesOwnStep rt st.plan step (stepExecution cfg st step).run.reply) {raw : PyVal}
    (hraw : raw ∈ (stepExecution cfg st step).artifacts) {other : PlanStep}
    (hother : other ∈ st.plan.steps) (hnames : Names rt raw other.stepId) :
    other.stepId = step.stepId := by
  have hreplied : (stepExecution cfg st step).artifacts =
      repliedArtifacts cfg.executor step (stepExecution cfg st step).run.reply :=
    executeStep_artifacts
  rw [hreplied] at hraw
  obtain ⟨reply, hreply, hsource⟩ := mem_repliedArtifacts hraw
  obtain ⟨a, ha, hid⟩ := hnames
  rcases hsource.stepId ha with hmem | hstep
  · exact hself reply hreply raw hmem other hother ⟨a, ha, hid⟩
  · exact hid.symm.trans hstep

/-- The execution of a step under the plan keeps the evidence the plan's own. -/
lemma OwnEvidence.executed (h : OwnEvidence rt events st.plan) (hstarts : Starts cfg st step)
    (hself : NamesOwnStep rt st.plan step (stepExecution cfg st step).run.reply) :
    OwnEvidence rt (events ++ [.executed (stepExecution cfg st step)]) st.plan where
  distinct := h.distinct
  rests := by
    intro e raw i stepId hmem hi hnames
    rw [currentExecutions_executed, List.mem_append, List.mem_singleton]
    rw [produced_append, List.mem_append] at hmem
    rcases hmem with hmem | hmem
    · obtain ⟨he, hstep, hindex⟩ := h.rests e raw i stepId hmem hi hnames
      exact ⟨.inl he, hstep, hindex⟩
    · obtain ⟨he, hraw⟩ := mem_produced.1 hmem
      obtain rfl : e = _ := LoopEvent.executed.inj (List.mem_singleton.1 he)
      obtain ⟨other, hother, rfl⟩ : ∃ other, st.plan.steps[i]? = some other ∧
          other.stepId = stepId := by
        simpa [ThinkingPlan.stepIds] using hi
      have hid := stepId_eq_of_names hself hraw (List.mem_of_getElem? hother) hnames
      have hat : st.plan.stepIds[st.snapshot.currentStepIndex]? = some step.stepId := by
        simp [ThinkingPlan.stepIds, hstarts.step_at]
      have hindex : i = st.snapshot.currentStepIndex :=
        (List.getElem?_inj (List.getElem?_eq_some_iff.1 hi).1 h.distinct).1 (by rw [hi, hat, hid])
      exact ⟨.inr rfl, hid.symm, hindex.symm⟩

/-- A step that no artifact names has no evidence that is not its own. -/
lemma OwnEvidence.expands {expanded : ThinkingPlan} {new : PlanStep}
    (h : OwnEvidence rt events plan) (hexpansion : isExpansion plan expanded = true)
    (hlast : expanded.steps.getLast? = some new)
    (hnew : ∀ raw ∈ broughtArtifacts events, ¬ Names rt raw new.stepId) :
    OwnEvidence rt events expanded := by
  obtain ⟨⟨steps, last, hsteps, hsame, -⟩, -, hdistinct⟩ := isExpansion_iff.1 hexpansion
  obtain rfl : last = new := by simpa [hsteps] using hlast
  have hids : expanded.stepIds = plan.stepIds ++ [last.stepId] := by
    rw [ThinkingPlan.stepIds, ThinkingPlan.stepIds, hsteps, List.map_append,
      map_stepId_eq_of_stepsEq hsame, List.map_singleton]
  refine ⟨hdistinct.nodup, fun e raw i stepId hmem hi hnames => ?_⟩
  rw [hids, List.getElem?_append] at hi
  split at hi
  · exact h.rests e raw i stepId hmem hi hnames
  · have hmem' : raw ∈ broughtArtifacts events := List.mem_map_of_mem hmem
    obtain rfl : stepId = last.stepId := by
      simpa using List.mem_of_getElem? hi
    exact absurd hnames (hnew raw hmem')

/-- A plan whose steps no artifact names has no evidence yet. -/
lemma OwnEvidence.of_unnamed (hdistinct : plan.stepIds.Nodup)
    (hunnamed : ∀ raw ∈ broughtArtifacts events, ∀ new ∈ plan.steps, ¬ Names rt raw new.stepId) :
    OwnEvidence rt events plan := by
  refine ⟨hdistinct, fun e raw i stepId hmem hi hnames => ?_⟩
  obtain ⟨new, hnew, rfl⟩ : ∃ new ∈ plan.steps, new.stepId = stepId := by
    simpa [ThinkingPlan.stepIds] using List.mem_of_getElem? hi
  exact absurd hnames (hunnamed raw (List.mem_map_of_mem hmem) new hnew)

/-- An answer of the replanner with which the run does not go on leaves the evidence alone. -/
lemma OwnEvidence.next {call : LoopCall W} {es fs gs : List LoopEvent}
    (h : OwnEvidence rt es st.plan) (hcall : KeepsApart rt call)
    (hreach : (loopStep call.cfg).Reaches call.state gs st)
    (hartifacts : st.snapshot.artifacts = broughtArtifacts es)
    (hnext : NextCases call.cfg st fs st') : OwnEvidence rt (es ++ fs) st'.plan := by
  cases hnext with
  | @expands step result expanded hexec hexpanded =>
    have hexecuted := h.executed hexec.toStarts (hcall.selfWritten _ _ _ _ hreach hexec)
    obtain ⟨-, -, hexpansion, -⟩ := stepExpansion_eq_some hexpanded
    obtain ⟨⟨steps, new, hsteps, -⟩, -⟩ := isExpansion_iff.1 hexpansion
    have hlast : expanded.steps.getLast? = some new := by simp [hsteps]
    refine hexecuted.expands hexpansion hlast ?_
    have hnew := hcall.expands _ _ _ _ _ _ hreach hexec hexpanded hlast
    rw [hartifacts, ← hexec.brought [] rfl, ← List.map_append, ← produced_append] at hnew
    exact hnew
  | advances hexec => exact h.executed hexec.toStarts (hcall.selfWritten _ _ _ _ hreach hexec)
  | retries hexec => exact h.executed hexec.toStarts (hcall.selfWritten _ _ _ _ hreach hexec)
  | @replans step result request replanner replanned world hreplans hreplanner hreply hneeds =>
    obtain ⟨hdistinct, hnew⟩ := hcall.replans _ _ _ _ _ replanned _ hreach hreplans hreplanner
      (by rw [hreply]) hneeds
    refine .of_unnamed hdistinct ?_
    have hbrought : broughtArtifacts (es ++ [.executed (stepExecution call.cfg st step),
        .replanned request (.plan replanned)]) = request.snapshot.artifacts := by
      rw [hreplans.source.artifacts, hartifacts,
        ← hreplans.brought [.replanned request (.plan replanned)] rfl, ← List.map_append,
        ← produced_append]
    rw [hbrought]
    exact hnew

/-- In a session in which nothing names a step of another time or place, the evidence of the
plan in force is its own. -/
theorem SessionCall.ownEvidence {call : LoopCall W} (h : SessionCall (KeepsApart rt) call history)
    (hreach : (loopStep call.cfg).Reaches call.state events st) :
    OwnEvidence rt (history ++ events) st.plan := by
  refine (h.trace_invariant (I := fun es s => OwnEvidence rt es s.plan ∧
    s.snapshot.artifacts = broughtArtifacts es) ?_ ?_ ?_ hreach).1
  · intro cfg plan options world hcall
    exact ⟨.of_unnamed (hcall.distinct rfl) (by simp), rfl⟩
  · rintro call es s fs t hcall ⟨gs, hreach⟩ _ ⟨hI, hartifacts⟩ hnext
    refine ⟨hI.next hcall hreach hartifacts hnext, ?_⟩
    rw [hnext.artifacts_eq, hartifacts, ← List.map_append, ← produced_append]
  · rintro call es s fs result plan stepReceipts receiptValidator last world hcall ⟨gs, hreach⟩ _
      ⟨hI, hartifacts⟩ hhalt hwaiting hplan
    have hbrought := hhalt.artifacts_eq hwaiting
    rw [hartifacts, ← List.map_append, ← produced_append] at hbrought
    rcases hhalt.waiting hwaiting with
      ⟨step, wait, -, rfl, rfl⟩ | ⟨step, r, hexec, -, rfl, rfl⟩
    · obtain rfl : s.plan = plan := by simpa using hplan
      refine ⟨?_, hbrought⟩
      rw [List.append_nil, continuedFrom_plan]
      exact hI
    · obtain rfl : s.plan = plan := by simpa using hplan
      refine ⟨?_, hbrought⟩
      rw [continuedFrom_plan]
      exact hI.executed hexec.toStarts (hcall.selfWritten _ _ _ _ hreach hexec)

/-- In a session in which nothing names a step of another time or place, whenever the
completion gate judges a plan, the evidence is read from what the session's executions brought,
and every artifact attributed to a step of the plan was brought by an execution of that step, at
its place in the plan and in the current epoch. -/
theorem evidence_of_active_plan {call : LoopCall W}
    (h : SessionCall (KeepsApart rt) call history)
    (hat : EvaluatesOutcome call.cfg call.state events plan evidence) :
    List.Forall₂ (fun p a => EvidenceArtifact.fromDict rt p.2 = .ok a)
        (produced (history ++ events)) evidence ∧
      RestsOnActivePlan rt (history ++ events) plan := by
  constructor
  · have hread := hat.evidence h
    rw [h.property.rt_eq] at hread
    exact List.forall₂_map_left_iff.1 hread
  · cases hat with
    | intro hreach hexec =>
      have hown := (h.ownEvidence hreach).executed hexec.toStarts
        (h.property.selfWritten _ _ _ _ hreach hexec)
      rw [List.append_assoc] at hown
      exact hown.rests

/-- The configuration of a run whose tool always succeeds and writes nothing of its own. -/
def steadyConfig : LoopConfig Unit where
  rt := .ascii
  toolRunner := fun _ _ => (validReply [], ())
  clock := fun _ => ({ stepStart := 0, toolCall := 0, reflection := 0, completion := 0 }, ())
  toolDetailsByName := some [("value_read", {})]

/-- The call that starts the plan of one step with it. -/
def steadyCall : LoopCall Unit :=
  ⟨steadyConfig, startTaskLoop .ascii readingPlan { conversationId := "c" } (), none⟩

lemma steadyCall_keepsApart : KeepsApart .ascii steadyCall where
  rt_eq := rfl
  distinct _ := by decide
  selfWritten es s step result _ _ answer hreply raw hraw := by
    have hsteady : answer.result = [] := by
      change (executeStep _ _ _ _ _ _ _).1.reply = _ at hreply
      unfold executeStep at hreply
      split at hreply
      · cases hreply
      · cases hreply
      · obtain rfl := ToolReply.returned.inj (Option.some.inj hreply)
        rfl
    rw [hsteady] at hraw
    cases hraw
  expands es s step result expanded new _ _ hexpanded := by
    rw [stepExpansion_of_planner_none rfl] at hexpanded
    cases hexpanded
  replans es s step result request replanned replanner _ _ hreplanner := by
    cases hreplanner

theorem evidence_of_active_plan_reading :
    RestsOnActivePlan .ascii [.executed (stepExecution steadyConfig steadyCall.state
      (readingStep "tool_1"))] readingPlan :=
  have hat : EvaluatesOutcome steadyCall.cfg steadyCall.state
      ([] ++ [.executed (stepExecution steadyConfig steadyCall.state (readingStep "tool_1"))])
      readingPlan _ :=
    .intro (.refl _) ⟨⟨rfl, (fun h => nomatch h), rfl, rfl⟩, rfl⟩ rfl rfl rfl rfl
  (evidence_of_active_plan (.start steadyCall_keepsApart) hat).2

/-! A plan whose second step fails is replaced by one that uses the first step's id again. -/

/-- The tools: the first proves what it reads, the others prove nothing. -/
def reuseTools : ToolDetails :=
  [("value_read", { capabilityEvidenceTypes := ["value"] }), ("other_read", {})]

/-- A step that needs the evidence. -/
def provingStep (tool : String) : PlanStep :=
  { readingStep "tool_1" with tool := some tool, requiredEvidence := ["value"] }

/-- The first plan. -/
def firstPlan : ThinkingPlan :=
  { readingPlan with steps := [provingStep "value_read", readingStep "tool_2"] }

/-- The plan that replaces it: its one step reads with a tool that proves nothing. -/
def replacingPlan : ThinkingPlan := { readingPlan with steps := [provingStep "other_read"] }

/-- The run's configuration; its replanner always answers with that plan. -/
def reuseConfig : LoopConfig (List ToolReply) :=
  { scriptedConfig reuseTools with
    operationContractFingerprint := some "fp"
    replannerFn := some fun script _ => (.plan replacingPlan, script) }

/-- The start: the first step succeeds, the second fails, the step of the next plan succeeds. -/
def reuseStart : LoopState (List ToolReply) :=
  startTaskLoop .ascii firstPlan { conversationId := "c", maxRetriesPerStep := 0 }
    [validReply [], .raised "down", validReply []]

/-- The state after the first step. -/
def reuseSecond : LoopState (List ToolReply) :=
  { reuseStart with
    world := [.raised "down", validReply []]
    snapshot := match (loopStep reuseConfig reuseStart).2 with
      | .next st => st.snapshot
      | .halt _ => reuseStart.snapshot
    structuralResults := [some (.dict [])] }

/-- The state in which the second plan is taken up. -/
def reuseThird : LoopState (List ToolReply) :=
  { reuseStart with
    plan := replacingPlan
    snapshot := match (loopStep reuseConfig reuseSecond).2 with
      | .next st => st.snapshot
      | .halt _ => reuseSecond.snapshot
    world := [validReply []] }

/-- The events of the run up to the judgement on the second plan. -/
def reuseEvents : List LoopEvent :=
  (loopStep reuseConfig reuseStart).1 ++ (loopStep reuseConfig reuseSecond).1 ++
    [.executed (stepExecution reuseConfig reuseThird (provingStep "other_read"))]

/-- The evidence the second plan is judged by. -/
def reuseEvidence : List EvidenceArtifact :=
  ((broughtArtifacts reuseEvents).mapM (EvidenceArtifact.fromDict .ascii)).toOption.getD []

/-- The new plan is judged complete by the evidence of the discarded one. -/
theorem evidence_of_discarded_plan :
    EvaluatesOutcome reuseConfig reuseStart reuseEvents replacingPlan reuseEvidence ∧
      (outcomeOf reuseConfig.completion replacingPlan true reuseEvidence).action = .complete ∧
      ¬ RestsOnActivePlan .ascii reuseEvents replacingPlan := by
  have hfirst : (loopStep reuseConfig).Reaches reuseStart (loopStep reuseConfig reuseStart).1
      reuseSecond := .single rfl
  have hsecond : (loopStep reuseConfig).Reaches reuseSecond (loopStep reuseConfig reuseSecond).1
      reuseThird := .single rfl
  refine ⟨.intro (hfirst.trans hsecond) ⟨⟨rfl, (fun h => nomatch h), rfl, rfl⟩, rfl⟩ rfl rfl rfl rfl,
    by decide +kernel, fun hrests => ?_⟩
  have hbrought : (stepExecution reuseConfig reuseStart (provingStep "value_read"),
      evidenceArtifact "value_read" "tool_1" [] "fp" "value") ∈ produced reuseEvents :=
    List.mem_cons_self
  obtain ⟨hcurrent, -⟩ := hrests _ _ 0 "tool_1" hbrought rfl ⟨_, rfl, rfl⟩
  have hthird : currentExecutions reuseEvents =
      [stepExecution reuseConfig reuseThird (provingStep "other_read")] := rfl
  rw [hthird, List.mem_singleton] at hcurrent
  have hcount := congrArg (·.snapshot.replanCount) hcurrent
  cases hcount

end Trion.TaskLoop
