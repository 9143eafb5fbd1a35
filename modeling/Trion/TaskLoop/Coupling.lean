import Trion.TaskLoop.Runs

/-!
# Two runs side by side

Two runs of the loop may differ in their gates, in the receipts they record and in what their
tools write.  As long as the gates decide alike and everything else answers alike, a step of
the one is a step of the other: they make the same tool calls and lead to like states.  How
far the tools' outputs and artifacts may differ, and whether the receipts may, is a parameter.
-/

namespace Trion.TaskLoop

open Trion.Python Trion.Thinking StepMachine

/-- Two computations raise the same exception or return related values. -/
inductive ExceptRel {ε α β : Type} (R : α → β → Prop) : Except ε α → Except ε β → Prop
  | error (e : ε) : ExceptRel R (.error e) (.error e)
  | ok {a : α} {b : β} : R a b → ExceptRel R (.ok a) (.ok b)

lemma ExceptRel.bind {ε α β γ δ : Type} {R : α → β → Prop} {S : γ → δ → Prop}
    {x : Except ε α} {y : Except ε β} {f : α → Except ε γ} {g : β → Except ε δ}
    (h : ExceptRel R x y) (hfg : ∀ a b, R a b → ExceptRel S (f a) (g b)) :
    ExceptRel S (x >>= f) (y >>= g) := by
  cases h with
  | error e => exact .error e
  | ok hab => exact hfg _ _ hab

lemma ExceptRel.eq_error {ε α β : Type} {R : α → β → Prop} {e : ε} {y : Except ε β}
    (h : ExceptRel R (.error e) y) : y = .error e := by
  cases h
  rfl

lemma ExceptRel.exists_ok {ε α β : Type} {R : α → β → Prop} {a : α} {y : Except ε β}
    (h : ExceptRel R (.ok a) y) : ∃ b, y = .ok b ∧ R a b := by
  cases h with
  | ok hab => exact ⟨_, rfl, hab⟩

/-! ### Like snapshots and results -/

/-- How far the artifacts and the outputs of two runs may differ, and whether their receipts
are the same. -/
structure Likeness where
  artifact : PyVal → PyVal → Prop
  output : PyDict → PyDict → Prop
  sameReceipts : Prop

/-- A snapshot without what two runs may differ in: the artifacts, the receipts, the approval
settings and the state before the current one. -/
def TaskLoopSnapshot.core (s : TaskLoopSnapshot) : TaskLoopSnapshot :=
  { s with
    artifacts := []
    stepOperationExecutions := []
    approvalMode := ""
    approvalRequiredTools := []
    previousState := none }

variable {L : Likeness} {s t : TaskLoopSnapshot} {r r' : StepExecutionResult}

/-- Two snapshots with like artifacts that agree in their core. -/
structure SnapshotRel (L : Likeness) (s t : TaskLoopSnapshot) : Prop where
  core_eq : s.core = t.core
  artifacts : List.Forall₂ L.artifact s.artifacts t.artifacts
  executions : L.sameReceipts → s.stepOperationExecutions = t.stepOperationExecutions

/-- Two results of a step that agree but for like outputs and artifacts. -/
structure ResultRel (L : Likeness) (r r' : StepExecutionResult) : Prop where
  stepId : r.stepId = r'.stepId
  status : r.status = r'.status
  error : r.error = r'.error
  toolCallStarted : r.toolCallStarted = r'.toolCallStarted
  structuralResult : r.structuralResult = r'.structuralResult
  keys : r.output.map (·.1) = r'.output.map (·.1)
  output : L.output r.output r'.output
  artifacts : List.Forall₂ L.artifact r.artifacts r'.artifacts
  receipt : L.sameReceipts → r.receipt = r'.receipt

/-- Two results of a run that agree but for like snapshots. -/
structure TaskResultRel (L : Likeness) (a b : TaskLoopResult) : Prop where
  state : a.state = b.state
  stopReason : a.stopReason = b.stopReason
  visibleContent : a.visibleContent = b.visibleContent
  completionStatus : a.completionStatus = b.completionStatus
  activePlan : a.activePlan = b.activePlan
  structuralResults : a.structuralResults = b.structuralResults
  snapshot : SnapshotRel L a.snapshot b.snapshot
  artifacts : List.Forall₂ L.artifact a.artifacts b.artifacts

/-- An update that neither reads nor writes what two runs may differ in; the executions it may
also clear. -/
structure KeepsLikeness (f : TaskLoopSnapshot → TaskLoopSnapshot) : Prop where
  core : ∀ u, (f u).core = (f u.core).core
  artifacts : ∀ u, (f u).artifacts = u.artifacts
  executions : ∀ u v : TaskLoopSnapshot, u.stepOperationExecutions = v.stepOperationExecutions →
    (f u).stepOperationExecutions = (f v).stepOperationExecutions

namespace SnapshotRel

lemma state (h : SnapshotRel L s t) : s.state = t.state :=
  congrArg (·.state) h.core_eq

lemma currentStepIndex (h : SnapshotRel L s t) : s.currentStepIndex = t.currentStepIndex :=
  congrArg (·.currentStepIndex) h.core_eq

lemma stopReason (h : SnapshotRel L s t) : s.stopReason = t.stopReason :=
  congrArg (·.stopReason) h.core_eq

lemma completedSteps (h : SnapshotRel L s t) : s.completedSteps = t.completedSteps :=
  congrArg (·.completedSteps) h.core_eq

lemma pendingStep (h : SnapshotRel L s t) : s.pendingStep = t.pendingStep :=
  congrArg (·.pendingStep) h.core_eq

/-- The governor sees like snapshots alike. -/
lemma governor (h : SnapshotRel L s t) :
    runGovernorFromSnapshot s = runGovernorFromSnapshot t := by
  have hcore : ∀ u : TaskLoopSnapshot,
      runGovernorFromSnapshot u = runGovernorFromSnapshot u.core := fun _ => rfl
  rw [hcore s, hcore t, h.core_eq]

lemma update (h : SnapshotRel L s t) (f : TaskLoopSnapshot → TaskLoopSnapshot)
    (hf : KeepsLikeness f) : SnapshotRel L (f s) (f t) where
  core_eq := by rw [hf.core s, hf.core t, h.core_eq]
  artifacts := by
    rw [hf.artifacts, hf.artifacts]
    exact h.artifacts
  executions hreceipts := hf.executions s t (h.executions hreceipts)

lemma moveTo (h : SnapshotRel L s t) (next : TaskLoopState) :
    SnapshotRel L (s.moveTo next) (t.moveTo next) :=
  h.update (·.moveTo next) ⟨fun _ => rfl, fun _ => rfl, fun _ _ h => h⟩

/-- Like snapshots allow the same transitions. -/
lemma transitionTo (h : SnapshotRel L s t) (next : TaskLoopState)
    (f : TaskLoopSnapshot → TaskLoopSnapshot) (hf : KeepsLikeness f) :
    ExceptRel (SnapshotRel L) (s.transitionTo next f) (t.transitionTo next f) := by
  rw [TaskLoopSnapshot.transitionTo, TaskLoopSnapshot.transitionTo,
    TaskLoopSnapshot.canTransitionTo, TaskLoopSnapshot.canTransitionTo, h.state]
  split
  · exact .ok ((h.moveTo next).update f hf)
  · exact .error _

/-- Like results are recorded alike. -/
lemma recordExecution (h : SnapshotRel L s t) (hr : ResultRel L r r')
    (decision : ReflectionDecision) :
    SnapshotRel L (recordExecution r decision s) (recordExecution r' decision t) where
  core_eq := by
    have hstep : ∀ u : TaskLoopSnapshot, (TaskLoop.recordExecution r decision u).core =
        (TaskLoop.recordExecution r' decision u.core).core := by
      intro u
      simp only [TaskLoop.recordExecution, TaskLoopSnapshot.core, hr.status, hr.toolCallStarted]
    have hrefl : ∀ u : TaskLoopSnapshot, (TaskLoop.recordExecution r' decision u).core =
        (TaskLoop.recordExecution r' decision u.core).core := fun _ => rfl
    rw [hstep, hrefl t, h.core_eq]
  artifacts := List.rel_append h.artifacts hr.artifacts
  executions hreceipts := by
    simp only [TaskLoop.recordExecution, appendExecution, h.executions hreceipts,
      hr.receipt hreceipts, hr.status]

/-- Like snapshots are presented alike. -/
lemma resultOf (h : SnapshotRel L s t) (content : String) (status : CompletionStatus)
    (structuralResults : List (Option PyVal)) :
    TaskResultRel L (resultOf s content status structuralResults)
      (resultOf t content status structuralResults) where
  state := h.state
  stopReason := h.stopReason
  visibleContent := rfl
  completionStatus := rfl
  activePlan := rfl
  structuralResults := rfl
  snapshot := h
  artifacts := h.artifacts

end SnapshotRel

/-- The signature of a result reads its keys and the number of its artifacts. -/
lemma ResultRel.signature (h : ResultRel L r r') :
    Reflection.signature r = Reflection.signature r' := by
  unfold Reflection.signature
  rw [h.stepId, h.status, h.error, h.keys, h.artifacts.length_eq]

/-- Like results over like snapshots are reflected on alike. -/
lemma ResultRel.evaluate (hr : ResultRel L r r') (h : SnapshotRel L s t) (rt : PyRuntime)
    (totalSteps : ℕ) (nowTs : ℚ) :
    Reflection.evaluate rt r s totalSteps nowTs = Reflection.evaluate rt r' t totalSteps nowTs := by
  have hcore : ∀ u : TaskLoopSnapshot, Reflection.evaluate rt r' u totalSteps nowTs =
      Reflection.evaluate rt r' u.core totalSteps nowTs := fun _ => rfl
  have hresult : Reflection.evaluate rt r s totalSteps nowTs =
      Reflection.evaluate rt r' s totalSteps nowTs := by
    unfold Reflection.evaluate Reflection.noProgressReached Reflection.nextNoProgressCount
    rw [hr.signature, hr.status, hr.stepId]
  rw [hresult, hcore s, hcore t, h.core_eq]

/-! ### Like configurations -/

variable {W : Type} {cfg cfg' : LoopConfig W} {ok : ThinkingPlan → Prop}
  {st st' : LoopState W} {step : PlanStep} {plan : ThinkingPlan}

/-- What two runs of `execute_step` agree in. -/
structure RunRel (L : Likeness) (a b : StepRun × W) : Prop where
  call : a.1.call = b.1.call
  world : a.2 = b.2
  outcome : ExceptRel (ResultRel L) a.1.outcome b.1.outcome

/-- Two configurations whose tools, planners, replanners and completion gates answer alike,
for plans of a kind that the planners and replanners keep to. -/
structure Coupled (L : Likeness) (ok : ThinkingPlan → Prop) (cfg cfg' : LoopConfig W) : Prop where
  nil : L.output [] []
  rt_eq : cfg'.rt = cfg.rt
  clock_eq : cfg'.clock = cfg.clock
  receiptMode : L.sameReceipts → cfg'.receiptMode = cfg.receiptMode
  receiptIssuer : L.sameReceipts → cfg'.receiptIssuer = cfg.receiptIssuer
  factory : L.sameReceipts → cfg'.receiptValidatorFactory = cfg.receiptValidatorFactory
  runs : ∀ world step s t receipt receipt' nowTs, SnapshotRel L s t →
    (L.sameReceipts → receipt = receipt') →
    RunRel L (executeStep cfg.executor cfg.toolRunner world step s receipt nowTs)
      (executeStep cfg'.executor cfg'.toolRunner world step t receipt' nowTs)
  expands : ∀ world plan index step r r', ok plan → ResultRel L r r' →
    expandedPlanAfterSuccess cfg' plan index step r' world =
      expandedPlanAfterSuccess cfg plan index step r world
  expands_ok : ∀ world plan index step r expanded, ok plan →
    (expandedPlanAfterSuccess cfg plan index step r world).1 = some expanded → ok expanded
  evaluates : ∀ plan artifacts artifacts', ok plan →
    List.Forall₂ L.artifact artifacts artifacts' →
    completedToolNames cfg'.rt artifacts' = completedToolNames cfg.rt artifacts ∧
      ExceptRel (fun evidence evidence' => ∀ allowed,
          outcomeOf cfg'.completion plan allowed evidence' =
            outcomeOf cfg.completion plan allowed evidence)
        (artifacts.mapM (EvidenceArtifact.fromDict cfg.rt))
        (artifacts'.mapM (EvidenceArtifact.fromDict cfg'.rt))
  replans : ∀ world plan r r' s t, ok plan → ResultRel L r r' → SnapshotRel L s t →
    (cfg'.replannerFn.map fun replan => replan world ⟨plan, r', t⟩) =
      cfg.replannerFn.map fun replan => replan world ⟨plan, r, s⟩
  replans_ok : ∀ world request replan replanned, cfg.replannerFn = some replan →
    (replan world request).1 = .plan replanned → ok replanned

/-- Two states of the loop that agree but for approvals and like snapshots, and have the same
receipts where these are the same. -/
structure StateRel (L : Likeness) (ok : ThinkingPlan → Prop) (st st' : LoopState W) : Prop where
  plan : st.plan = st'.plan
  plan_ok : ok st.plan
  snapshot : SnapshotRel L st.snapshot st'.snapshot
  structuralResults : st.structuralResults = st'.structuralResults
  world : st.world = st'.world
  stepReceipts : L.sameReceipts → st.stepReceipts = st'.stepReceipts
  receiptValidator : L.sameReceipts → st.receiptValidator = st'.receiptValidator

/-- Two events that are the same call of a tool, or the same question to the replanner with
the same answer. -/
inductive EventRel (L : Likeness) : LoopEvent → LoopEvent → Prop
  | executed {e e' : Execution} : e.plan = e'.plan → e.step = e'.step →
      e.run.call = e'.run.call → SnapshotRel L e.snapshot e'.snapshot →
      ExceptRel (ResultRel L) e.run.outcome e'.run.outcome →
      EventRel L (.executed e) (.executed e')
  | replanned {q q' : ReplanRequest} {reply : ReplanReply} : q.plan = q'.plan →
      ResultRel L q.failure q'.failure → SnapshotRel L q.snapshot q'.snapshot →
      EventRel L (.replanned q reply) (.replanned q' reply)

/-- Two ends of a run: the same exception, or like results, in the same world. -/
structure EndRel (L : Likeness) (a b : LoopEnd W) : Prop where
  outcome : ExceptRel (TaskResultRel L) a.outcome b.outcome
  world : a.world = b.world

/-- Two passes that lead to like states. -/
inductive PassRel (L : Likeness) (ok : ThinkingPlan → Prop) : Pass W → Pass W → Prop
  | continue {st st' : LoopState W} : StateRel L ok st st' →
      PassRel L ok (.continue st) (.continue st')
  | leave {a b : TaskLoopResult} {failed failed' : Option StepExecutionResult}
      {plan : ThinkingPlan} {world : W} : ok plan → TaskResultRel L a b →
      Option.Rel (ResultRel L) failed failed' →
      PassRel L ok (.leave a failed plan world) (.leave b failed' plan world)
  | raise (e : PyError) (world : W) : PassRel L ok (.raise e world) (.raise e world)

lemma PassRel.ofExcept {world : W} {x y : Except PyError (Pass W)}
    (h : ExceptRel (PassRel L ok) x y) : PassRel L ok (.ofExcept world x) (.ofExcept world y) := by
  cases h with
  | error e => exact .raise e world
  | ok hpass => exact hpass

/-! ### The completion gate -/

lemma ResultRel.refl_of_nil {failure : StepExecutionResult} (hartifacts : failure.artifacts = [])
    (houtput : L.output failure.output failure.output) : ResultRel L failure failure :=
  ⟨rfl, rfl, rfl, rfl, rfl, rfl, houtput, by rw [hartifacts]; exact .nil, fun _ => rfl⟩

/-- What the completion gate returns: like results and like failures. -/
abbrev CompletionRel (L : Likeness) (a b : TaskLoopResult × Option StepExecutionResult) : Prop :=
  TaskResultRel L a.1 b.1 ∧ Option.Rel (ResultRel L) a.2 b.2

/-- The completion gate treats like snapshots alike. -/
lemma Coupled.finalizeCompletion_rel (h : Coupled L ok cfg cfg')
    (hplan : ok plan) (hs : SnapshotRel L s t) (structuralResults : List (Option PyVal))
    (nowTs : ℚ) :
    ExceptRel (CompletionRel L)
      (finalizeCompletion cfg.completion plan s structuralResults nowTs)
      (finalizeCompletion cfg'.completion plan t structuralResults nowTs) := by
  obtain ⟨htools, hevidence⟩ := h.evaluates plan _ _ hplan hs.artifacts
  have hmissing : unresolvedAdditionalEvidenceTools cfg'.completion.rt plan t.artifacts =
      unresolvedAdditionalEvidenceTools cfg.completion.rt plan s.artifacts := by
    unfold unresolvedAdditionalEvidenceTools
    change _ = List.filter (fun tool => !(completedToolNames cfg.rt s.artifacts).contains tool) _
    rw [← htools]
    rfl
  unfold finalizeCompletion
  rw [hmissing, ← hs.governor, ← hs.completedSteps]
  dsimp only
  split
  · refine hevidence.bind fun evidence evidence' houtcome => ?_
    rw [← houtcome]
    unfold finalizeOutcome
    split
    · exact .ok ⟨hs.resultOf _ _ _, .none⟩
    · refine ExceptRel.bind
        (hs.transitionTo _ _ ⟨fun _ => rfl, fun _ => rfl, fun _ _ h => h⟩) ?_
      intro u v huv
      exact .ok ⟨huv.resultOf _ _ _, .some (ResultRel.refl_of_nil rfl h.nil)⟩
    · refine ExceptRel.bind
        (hs.transitionTo _ _ ⟨fun _ => rfl, fun _ => rfl, fun _ _ h => h⟩) ?_
      intro u v huv
      exact .ok ⟨huv.resultOf _ _ _, .none⟩
  · unfold finalizeMissing
    rw [← hs.completedSteps]
    dsimp only
    split
    · refine ExceptRel.bind
        (hs.transitionTo _ _ ⟨fun _ => rfl, fun _ => rfl, fun _ _ h => h⟩) ?_
      intro u v huv
      exact .ok ⟨huv.resultOf _ _ _, .none⟩
    · refine ExceptRel.bind
        (hs.transitionTo _ _ ⟨fun _ => rfl, fun _ => rfl, fun _ _ h => h⟩) ?_
      intro u v huv
      rw [huv.pendingStep]
      exact .ok ⟨huv.resultOf _ _ _, .some (ResultRel.refl_of_nil rfl h.nil)⟩

/-! ### One pass -/

namespace Coupled

lemma passClock_eq (h : Coupled L ok cfg cfg') (hst : StateRel L ok st st') :
    passClock cfg st = passClock cfg' st' := by
  rw [passClock, passClock, h.clock_eq, hst.world]

lemma clockWorld_eq (h : Coupled L ok cfg cfg') (hst : StateRel L ok st st') :
    (cfg.clock st.world).2 = (cfg'.clock st'.world).2 := by
  rw [h.clock_eq, hst.world]

/-- The same receipts are issued for a step. -/
lemma stepReceipt_eq (h : Coupled L ok cfg cfg') (hst : StateRel L ok st st') (step : PlanStep)
    (hreceipts : L.sameReceipts) : stepReceipt cfg st step = stepReceipt cfg' st' step := by
  rw [stepReceipt, stepReceipt, ← hst.plan, ← hst.stepReceipts hreceipts,
    ← hst.receiptValidator hreceipts, h.receiptIssuer hreceipts]
  unfold receiptForStep latestExecution receiptValidationContext
  rw [hst.snapshot.executions hreceipts, hst.snapshot.currentStepIndex,
    hst.snapshot.completedSteps]

/-- The same steps need a receipt. -/
lemma receiptRequired_eq (h : Coupled L ok cfg cfg') (hst : StateRel L ok st st')
    (hreceipts : L.sameReceipts) : receiptRequired cfg st = receiptRequired cfg' st' := by
  rw [receiptRequired, receiptRequired, receiptProtocolActive,
    receiptProtocolActive, ← hst.stepReceipts hreceipts, ← hst.receiptValidator hreceipts,
    h.receiptIssuer hreceipts, h.receiptMode hreceipts, hst.snapshot.executions hreceipts]

/-- The step runs alike. -/
lemma stepRun_rel (h : Coupled L ok cfg cfg') (hst : StateRel L ok st st') (step : PlanStep) :
    RunRel L (stepRun cfg st step) (stepRun cfg' st' step) := by
  rw [stepRun, stepRun, executeStarted, executeStarted, ← h.passClock_eq hst,
    ← h.clockWorld_eq hst]
  exact h.runs _ step _ _ _ _ _
    (hst.snapshot.update (startedSnapshot · step.stepId)
      ⟨fun _ => rfl, fun _ => rfl, fun _ _ h => h⟩)
    (h.stepReceipt_eq hst step)

lemma stepExecution_rel (h : Coupled L ok cfg cfg') (hst : StateRel L ok st st') (step : PlanStep) :
    EventRel L (.executed (stepExecution cfg st step)) (.executed (stepExecution cfg' st' step)) :=
  have hrun := h.stepRun_rel hst step
  .executed hst.plan rfl hrun.call
    (hst.snapshot.update (startedSnapshot · step.stepId)
      ⟨fun _ => rfl, fun _ => rfl, fun _ _ h => h⟩) hrun.outcome

lemma reflectedSnapshot_rel (hst : StateRel L ok st st') (step : PlanStep) :
    SnapshotRel L (reflectedSnapshot st step) (reflectedSnapshot st' step) :=
  hst.snapshot.update (fun u => (startedSnapshot u step.stepId).moveTo .reflecting)
    ⟨fun _ => rfl, fun _ => rfl, fun _ _ h => h⟩

lemma stepDecision_eq (h : Coupled L ok cfg cfg') (hst : StateRel L ok st st')
    (hr : ResultRel L r r') (step : PlanStep) :
    stepDecision cfg st step r = stepDecision cfg' st' step r' := by
  rw [stepDecision, stepDecision, h.rt_eq, ← h.passClock_eq hst, ← hst.plan]
  exact hr.evaluate (reflectedSnapshot_rel hst step) _ _ _

lemma stepExpansion_eq (h : Coupled L ok cfg cfg') (hst : StateRel L ok st st')
    (hr : ResultRel L r r') (step : PlanStep) :
    stepExpansion cfg st step r = stepExpansion cfg' st' step r' := by
  rw [stepExpansion, stepExpansion, ← hst.plan,
    ← hst.snapshot.currentStepIndex, ← (h.stepRun_rel hst step).world]
  exact (h.expands _ _ _ _ _ _ hst.plan_ok hr).symm

lemma structuralResultsAfter_eq (hst : StateRel L ok st st') (hr : ResultRel L r r') :
    structuralResultsAfter st r = structuralResultsAfter st' r' := by
  rw [structuralResultsAfter, structuralResultsAfter, hr.status,
    hr.structuralResult, hst.structuralResults]

lemma advancedSnapshot_rel (h : Coupled L ok cfg cfg') (hst : StateRel L ok st st')
    (hr : ResultRel L r r') (step : PlanStep) :
    SnapshotRel L (advancedSnapshot cfg st step r) (advancedSnapshot cfg' st' step r') := by
  rw [advancedSnapshot, advancedSnapshot, ← h.stepDecision_eq hst hr]
  exact ((reflectedSnapshot_rel hst step).update (fun u => advanceSnapshot step (u.moveTo .executing))
    ⟨fun _ => rfl, fun _ => rfl, fun _ _ h => h⟩).recordExecution hr _

lemma retriedSnapshot_rel (h : Coupled L ok cfg cfg') (hst : StateRel L ok st st')
    (hr : ResultRel L r r') (step : PlanStep) :
    SnapshotRel L (retriedSnapshot cfg st step r) (retriedSnapshot cfg' st' step r') := by
  rw [retriedSnapshot, retriedSnapshot, ← h.stepDecision_eq hst hr]
  exact ((reflectedSnapshot_rel hst step).update (fun u => retrySnapshot step (u.moveTo .executing))
    ⟨fun _ => rfl, fun _ => rfl, fun _ _ h => h⟩).recordExecution hr _

lemma endedSnapshot_rel (h : Coupled L ok cfg cfg') (hst : StateRel L ok st st')
    (hr : ResultRel L r r') (step : PlanStep) :
    SnapshotRel L (endedSnapshot cfg st step r) (endedSnapshot cfg' st' step r') := by
  rw [endedSnapshot, endedSnapshot, ← h.stepDecision_eq hst hr]
  exact ((reflectedSnapshot_rel hst step).update
    (fun u => finalSnapshot step (stepDecision cfg st step r)
      (u.moveTo (targetState (stepDecision cfg st step r).action)))
    ⟨fun _ => rfl, fun _ => rfl, fun _ _ h => h⟩).recordExecution hr _

lemma endedResult_rel (h : Coupled L ok cfg cfg') (hst : StateRel L ok st st')
    (hr : ResultRel L r r') (step : PlanStep) :
    TaskResultRel L (endedResult cfg st step r) (endedResult cfg' st' step r') := by
  have hended := h.endedSnapshot_rel hst hr step
  rw [endedResult, endedResult, ← structuralResultsAfter_eq hst hr,
    ← hended.state, ← hended.stopReason]
  exact hended.resultOf _ _ _

/-- What follows a step is alike. -/
lemma settledPass_rel (h : Coupled L ok cfg cfg') (hst : StateRel L ok st st')
    (hr : ResultRel L r r') (step : PlanStep) :
    PassRel L ok (settledPass cfg st step r) (settledPass cfg' st' step r') := by
  have hexpansion := h.stepExpansion_eq hst hr step
  have hok : ∀ plan, (stepExpansion cfg st step r).1 = some plan → ok plan :=
    fun plan hexpanded => h.expands_ok _ _ _ _ _ _ hst.plan_ok hexpanded
  rw [settledPass, settledPass, ← hexpansion, ← h.stepDecision_eq hst hr]
  cases hexpanded : (stepExpansion cfg st step r).1 with
  | some plan =>
    refine .continue ⟨rfl, hok plan hexpanded, h.advancedSnapshot_rel hst hr step,
      structuralResultsAfter_eq hst hr, congrArg Prod.snd hexpansion, hst.stepReceipts, ?_⟩
    intro hreceipts
    dsimp only [expandedState]
    rw [h.factory hreceipts, hst.receiptValidator hreceipts]
  | none =>
    cases (stepDecision cfg st step r).action with
    | «continue» =>
      refine .continue ⟨hst.plan, hst.plan_ok, ?_, structuralResultsAfter_eq hst hr,
        congrArg Prod.snd hexpansion, hst.stepReceipts, hst.receiptValidator⟩
      dsimp only [continuedState]
      rw [← hr.status]
      split
      · exact h.advancedSnapshot_rel hst hr step
      · exact h.retriedSnapshot_rel hst hr step
    | completed =>
      have hfinal := h.finalizeCompletion_rel hst.plan_ok (h.endedSnapshot_rel hst hr step)
        (structuralResultsAfter st r) (passClock cfg st).completion
      dsimp only
      rw [← structuralResultsAfter_eq hst hr, ← h.passClock_eq hst, ← hst.plan]
      refine PassRel.ofExcept (hfinal.bind fun a b hab => ?_)
      exact .ok (.leave hst.plan_ok hab.1 hab.2)
    | waiting | replan | block =>
      dsimp only
      rw [← hst.plan]
      exact .leave hst.plan_ok (h.endedResult_rel hst hr step) (.some hr)

end Coupled

/-- The gates let the step at the current index through. -/
def GatesPass (cfg : LoopConfig W) (st : LoopState W) : Prop :=
  ∀ step, st.plan.steps[st.snapshot.currentStepIndex]? = some step →
    (receiptRequired cfg st = true → (stepReceipt cfg st step).isSome) ∧
      waitingGate cfg st step = none

/-- What two steps of like runs do: like events, and like states or like ends. -/
abbrev StepRel (L : Likeness) (ok : ThinkingPlan → Prop)
    (a b : List LoopEvent × Outcome (LoopState W) (LoopEnd W)) : Prop :=
  List.Forall₂ (EventRel L) a.1 b.1 ∧ Machine.OutcomeRel (StateRel L ok) (EndRel L) a.2 b.2

namespace Coupled

/-- A step that is started runs alike. -/
lemma runStarted_rel (h : Coupled L ok cfg cfg') (hst : StateRel L ok st st')
    (hs : st.snapshot.state = .executing) (hstarts : Starts cfg st step)
    (hstarts' : Starts cfg' st' step) :
    List.Forall₂ (EventRel L)
      (runStarted cfg st step (stepReceipt cfg st step)
        (startedSnapshot st.snapshot step.stepId)).1
      (runStarted cfg' st' step (stepReceipt cfg' st' step)
        (startedSnapshot st'.snapshot step.stepId)).1 ∧
    PassRel L ok
      (runStarted cfg st step (stepReceipt cfg st step)
        (startedSnapshot st.snapshot step.stepId)).2
      (runStarted cfg' st' step (stepReceipt cfg' st' step)
        (startedSnapshot st'.snapshot step.stepId)).2 := by
  have hrun := h.stepRun_rel hst step
  have hs' : st'.snapshot.state = .executing := hst.snapshot.state ▸ hs
  have hevents := List.Forall₂.cons (h.stepExecution_rel hst step) .nil
  have hrel := hrun.outcome
  rcases houtcome : (stepRun cfg st step).1.outcome with e | r
  · rw [houtcome] at hrel
    rw [runStarted_of_raises houtcome, runStarted_of_raises hrel.eq_error, hrun.world]
    exact ⟨hevents, .raise e _⟩
  · rw [houtcome] at hrel
    obtain ⟨r', houtcome', hr⟩ := hrel.exists_ok
    rw [runStarted_of_executes hs ⟨hstarts, houtcome⟩,
      runStarted_of_executes hs' ⟨hstarts', houtcome'⟩]
    exact ⟨hevents, h.settledPass_rel hst hr step⟩

/-- A pass whose gates let its step through runs alike. -/
lemma executeWithReflection_rel (h : Coupled L ok cfg cfg')
    (hst : StateRel L ok st st') (hs : st.snapshot.state = .executing)
    (hgates : GatesPass cfg st) (hgates' : GatesPass cfg' st') :
    List.Forall₂ (EventRel L) (executeWithReflection cfg st).1 (executeWithReflection cfg' st').1 ∧
      PassRel L ok (executeWithReflection cfg st).2 (executeWithReflection cfg' st').2 := by
  have hs' : st'.snapshot.state = .executing := hst.snapshot.state ▸ hs
  have hcompletion : ∀ u : TaskLoopSnapshot, u.state = .executing → ∀ updates,
      u.transitionTo .completed updates = .error invalidCompletion := by
    intro u hu updates
    rw [TaskLoopSnapshot.transitionTo_eq_error (by simp [hu, allowedTransitions]), hu]
    rfl
  rw [executeWithReflection, executeWithReflection, ← hst.plan,
    ← hst.snapshot.currentStepIndex]
  split
  · rw [hcompletion _ hs, hcompletion _ hs', hst.world]
    exact ⟨.nil, .raise _ _⟩
  · split
    · rw [hcompletion _ hs, hcompletion _ hs', h.clock_eq, hst.world]
      exact ⟨.nil, .raise _ _⟩
    · rename_i step hstep
      have hstep' : st'.plan.steps[st'.snapshot.currentStepIndex]? = some step := by
        rw [← hst.plan, ← hst.snapshot.currentStepIndex]
        exact hstep
      obtain ⟨hreceipt, hwait⟩ := hgates step hstep
      obtain ⟨hreceipt', hwait'⟩ := hgates' step hstep'
      rw [gateStep_of_pass hreceipt hwait, gateStep_of_pass hreceipt' hwait']
      dsimp only
      rw [runStep, runStep]
      have hgovernor : (canStartStep (runGovernorFromSnapshot st.snapshot)
            (passClock cfg st).stepStart) =
          (canStartStep (runGovernorFromSnapshot st'.snapshot)
            (passClock cfg' st').stepStart) := by
        rw [hst.snapshot.governor, h.passClock_eq hst]
      cases hallowed : (canStartStep (runGovernorFromSnapshot st.snapshot)
          (passClock cfg st).stepStart).allowed with
      | true =>
        rw [startGovernedStep_of_allowed hs hallowed,
          startGovernedStep_of_allowed hs' (hgovernor ▸ hallowed)]
        exact h.runStarted_rel hst hs ⟨hstep, hreceipt, hwait, hallowed⟩
          ⟨hstep', hreceipt', hwait', hgovernor ▸ hallowed⟩
      | false =>
        rw [startGovernedStep_of_not_allowed hs hallowed,
          startGovernedStep_of_not_allowed hs' (hgovernor ▸ hallowed), ← hgovernor,
          ← h.clockWorld_eq hst, ← hst.plan, ← hst.structuralResults]
        refine ⟨.nil, .leave hst.plan_ok ?_ .none⟩
        have hblocked := (hst.snapshot.moveTo .blocked).update (fun u => { u with
          pendingStep := step.stepId
          stopReason := some .maxStepsReached
          waitingReason := some (canStartStep (runGovernorFromSnapshot st.snapshot)
            (passClock cfg st).stepStart).reason
          waitingSource := some "run_governor" })
          ⟨fun _ => rfl, fun _ => rfl, fun _ _ h => h⟩
        exact ⟨rfl, rfl, rfl, rfl, rfl, rfl, hblocked, hst.snapshot.artifacts⟩

/-- The replanner's answer leads both runs on alike. -/
lemma adoptReply_rel (h : Coupled L ok cfg cfg') {a b : TaskLoopResult} {world : W} {reply : ReplanReply}
    (hresult : TaskResultRel L a b) (hok : ∀ replanned, reply = .plan replanned → ok replanned) :
    Machine.OutcomeRel (StateRel L ok) (EndRel L) (adoptReply cfg plan a world reply)
      (adoptReply cfg' plan b world reply) := by
  have hsnapshot := hresult.snapshot
  cases reply with
  | raised e => exact .halt ⟨.error e, rfl⟩
  | violation reason =>
    refine .halt ⟨?_, rfl⟩
    dsimp only
    rw [blockedReplanResult, blockedReplanResult, ← hresult.structuralResults]
    refine ExceptRel.bind (R := TaskResultRel L) (ExceptRel.bind
      (hsnapshot.transitionTo _ _ ⟨fun _ => rfl, fun _ => rfl, fun _ _ h => h⟩)
      fun u v huv =>
        .ok (huv.resultOf _ _ _)) fun u v huv => .ok { huv with activePlan := rfl }
  | plan replanned =>
    rw [adoptReply, adoptReply]
    split
    · refine .halt ⟨ExceptRel.bind
        (hsnapshot.transitionTo _ _ ⟨fun _ => rfl, fun _ => rfl, fun _ _ _ => rfl⟩)
        fun u v huv => .ok { huv.resultOf _ _ _ with activePlan := rfl }, rfl⟩
    · have hreset := hsnapshot.transitionTo .executing (resetSnapshot replanned)
        ⟨fun _ => rfl, fun _ => rfl, fun _ _ _ => rfl⟩
      rw [resetForReplannedPlan, resetForReplannedPlan]
      generalize a.snapshot.transitionTo .executing (resetSnapshot replanned) = x at hreset ⊢
      generalize b.snapshot.transitionTo .executing (resetSnapshot replanned) = y at hreset ⊢
      cases hreset with
      | error e => exact .halt ⟨.error e, rfl⟩
      | ok huv =>
        refine .next ⟨rfl, hok replanned rfl, huv, rfl, rfl, ?_, ?_⟩ <;> intro hreceipts <;>
          simp only [epochState, h.receiptMode hreceipts, h.factory hreceipts]

/-- The passage to the next plan is alike. -/
lemma leaveEpoch_rel (h : Coupled L ok cfg cfg') {a b : TaskLoopResult}
    {failed failed' : Option StepExecutionResult} {world : W} (hplan : ok plan)
    (hresult : TaskResultRel L a b) (hfailed : Option.Rel (ResultRel L) failed failed') :
    StepRel L ok (leaveEpoch cfg a failed plan world) (leaveEpoch cfg' b failed' plan world) := by
  have hlast : EndRel L { outcome := .ok { a with activePlan := some plan }, world := world }
      { outcome := .ok { b with activePlan := some plan }, world := world } :=
    ⟨.ok { hresult with activePlan := rfl }, rfl⟩
  cases hfailed with
  | none =>
    rw [leaveEpoch_eq_halt (.inr (.inl rfl)), leaveEpoch_eq_halt (.inr (.inl rfl))]
    exact ⟨.nil, .halt hlast⟩
  | @some r r' hr =>
    have hreplans := h.replans world plan r r' a.snapshot b.snapshot hplan hr hresult.snapshot
    by_cases hstate : a.state = .replanning
    · have hstate' : b.state = .replanning := hresult.state ▸ hstate
      cases hreplanner : cfg.replannerFn with
      | none =>
        have hreplanner' : cfg'.replannerFn = none := by simpa [hreplanner] using hreplans
        rw [leaveEpoch_eq_halt (.inl hreplanner), leaveEpoch_eq_halt (.inl hreplanner')]
        exact ⟨.nil, .halt hlast⟩
      | some replan =>
        obtain ⟨replan', hreplanner', hreply⟩ : ∃ replan', cfg'.replannerFn = some replan' ∧
            replan' world ⟨plan, r', b.snapshot⟩ = replan world ⟨plan, r, a.snapshot⟩ := by
          simpa [hreplanner] using hreplans
        simp only [leaveEpoch, hreplanner, hreplanner', hstate, hstate', if_true, hreply]
        refine ⟨.cons (.replanned rfl hr hresult.snapshot) .nil, h.adoptReply_rel hresult ?_⟩
        intro replanned hanswer
        exact h.replans_ok _ _ _ _ hreplanner hanswer
    · have hstate' : b.state ≠ .replanning := hresult.state ▸ hstate
      rw [leaveEpoch_eq_halt (.inr (.inr hstate)), leaveEpoch_eq_halt (.inr (.inr hstate'))]
      exact ⟨.nil, .halt hlast⟩

/-- A step from like states whose gates let it through is alike. -/
theorem loopStep_rel (h : Coupled L ok cfg cfg') (hst : StateRel L ok st st')
    (hs : st.snapshot.state = .executing) (hgates : GatesPass cfg st)
    (hgates' : GatesPass cfg' st') : StepRel L ok (loopStep cfg st) (loopStep cfg' st') := by
  obtain ⟨hevents, hpass⟩ := h.executeWithReflection_rel hst hs hgates hgates'
  rw [loopStep, loopStep]
  rcases hleft : executeWithReflection cfg st with ⟨events, pass⟩
  rcases hright : executeWithReflection cfg' st' with ⟨events', pass'⟩
  rw [hleft, hright] at hevents hpass
  cases hpass with
  | «continue» hnext => exact ⟨hevents, .next hnext⟩
  | raise e world => exact ⟨hevents, .halt ⟨.error e, rfl⟩⟩
  | leave hok hresult hfailed =>
    obtain ⟨hmore, houtcome⟩ := h.leaveEpoch_rel hok hresult hfailed
    exact ⟨List.rel_append hevents hmore, houtcome⟩

end Coupled

/-! ### The same tools -/

/-- Artifacts and outputs do not differ. -/
def Likeness.identical (sameReceipts : Prop) : Likeness where
  artifact := Eq
  output := Eq
  sameReceipts := sameReceipts

variable {P : Prop} {receipt receipt' : Option StepOperationReceipt}

lemma SnapshotRel.artifacts_eq (h : SnapshotRel (.identical P) s t) : s.artifacts = t.artifacts :=
  List.forall₂_eq_eq_eq ▸ h.artifacts

/-- A result agrees with itself under another receipt. -/
lemma ResultRel.withReceipt (r : StepExecutionResult) (h : P → r.receipt = receipt') :
    ResultRel (.identical P) r { r with receipt := receipt' } :=
  ⟨rfl, rfl, rfl, rfl, rfl, rfl, rfl, List.forall₂_same.2 fun _ _ => rfl, h⟩

/-- Results that agree and have the same receipt are equal. -/
lemma ResultRel.eq (h : ResultRel (.identical True) r r') : r = r' := by
  obtain ⟨hid, hstatus, herror, hstarted, hstructural, -, houtput, hartifacts, hreceipt⟩ := h
  have hartifacts : r.artifacts = r'.artifacts := List.forall₂_eq_eq_eq ▸ hartifacts
  have hreceipt := hreceipt trivial
  cases r
  cases r'
  simp_all [Likeness.identical]

lemma finishStep_withReceipt (cfg : ExecutorSettings) (step : PlanStep) (call : TaskToolCall)
    (reply : ToolReply) (h : P → receipt = receipt') :
    ExceptRel (ResultRel (.identical P)) (finishStep cfg step receipt call reply)
      (finishStep cfg step receipt' call reply) := by
  cases reply with
  | raised message => exact .ok (ResultRel.withReceipt _ h)
  | returned result =>
    rw [finishStep, finishStep]
    split
    · exact .ok (ResultRel.withReceipt _ h)
    · dsimp only
      cases collectResultArtifacts cfg.rt (step.tool.getD "") step.stepId result.result
        (selfWrittenArtifacts result.result ++ validatedEvidenceArtifacts call.toolName step.stepId
          result.result (cfg.detail call.toolName) result.structuralResult
          result.structuralValidationStatus cfg.operationContractFingerprint) with
      | error e => exact .error e
      | ok collected => exact .ok (ResultRel.withReceipt _ h)

/-- The same tool runs a step alike from snapshots with the same artifacts. -/
lemma executeStep_rel (cfg : ExecutorSettings) (toolRunner : W → TaskToolCall → ToolReply × W)
    (world : W) (step : PlanStep) (nowTs : ℚ) (h : SnapshotRel (.identical P) s t)
    (hreceipt : P → receipt = receipt') :
    RunRel (.identical P) (executeStep cfg toolRunner world step s receipt nowTs)
      (executeStep cfg toolRunner world step t receipt' nowTs) := by
  have hgovernor : toolcallGovernorError s nowTs = toolcallGovernorError t nowTs := by
    rw [toolcallGovernorError, toolcallGovernorError, h.governor]
  unfold executeStep prepareStep
  rw [← h.artifacts_eq, ← hgovernor]
  by_cases htool : step.tool.getD "" = ""
  · simp only [if_pos htool]
    exact ⟨rfl, rfl, .ok (ResultRel.withReceipt _ hreceipt)⟩
  · simp only [if_neg htool]
    cases buildToolCall cfg.rt step s.artifacts cfg.defaultTimeoutS
      (outputSchemaFor (cfg.detail step.toolName)) with
    | error e => exact ⟨rfl, rfl, .error e⟩
    | ok call =>
      simp only [bind, Except.bind]
      cases checkExecutableNow cfg.rt call cfg.toolDetailsByName with
      | some error => exact ⟨rfl, rfl, .ok (ResultRel.withReceipt _ hreceipt)⟩
      | none =>
        by_cases herror : toolcallGovernorError s nowTs = ""
        · simp only [herror]
          exact ⟨rfl, rfl, finishStep_withReceipt _ _ _ _ hreceipt⟩
        · simp only [if_pos herror]
          exact ⟨rfl, rfl, .ok (ResultRel.withReceipt _ hreceipt)⟩

/-- A configuration is coupled with itself if its replanner answers alike to like snapshots. -/
lemma coupled_self (hreplans : ∀ replan world plan failure s t, cfg.replannerFn = some replan →
      SnapshotRel (.identical True) s t →
      replan world ⟨plan, failure, t⟩ = replan world ⟨plan, failure, s⟩) :
    Coupled (.identical True) (fun _ => True) cfg cfg where
  nil := rfl
  rt_eq := rfl
  clock_eq := rfl
  receiptMode _ := rfl
  receiptIssuer _ := rfl
  factory _ := rfl
  runs world step _ _ _ _ nowTs h hreceipt :=
    executeStep_rel cfg.executor cfg.toolRunner world step nowTs h hreceipt
  expands world plan index step r r' _ hr := by rw [hr.eq]
  expands_ok _ _ _ _ _ _ _ _ := trivial
  evaluates plan artifacts artifacts' _ h := by
    obtain rfl : artifacts = artifacts' := List.forall₂_eq_eq_eq ▸ h
    refine ⟨rfl, ?_⟩
    cases artifacts.mapM (EvidenceArtifact.fromDict cfg.rt) with
    | error e => exact .error e
    | ok evidence => exact .ok fun _ => rfl
  replans world plan r r' s t _ hr h := by
    rw [← hr.eq]
    cases hreplanner : cfg.replannerFn with
    | none => rfl
    | some replan =>
      rw [Option.map_some, Option.map_some, hreplans replan world plan r s t hreplanner h]
  replans_ok _ _ _ _ _ _ := trivial

end Trion.TaskLoop
