import Trion.TaskLoop.Coupling

/-!
# Pausing for approval

A gated run pauses where a step needs approval, and `continue_task_loop` takes its snapshot up
again.  A pause loses what the loop holds in local variables: the structural results of the
epoch so far, and whatever the caller of `continue_task_loop` does not hand back.  A run all of
whose pauses lose nothing is followed step by step by the run without the gate.
-/

namespace Trion.TaskLoop

open Trion.Python Trion.Thinking StepMachine

variable {W : Type}

/-! ### The gated run -/

/-- What the caller of `continue_task_loop` hands back after a pause. -/
structure HandedBack (W : Type) where
  cfg : LoopConfig W
  stepReceipts : Option StepReceipts := none
  receiptValidator : ThinkingPlan → Option ReceiptValidator := fun _ => none

/-- A run paused at the risk gate goes on when the user answers; no other run does. -/
def resumeApproved (handed : HandedBack W) (answer : String) (last : LoopEnd W) :
    Option (LoopState W) :=
  match last.outcome with
  | .error _ => none
  | .ok result =>
    if result.snapshot.state = .waiting ∧ result.snapshot.stopReason = some .riskGateRequired then
      result.activePlan.bind fun plan =>
        match continueTaskLoop handed.cfg.rt result.snapshot answer plan handed.stepReceipts
          (handed.receiptValidator plan) last.world with
        | .resumed st => some st
        | .finished _ => none
    else none

/-- The gated run: the loop, taken up again after every pause at the risk gate. -/
def gatedStep (handed : HandedBack W) (answer : String) :
    Machine (LoopConfig W × LoopState W) LoopEvent (LoopEnd W) := fun run =>
  match loopStep run.1 run.2 with
  | (events, .next st) => (events, .next (run.1, st))
  | (events, .halt last) =>
    match resumeApproved handed answer last with
    | some st => (events, .next (handed.cfg.continued, st))
    | none => (events, .halt last)

/-- The options of a run with the approval gate disabled. -/
def StartOptions.ungated (options : StartOptions) : StartOptions :=
  { options with approvalMode := "permissive", approvalRequiredTools := [] }

/-- Two runs end alike: with the same exception, or with results that have the same state,
completion status, stop reason, artifacts and structural results. -/
abbrev SameEnd (a b : LoopEnd W) : Prop :=
  ExceptRel (fun r r' : TaskLoopResult => r.state = r'.state ∧
    r.completionStatus = r'.completionStatus ∧ r.stopReason = r'.stopReason ∧
    r.artifacts = r'.artifacts ∧ r.structuralResults = r'.structuralResults) a.outcome b.outcome

/-- Pausing does not change a run: the gated run ends if and only if the run without the gate
does, after the same tool calls and alike. -/
def PauseTransparent (cfg : LoopConfig W) (handed : HandedBack W) (answer : String)
    (plan : ThinkingPlan) (options : StartOptions) (world : W) : Prop :=
  (∀ events last,
    (loopStep cfg).HaltsWith (startTaskLoop cfg.rt plan options.ungated world) events last →
    ∃ events' last', (gatedStep handed answer).HaltsWith
      (cfg, startTaskLoop cfg.rt plan options world) events' last' ∧
      toolCalls events' = toolCalls events ∧ SameEnd last last') ∧
  ∀ events' last', (gatedStep handed answer).HaltsWith
      (cfg, startTaskLoop cfg.rt plan options world) events' last' →
    ∃ events last,
      (loopStep cfg).HaltsWith (startTaskLoop cfg.rt plan options.ungated world) events last ∧
      toolCalls events' = toolCalls events ∧ SameEnd last last'

/-! ### What is kept at the head of the loop -/

variable {cfg : LoopConfig W} {st st' : LoopState W} {events : List LoopEvent} {step : PlanStep}
  {wait : StopReason × String × String}

/-- At the head of the loop nothing is stopped or awaited, and a step that is pending has passed
the approval gate. -/
structure AtHead (cfg : LoopConfig W) (st : LoopState W) : Prop where
  executing : st.snapshot.state = .executing
  stopReason : st.snapshot.stopReason = none
  waitingReason : st.snapshot.waitingReason = none
  waitingSource : st.snapshot.waitingSource = none
  pending : st.snapshot.pendingStep = "" ∨
    ∀ step, st.plan.steps[st.snapshot.currentStepIndex]? = some step →
      waitingGate cfg st step = none

/-- Whether a step waits is decided by the approval settings, which a run keeps. -/
lemma waitingGate_congr (hsettings : st'.snapshot.settings = st.snapshot.settings)
    (happroved : st'.approvedStepId = st.approvedStepId) :
    waitingGate cfg st' step = waitingGate cfg st step := by
  rw [waitingGate, waitingGate, happroved, requiresWaiting_congr
    (congrArg SnapshotSettings.approvalMode hsettings)
    (congrArg SnapshotSettings.approvalRequiredTools hsettings)]

/-- A run goes on at the head of its loop. -/
lemma AtHead.next (h : AtHead cfg st) (hnext : NextCases cfg st events st') : AtHead cfg st' := by
  have hsettings := hnext.settings
  have hexecuting := hnext.executing
  cases hnext with
  | expands =>
    exact ⟨hexecuting, rfl, h.waitingReason, h.waitingSource, .inl rfl⟩
  | advances =>
    exact ⟨hexecuting, rfl, h.waitingReason, h.waitingSource, .inl rfl⟩
  | @retries step result hexec =>
    refine ⟨hexecuting, rfl, h.waitingReason, h.waitingSource, .inr ?_⟩
    intro next hat
    rw [waitingGate_congr hsettings rfl]
    simp only [continuedState, retriedSnapshot_currentStepIndex] at hat
    obtain rfl : step = next := Option.some.inj (hexec.step_at.symm.trans hat)
    exact hexec.approval_gate
  | replans => exact ⟨hexecuting, rfl, rfl, rfl, .inl rfl⟩

/-- A run of `start_task_loop` starts at the head of its loop. -/
lemma atHead_start (cfg : LoopConfig W) (plan : ThinkingPlan) (options : StartOptions)
    (world : W) : AtHead cfg (startTaskLoop cfg.rt plan options world) :=
  ⟨rfl, rfl, rfl, rfl, .inl rfl⟩

/-! ### Pauses that lose nothing -/

variable {handed : HandedBack W} {answer : String} {u : LoopState W}
  {run : LoopConfig W × LoopState W}

/-- A pause in a state loses nothing: what is handed back is what the run had, which had no
evidence types, and no structural results have been gathered in the epoch. -/
structure LosesNothing (handed : HandedBack W) (cfg : LoopConfig W) (st : LoopState W) : Prop where
  config : handed.cfg.continued = cfg
  structuralResults : st.structuralResults = []
  stepReceipts : handed.stepReceipts = st.stepReceipts
  receiptValidator : handed.receiptValidator st.plan = st.receiptValidator

/-- Every pause of a gated run loses nothing. -/
def PausesLoseNothing (handed : HandedBack W) (answer : String)
    (run : LoopConfig W × LoopState W) : Prop :=
  ∀ events cfg st step wait, (gatedStep handed answer).Reaches run events (cfg, st) →
    Pauses cfg st step wait → LosesNothing handed cfg st

/-- The replanner does not look at the approval settings of a snapshot. -/
def IgnoresApproval (cfg : LoopConfig W) : Prop :=
  ∀ replan world plan failure s t, cfg.replannerFn = some replan →
    SnapshotRel (.identical True) s t →
    replan world ⟨plan, failure, t⟩ = replan world ⟨plan, failure, s⟩

/-- The state in which a paused run is taken up again. -/
def resumedState (st : LoopState W) (step : PlanStep) (wait : StopReason × String × String) :
    LoopState W :=
  { st with
    snapshot := resumeSnapshot st.snapshot.currentStepIndex
      ((waitingSnapshot step st.snapshot wait).moveTo .executing)
    approvedStepId := step.stepId }

/-- The step for which a run paused does not wait again. -/
lemma waitingGate_resumedState : waitingGate cfg (resumedState st step wait) step = none :=
  if_pos rfl

/-- A pause that loses nothing is a silent step of the gated run. -/
lemma gatedStep_of_pauses (hs : st.snapshot.state = .executing) (h : Pauses cfg st step wait)
    (hkept : LosesNothing handed cfg st) (hanswer : cfg.rt.lower (strip answer) ∉ cancelWords) :
    gatedStep handed answer (cfg, st) = ([], .next (cfg, resumedState st step wait)) := by
  have hlt : st.snapshot.currentStepIndex < st.plan.steps.length :=
    (List.getElem?_eq_some_iff.1 h.step_at).1
  have hrt : handed.cfg.rt = cfg.rt := by
    rw [← hkept.config]
    rfl
  have hindex : resumeIndex (waitingSnapshot step st.snapshot wait) st.plan.steps.length =
      st.snapshot.currentStepIndex := by
    rw [resumeIndex, waitingSnapshot_stopReason, waitingGate_riskGate h.approval_gate, if_pos rfl]
    exact Nat.min_eq_left hlt.le
  have hresumed : continueTaskLoop handed.cfg.rt (waitingSnapshot step st.snapshot wait) answer
      st.plan handed.stepReceipts (handed.receiptValidator st.plan) st.world =
        .resumed (resumedState st step wait) := by
    rw [continueTaskLoop, if_neg (by simp), hrt, if_neg hanswer,
      TaskLoopSnapshot.transitionTo_eq_ok (by simp [allowedTransitions]), hindex,
      waitingSnapshot_stopReason, waitingGate_riskGate h.approval_gate, hkept.stepReceipts,
      hkept.receiptValidator]
    simp [resumedState, hkept.structuralResults]
  have hresume : resumeApproved handed answer {
      outcome := .ok { waitingResult st step wait with activePlan := some st.plan }
      world := st.world } = some (resumedState st step wait) := by
    have hwaiting : (waitingResult st step wait).snapshot = waitingSnapshot step st.snapshot wait :=
      rfl
    simp only [resumeApproved, hwaiting, waitingSnapshot_state, waitingSnapshot_stopReason,
      TaskLoopSnapshot.moveTo_state, waitingGate_riskGate h.approval_gate, and_self, if_true,
      Option.bind_some, hresumed]
  rw [gatedStep]
  dsimp only
  rw [loopStep_of_waits hs h.step_at h.receipt_gate h.approval_gate]
  simp only [hresume, hkept.config]

/-! ### The two runs together -/

/-- A state of the run without the gate and one of the gated run that belong together. -/
structure Together (handed : HandedBack W) (answer : String) (cfg : LoopConfig W)
    (u : LoopState W) (run : LoopConfig W × LoopState W) : Prop where
  config : run.1 = cfg
  rel : StateRel (.identical True) (fun _ => True) u run.2
  approvalMode : u.snapshot.approvalMode = "permissive"
  approvalRequiredTools : u.snapshot.approvalRequiredTools = []
  head : AtHead cfg run.2
  pauses : PausesLoseNothing handed answer run

/-- Without the gate no step waits. -/
lemma Together.free (h : Together handed answer cfg u run)
    (hlower : cfg.rt.lower "permissive" = "permissive") (step : PlanStep) :
    waitingGate cfg u step = none := by
  have hstrip : strip "permissive" = "permissive" := by decide
  rw [waitingGate, requiresWaiting, h.approvalMode, h.approvalRequiredTools]
  simp [orElse, hstrip, hlower]

/-- A pause keeps the runs together. -/
lemma Together.resumed (h : Together handed answer cfg u (cfg, st)) (hpause : Pauses cfg st step wait)
    (hkept : LosesNothing handed cfg st) (hanswer : cfg.rt.lower (strip answer) ∉ cancelWords) :
    Together handed answer cfg u (cfg, resumedState st step wait) := by
  have hhead : AtHead cfg st := h.head
  have hpending : st.snapshot.pendingStep = "" := by
    rcases hhead.pending with hpending | hpassed
    · exact hpending
    · have hnone := hpassed step hpause.step_at
      rw [hpause.approval_gate] at hnone
      cases hnone
  have hcore : (resumedState st step wait).snapshot.core = st.snapshot.core := by
    simp [resumedState, resumeSnapshot, waitingSnapshot, TaskLoopSnapshot.moveTo,
      TaskLoopSnapshot.core, hpending, hhead.executing, hhead.stopReason, hhead.waitingReason,
      hhead.waitingSource]
  refine ⟨rfl, ?_, h.approvalMode, h.approvalRequiredTools, ⟨rfl, rfl, rfl, rfl, .inl rfl⟩, ?_⟩
  · exact { h.rel with
      snapshot := ⟨h.rel.snapshot.core_eq.trans hcore.symm, h.rel.snapshot.artifacts,
        h.rel.snapshot.executions⟩ }
  · intro events cfg' st' step' wait' hreach hpause'
    have hsilent := gatedStep_of_pauses h.head.executing hpause hkept hanswer
    exact h.pauses _ cfg' st' step' wait' ((Machine.Reaches.single hsilent).trans hreach) hpause'

/-- The gated run stands where it does not pause. -/
structure Ready (handed : HandedBack W) (answer : String) (cfg : LoopConfig W)
    (u : LoopState W) (run : LoopConfig W × LoopState W) : Prop where
  together : Together handed answer cfg u run
  passes : ∀ step wait, ¬Pauses cfg run.2 step wait

/-- After at most one pause the gated run goes on. -/
lemma Together.ready (h : Together handed answer cfg u run)
    (hanswer : cfg.rt.lower (strip answer) ∉ cancelWords) :
    ∃ run', (gatedStep handed answer).Reaches run [] run' ∧ Ready handed answer cfg u run' := by
  obtain ⟨cfg', st⟩ := run
  obtain rfl : cfg' = cfg := h.config
  by_cases hpauses : ∃ step wait, Pauses cfg' st step wait
  · obtain ⟨step, wait, hpause⟩ := hpauses
    have hkept := h.pauses [] cfg' st step wait (.refl _) hpause
    refine ⟨_, .single (gatedStep_of_pauses h.head.executing hpause hkept hanswer),
      h.resumed hpause hkept hanswer, ?_⟩
    intro step' wait' hpause'
    obtain rfl : step = step' := Option.some.inj (hpause.step_at.symm.trans hpause'.step_at)
    have hgate := hpause'.approval_gate
    rw [waitingGate_resumedState] at hgate
    cases hgate
  · exact ⟨_, .refl _, h, fun step wait hpause => hpauses ⟨step, wait, hpause⟩⟩

/-- A run that is ready ends with a step waiting at the risk gate only after a pause. -/
lemma Ready.resumeApproved_eq_none (h : Ready handed answer cfg u (cfg, st)) {last : LoopEnd W}
    (hlast : loopStep cfg st = (events, .halt last)) :
    resumeApproved handed answer last = none := by
  obtain ⟨outcome, world⟩ := last
  cases outcome with
  | error e => rfl
  | ok result =>
    rw [resumeApproved]
    refine if_neg ?_
    rintro ⟨hwaiting, hreason⟩
    have hcases := haltCases h.together.head.executing hlast
    rcases hcases.waiting hwaiting with ⟨step, wait, hpause, -, -⟩ | ⟨step, r, -, haction, -, rfl⟩
    · exact h.passes step wait hpause
    · have hdecision := (Reflection.stopReason_of_waiting haction).1
      change (endedSnapshot cfg st step r).stopReason = _ at hreason
      rw [endedSnapshot_stopReason, stepDecision, hdecision] at hreason
      cases hreason

lemma gatedStep_of_next (h : loopStep cfg st = (events, .next st')) :
    gatedStep handed answer (cfg, st) = (events, .next (cfg, st')) := by
  simp only [gatedStep, h]

lemma gatedStep_of_halt {last : LoopEnd W} (h : loopStep cfg st = (events, .halt last))
    (hnone : resumeApproved handed answer last = none) :
    gatedStep handed answer (cfg, st) = (events, .halt last) := by
  simp only [gatedStep, h, hnone]

/-- Like states end alike where a step has no receipt. -/
lemma receiptBlockedResult_rel {L : Likeness} {ok : ThinkingPlan → Prop} (h : StateRel L ok st st')
    (step : PlanStep) :
    TaskResultRel L { receiptBlockedResult st step with activePlan := some st.plan }
      { receiptBlockedResult st' step with activePlan := some st'.plan } := by
  have hblocked := (h.snapshot.moveTo .blocked).update (fun s => { s with
    pendingStep := step.stepId
    stopReason := some .capabilityGap
    waitingReason := some "step_operation_receipt_missing"
    waitingSource := some "plan_contract_validator" })
      ⟨fun _ => rfl, fun _ => rfl, fun _ _ h => h⟩
  rw [receiptBlockedResult, receiptBlockedResult, h.structuralResults, h.plan]
  exact { hblocked.resultOf _ _ _ with activePlan := rfl }

/-- The runs stay together when they go on. -/
lemma Together.next {u' : LoopState W} {events' : List LoopEvent}
    (h : Together handed answer cfg u (cfg, st))
    (hrel : StateRel (.identical True) (fun _ => True) u' st')
    (hu : loopStep cfg u = (events', .next u')) (hst : loopStep cfg st = (events, .next st')) :
    Together handed answer cfg u' (cfg, st') := by
  have hexecuting : u.snapshot.state = .executing := by
    rw [h.rel.snapshot.state]
    exact h.head.executing
  have hsettings := (nextCases hexecuting hu).settings
  have hmode := congrArg SnapshotSettings.approvalMode hsettings
  have htools := congrArg SnapshotSettings.approvalRequiredTools hsettings
  refine ⟨rfl, hrel, hmode.trans h.approvalMode, htools.trans h.approvalRequiredTools,
    h.head.next (nextCases h.head.executing hst), ?_⟩
  intro more cfg' s step wait hreach
  exact h.pauses _ cfg' s step wait
    ((Machine.Reaches.single (gatedStep_of_next hst)).trans hreach)

/-- Where the gated run does not pause, the two runs take the same step. -/
lemma Ready.lockstep (h : Ready handed answer cfg u run) (hreplanner : IgnoresApproval cfg)
    (hlower : cfg.rt.lower "permissive" = "permissive") :
    List.Forall₂ (EventRel (.identical True)) (loopStep cfg u).1 (gatedStep handed answer run).1 ∧
      Machine.OutcomeRel (Together handed answer cfg) (EndRel (.identical True))
        (loopStep cfg u).2 (gatedStep handed answer run).2 := by
  obtain ⟨cfg', st⟩ := run
  obtain rfl : cfg' = cfg := h.together.config
  have hrel : StateRel (.identical True) (fun _ => True) u st := h.together.rel
  have hexecuting : st.snapshot.state = .executing := h.together.head.executing
  have hexecuting' : u.snapshot.state = .executing := hrel.snapshot.state.trans hexecuting
  have hcoupled : Coupled (.identical True) (fun _ => True) cfg' cfg' := coupled_self hreplanner
  have hat : u.plan.steps[u.snapshot.currentStepIndex]? =
      st.plan.steps[st.snapshot.currentStepIndex]? := by
    rw [hrel.plan, hrel.snapshot.currentStepIndex]
  by_cases hmissing : ∃ step, st.plan.steps[st.snapshot.currentStepIndex]? = some step ∧
      receiptRequired cfg' st = true ∧ stepReceipt cfg' st step = none
  · obtain ⟨step, hstep, hrequired, hnone⟩ := hmissing
    have hlast := loopStep_of_receiptMissing hexecuting hstep hrequired hnone
    rw [gatedStep_of_halt hlast (h.resumeApproved_eq_none hlast),
      loopStep_of_receiptMissing hexecuting' (hat.trans hstep)
        ((hcoupled.receiptRequired_eq hrel trivial).trans hrequired)
        ((hcoupled.stepReceipt_eq hrel step trivial).trans hnone)]
    exact ⟨.nil, .halt ⟨.ok (receiptBlockedResult_rel hrel step), hrel.world⟩⟩
  · have hreceipts : ∀ step, st.plan.steps[st.snapshot.currentStepIndex]? = some step →
        receiptRequired cfg' st = true → (stepReceipt cfg' st step).isSome := by
      intro step hstep hrequired
      rw [Option.isSome_iff_ne_none]
      exact fun hnone => hmissing ⟨step, hstep, hrequired, hnone⟩
    have hgates : GatesPass cfg' st := by
      intro step hstep
      refine ⟨hreceipts step hstep, ?_⟩
      rw [Option.eq_none_iff_forall_ne_some]
      exact fun wait hwait => h.passes step wait ⟨hstep, hreceipts step hstep, hwait⟩
    have hgates' : GatesPass cfg' u := by
      intro step hstep
      refine ⟨?_, h.together.free hlower step⟩
      rw [hcoupled.receiptRequired_eq hrel trivial, hcoupled.stepReceipt_eq hrel step trivial]
      exact hreceipts step (hat.symm.trans hstep)
    have hstep := hcoupled.loopStep_rel hrel hexecuting' hgates' hgates
    rcases hu : loopStep cfg' u with ⟨events, outcome⟩
    rcases hst : loopStep cfg' st with ⟨events', outcome'⟩
    rw [hu, hst] at hstep
    obtain ⟨hevents, houtcome⟩ := hstep
    cases houtcome with
    | next hnext =>
      rw [gatedStep_of_next hst]
      exact ⟨hevents, .next (h.together.next hnext hu hst)⟩
    | halt hend =>
      rw [gatedStep_of_halt hst (h.resumeApproved_eq_none hst)]
      exact ⟨hevents, .halt hend⟩

/-- The gated run follows the run without the gate. -/
lemma gatedStep_follows (hreplanner : IgnoresApproval cfg)
    (hlower : cfg.rt.lower "permissive" = "permissive")
    (hanswer : cfg.rt.lower (strip answer) ∉ cancelWords) :
    Machine.Follows (loopStep cfg) (gatedStep handed answer) (Together handed answer cfg)
      (Ready handed answer cfg) (EventRel (.identical True)) (EndRel (.identical True)) where
  silent _ _ h := h.ready hanswer
  step _ _ h := h.lockstep hreplanner hlower

/-! ### Pausing does not change the run -/

/-- Related events make the same tool calls. -/
lemma toolCalls_eq {L : Likeness} {events' : List LoopEvent}
    (h : List.Forall₂ (EventRel L) events events') : toolCalls events' = toolCalls events := by
  induction h with
  | nil => rfl
  | @cons event event' _ _ hevent _ ih =>
    have hcall : event'.call? = event.call? := by
      cases hevent with
      | executed _ _ hcall => exact hcall.symm
      | replanned => rfl
    rw [toolCalls, toolCalls, List.filterMap_cons, List.filterMap_cons, ← toolCalls, ← toolCalls,
      ih, hcall]

/-- Related ends are the same end. -/
lemma EndRel.sameEnd {a b : LoopEnd W} (h : EndRel (.identical True) a b) : SameEnd a b := by
  obtain ⟨houtcome, -⟩ := h
  obtain ⟨outcome, world⟩ := a
  obtain ⟨outcome', world'⟩ := b
  cases houtcome with
  | error e => exact .error e
  | ok h =>
    have hartifacts : ∀ xs ys : List PyVal, List.Forall₂ Eq xs ys → xs = ys := by
      intro xs ys hxs
      rwa [List.forall₂_eq_eq_eq] at hxs
    exact .ok ⟨h.state, h.completionStatus, h.stopReason, hartifacts _ _ h.artifacts,
      h.structuralResults⟩

/-- A gated run whose pauses lose nothing does what the run without the gate does. -/
theorem pause_transparent (cfg : LoopConfig W) (handed : HandedBack W) (answer : String)
    (plan : ThinkingPlan) (options : StartOptions) (world : W)
    (hreplanner : IgnoresApproval cfg) (hlower : cfg.rt.lower "permissive" = "permissive")
    (hanswer : cfg.rt.lower (strip answer) ∉ cancelWords)
    (hpauses : PausesLoseNothing handed answer (cfg, startTaskLoop cfg.rt plan options world)) :
    PauseTransparent cfg handed answer plan options world := by
  have hfollows : Machine.Follows (loopStep cfg) (gatedStep handed answer) _ _ _ _ :=
    gatedStep_follows hreplanner hlower hanswer
  have hstart : Together handed answer cfg (startTaskLoop cfg.rt plan options.ungated world)
      (cfg, startTaskLoop cfg.rt plan options world) :=
    ⟨rfl, ⟨rfl, trivial, ⟨rfl, .nil, fun _ => rfl⟩, rfl, rfl, fun _ => rfl, fun _ => rfl⟩, rfl, rfl,
      atHead_start cfg plan options world, hpauses⟩
  constructor
  · intro events last hhalts
    obtain ⟨events', last', hgated, hevents, hend⟩ := hfollows.haltsWith hstart hhalts
    exact ⟨events', last', hgated, toolCalls_eq hevents, hend.sameEnd⟩
  · intro events' last' hgated
    obtain ⟨events, last, hhalts, hevents, hend⟩ := hfollows.haltsWith_of hstart hgated
    exact ⟨events, last, hhalts, toolCalls_eq hevents, hend.sameEnd⟩

/-! A run that pauses before its first step, and one that pauses after a step has succeeded: the
second one has lost that step's structural result. -/

/-- The tools of the two runs. -/
def pausingConfig : LoopConfig (List ToolReply) :=
  scriptedConfig [("value_read", {}), ("file_delete", {})]

/-- A plan that reads first and deletes then. -/
def readThenDelete : ThinkingPlan :=
  { deletionPlan with steps := [readingStep "tool_1", deletionStep "tool_2"] }

theorem pause_not_transparent :
    ¬PauseTransparent pausingConfig { cfg := pausingConfig } "yes" readThenDelete
      { conversationId := "c" } [validReply [], validReply []] := by
  intro h
  obtain ⟨events, last, hungated, r, hr, hlength⟩ : ∃ events last,
      (loopStep pausingConfig).HaltsWith (startTaskLoop .ascii readThenDelete
        (StartOptions.ungated { conversationId := "c" }) [validReply [], validReply []]) events last ∧
      ∃ r, last.outcome = .ok r ∧ r.structuralResults.length = 2 :=
    ⟨_, _, .step rfl (.halt rfl), _, rfl, rfl⟩
  obtain ⟨events', last', hgated, r', hr', hlength'⟩ : ∃ events last,
      (gatedStep { cfg := pausingConfig } "yes").HaltsWith (pausingConfig,
        startTaskLoop .ascii readThenDelete { conversationId := "c" }
          [validReply [], validReply []]) events last ∧
      ∃ r, last.outcome = .ok r ∧ r.structuralResults.length = 1 :=
    ⟨_, _, .step rfl (.step rfl (.halt rfl)), _, rfl, rfl⟩
  obtain ⟨_, last'', hgated', -, hsame⟩ := h.1 events last hungated
  obtain ⟨-, rfl⟩ := hgated'.unique hgated
  rw [SameEnd, hr, hr'] at hsame
  cases hsame with
  | ok hsame =>
    have hresults := congrArg List.length hsame.2.2.2.2
    rw [hlength, hlength'] at hresults
    cases hresults

theorem pause_transparent_deletion :
    PauseTransparent pausingConfig { cfg := pausingConfig } "yes" deletionPlan
      { conversationId := "c" } [validReply []] :=
  have hreplanner : IgnoresApproval pausingConfig := by
    intro replan _ _ _ _ _ hreplan
    cases hreplan
  have hpauses : PausesLoseNothing { cfg := pausingConfig } "yes" (pausingConfig,
      startTaskLoop .ascii deletionPlan { conversationId := "c" } [validReply []]) := by
    intro events cfg st step wait hreach hpause
    obtain ⟨heq, -⟩ | ⟨run₁, es₁, _, hstep₁, hreach₁, -⟩ := hreach.head
    · obtain ⟨rfl, rfl⟩ := Prod.mk.inj heq
      exact ⟨rfl, rfl, rfl, rfl⟩
    · obtain rfl := Outcome.next.inj (Prod.mk.inj hstep₁).2
      obtain ⟨heq, -⟩ | ⟨run₂, es₂, _, hstep₂, -, -⟩ := hreach₁.head
      · obtain ⟨rfl, rfl⟩ := Prod.mk.inj heq
        exact ⟨rfl, rfl, rfl, rfl⟩
      · cases (Prod.mk.inj hstep₂).2
  pause_transparent pausingConfig { cfg := pausingConfig } "yes" deletionPlan
    { conversationId := "c" } [validReply []] hreplanner rfl (by decide) hpauses

end Trion.TaskLoop
