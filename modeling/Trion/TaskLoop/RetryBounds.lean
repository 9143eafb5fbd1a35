import Mathlib.Algebra.Order.BigOperators.Group.Finset
import Mathlib.Algebra.GroupWithZero.Nat
import Trion.TaskLoop.Epochs
import Trion.TaskLoop.StepBudget

/-!
# Bounds on replannings and retries

Without a follow-up planner a run asks for at most as many plans as its replan bound says,
and within an epoch it executes every step in one stretch of at most one execution more than
the retry bound.  The invariant relates the counters of the snapshot to the events so far.
-/

namespace Trion.TaskLoop

open Trion.Python Trion.Thinking StepMachine

/-! ### Counting -/

/-- A list of numbers below `n` in which no number occurs more than `k` times has at most
`n * k` entries. -/
lemma length_le_mul_of_count_le {l : List ℕ} {n k : ℕ} (hlt : ∀ i ∈ l, i < n)
    (hcount : ∀ i, l.count i ≤ k) : l.length ≤ n * k := by
  have hsum : ∑ i ∈ Finset.range n, l.count i = l.length := by
    have := Multiset.sum_count_eq_card (s := Finset.range n) (m := (l : Multiset ℕ))
      (fun i hi => Finset.mem_range.2 (hlt i (Multiset.mem_coe.1 hi)))
    simpa using this
  calc l.length = ∑ i ∈ Finset.range n, l.count i := hsum.symm
    _ ≤ ∑ _i ∈ Finset.range n, k := Finset.sum_le_sum fun i _ => hcount i
    _ = n * k := by rw [Finset.sum_const_nat fun _ _ => rfl, Finset.card_range]

/-- The plan indices of a list of executions. -/
def executedIndices (executions : List Execution) : List ℕ :=
  executions.map (·.snapshot.currentStepIndex)

/-- How often the replanner has been asked. -/
def replanCalls (events : List LoopEvent) : ℕ :=
  events.countP fun event => match event with
    | .replanned _ _ => true
    | .executed _ => false

/-- An epoch within the retry bound: its executions follow its plan, the executions of a step
are consecutive, and there are at most one more of them than the retry bound. -/
structure EpochBounded (maxRetries : ℕ) (epoch : Epoch) : Prop where
  plan_eq : ∀ e ∈ epoch.executions, e.plan = epoch.plan
  within : ∀ i ∈ executedIndices epoch.executions, i < epoch.plan.steps.length
  consecutive : (executedIndices epoch.executions).Pairwise (· ≤ ·)
  count_le : ∀ i, (executedIndices epoch.executions).count i ≤ maxRetries + 1

variable {W : Type} {cfg : LoopConfig W} {start st st' : LoopState W} {events : List LoopEvent}
  {step : PlanStep} {result : StepExecutionResult} {maxRetries maxReplans : ℕ} {current : Epoch}

/-- The epoch a state is in: the executions at its index are the retries counted so far. -/
structure InEpoch (maxRetries : ℕ) (current : Epoch) (st : LoopState W) : Prop where
  plan_eq : current.plan = st.plan
  bounded : EpochBounded maxRetries current
  index_le : ∀ i ∈ executedIndices current.executions, i ≤ st.snapshot.currentStepIndex
  count_eq : ∀ step, st.plan.steps[st.snapshot.currentStepIndex]? = some step →
    (executedIndices current.executions).count st.snapshot.currentStepIndex =
      Reflection.getCount st.snapshot.retryCounts step.stepId
  count_le : (executedIndices current.executions).count st.snapshot.currentStepIndex ≤ maxRetries

@[simp] lemma executedIndices_add (epoch : Epoch) (e : Execution) :
    executedIndices (epoch.add e).executions =
      executedIndices epoch.executions ++ [e.snapshot.currentStepIndex] := by
  simp [executedIndices, Epoch.add]

/-- The execution of a step keeps the bounds of its epoch. -/
lemma InEpoch.bounded_add (h : InEpoch maxRetries current st) (hstarts : Starts cfg st step) :
    EpochBounded maxRetries (current.add (stepExecution cfg st step)) where
  plan_eq e he := by
    rcases List.mem_append.1 he with he | he
    · exact h.bounded.plan_eq e he
    · obtain rfl := List.mem_singleton.1 he
      exact h.plan_eq.symm
  within i hi := by
    rw [executedIndices_add, List.mem_append, List.mem_singleton] at hi
    rcases hi with hi | rfl
    · exact h.bounded.within i hi
    · change st.snapshot.currentStepIndex < current.plan.steps.length
      rw [h.plan_eq]
      exact (List.getElem?_eq_some_iff.1 hstarts.step_at).1
  consecutive := by
    rw [executedIndices_add, List.pairwise_append]
    refine ⟨h.bounded.consecutive, List.pairwise_singleton _ _, ?_⟩
    intro i hi j hj
    obtain rfl := List.mem_singleton.1 hj
    exact h.index_le i hi
  count_le i := by
    rw [executedIndices_add, List.count_append]
    change _ + List.count i [st.snapshot.currentStepIndex] ≤ _
    rw [List.count_singleton]
    split
    · rename_i hi
      obtain rfl := beq_iff_eq.1 hi
      have := h.count_le
      omega
    · exact h.bounded.count_le i

/-- A step that is done leads to an index that has not been executed in the epoch. -/
lemma InEpoch.advances (h : InEpoch maxRetries current st) (hstarts : Starts cfg st step)
    (hsuccess : result.status = .success) :
    InEpoch maxRetries (current.add (stepExecution cfg st step))
      (continuedState cfg st step result (advancedSnapshot cfg st step result)) := by
  have hindex_le : ∀ i ∈ executedIndices (current.add (stepExecution cfg st step)).executions,
      i ≤ st.snapshot.currentStepIndex := by
    intro i hi
    rw [executedIndices_add, List.mem_append, List.mem_singleton] at hi
    rcases hi with hi | rfl
    · exact h.index_le i hi
    · exact le_rfl
  have hcount : (executedIndices (current.add (stepExecution cfg st step)).executions).count
      (st.snapshot.currentStepIndex + 1) = 0 :=
    List.count_eq_zero_of_not_mem fun hmem => absurd (hindex_le _ hmem) (by omega)
  refine ⟨h.plan_eq, h.bounded_add hstarts, ?_, ?_, ?_⟩
  · intro i hi
    simp only [continuedState, advancedSnapshot_currentStepIndex]
    exact (hindex_le i hi).trans (Nat.le_succ _)
  · intro next _
    simp only [continuedState, advancedSnapshot_currentStepIndex, advancedSnapshot_retryCounts]
    rw [hcount, stepDecision, Reflection.retryCounts_of_success hsuccess]
    rfl
  · simp only [continuedState, advancedSnapshot_currentStepIndex]
    omega

/-- A step that is tried again is counted. -/
lemma InEpoch.retries (h : InEpoch maxRetries current st)
    (hretries : st.snapshot.maxRetriesPerStep.toNat = maxRetries)
    (hexec : Executes cfg st step result)
    (haction : (stepDecision cfg st step result).action = .continue)
    (hfailed : result.status ≠ .success) :
    InEpoch maxRetries (current.add (stepExecution cfg st step))
      (continuedState cfg st step result (retriedSnapshot cfg st step result)) := by
  obtain ⟨hlt, hcounts⟩ := Reflection.retryCounts_of_retry haction hfailed
  have hmax : (reflectedSnapshot st step).maxRetriesPerStep = st.snapshot.maxRetriesPerStep :=
    (bounds_of_settings (reflectedSnapshot_settings st step)).2.2
  have hcount : (executedIndices (current.add (stepExecution cfg st step)).executions).count
      st.snapshot.currentStepIndex = Reflection.getCount st.snapshot.retryCounts result.stepId + 1 := by
    rw [executedIndices_add, List.count_append, h.count_eq step hexec.step_at, hexec.result.1]
    change _ + List.count st.snapshot.currentStepIndex [st.snapshot.currentStepIndex] = _
    rw [List.count_singleton_self]
  rw [reflectedSnapshot_retryCounts, hmax] at hlt
  refine ⟨h.plan_eq, h.bounded_add hexec.toStarts, ?_, ?_, ?_⟩
  · intro i hi
    simp only [continuedState, retriedSnapshot_currentStepIndex]
    rw [executedIndices_add, List.mem_append, List.mem_singleton] at hi
    rcases hi with hi | rfl
    · exact h.index_le i hi
    · exact le_rfl
  · intro next hnext
    simp only [continuedState, retriedSnapshot_currentStepIndex, retriedSnapshot_retryCounts]
      at hnext ⊢
    obtain rfl : step = next := Option.some.inj (hexec.step_at.symm.trans hnext)
    rw [hcount, stepDecision, hcounts, ← hexec.result.1, Reflection.getCount_setCount,
      reflectedSnapshot_retryCounts]
  · simp only [continuedState, retriedSnapshot_currentStepIndex]
    rw [hcount]
    omega

/-- An epoch without executions is bounded. -/
lemma epochBounded_of_nil {epoch : Epoch} (h : epoch.executions = []) :
    EpochBounded maxRetries epoch :=
  ⟨by simp [h], by simp [executedIndices, h], by simp [executedIndices, h],
    by simp [executedIndices, h]⟩

/-- A new epoch has no executions. -/
lemma inEpoch_of_reset {plan : ThinkingPlan} {s : TaskLoopSnapshot} {world : W} :
    InEpoch maxRetries { plan := plan, executions := [] }
      (epochState cfg plan (resetSnapshot plan s) world) where
  plan_eq := rfl
  bounded := epochBounded_of_nil rfl
  index_le := by simp [executedIndices]
  count_eq := by simp [executedIndices, epochState, Reflection.getCount]
  count_le := by simp [executedIndices]

/-! ### The invariant of a run -/

/-- What the events and the state of a run have to do with each other. -/
structure TraceBounded (maxRetries maxReplans : ℕ) (plan : ThinkingPlan)
    (events : List LoopEvent) (st : LoopState W) : Prop where
  maxRetries_eq : st.snapshot.maxRetriesPerStep.toNat = maxRetries
  maxReplans_eq : st.snapshot.maxReplans.toNat = maxReplans
  replanCalls_eq : replanCalls events = st.snapshot.replanCount
  replanCount_le : st.snapshot.replanCount ≤ maxReplans
  epochs : ∃ done current, epochs plan events = done ++ [current] ∧
    (∀ epoch ∈ done, EpochBounded maxRetries epoch) ∧ InEpoch maxRetries current st

/-- What the events of a run promise at the end of each of its steps. -/
structure RunBounded (maxRetries maxReplans : ℕ) (plan : ThinkingPlan)
    (events : List LoopEvent) : Prop where
  replanCalls_le : replanCalls events ≤ maxReplans
  bounded : ∀ epoch ∈ epochs plan events, EpochBounded maxRetries epoch

@[simp] lemma replanCalls_append (es fs : List LoopEvent) :
    replanCalls (es ++ fs) = replanCalls es + replanCalls fs :=
  List.countP_append

/-- A step of a run without a follow-up planner keeps the invariant. -/
lemma TraceBounded.next {plan : ThinkingPlan} {more : List LoopEvent}
    (hplanner : cfg.followupPlanner = none)
    (h : TraceBounded maxRetries maxReplans plan events st)
    (hnext : NextCases cfg st more st') :
    TraceBounded maxRetries maxReplans plan (events ++ more) st' := by
  obtain ⟨done, current, heq, hdone, hcurrent⟩ := h.epochs
  obtain ⟨-, hmaxReplans, hmaxRetries⟩ := bounds_of_settings hnext.settings
  have hretries := h.maxRetries_eq
  have hreplans := h.maxReplans_eq
  rw [← hmaxRetries] at hretries
  rw [← hmaxReplans] at hreplans
  cases hnext with
  | expands _ hexpanded =>
    rw [stepExpansion_of_planner_none hplanner] at hexpanded
    cases hexpanded
  | @advances step result hexec _ _ hsuccess =>
    refine ⟨hretries, hreplans, ?_, ?_, _, _, (lastEpoch_of_eq heq).executed _, hdone,
      hcurrent.advances hexec.toStarts hsuccess⟩
    · simpa [continuedState, replanCalls] using h.replanCalls_eq
    · simpa [continuedState] using h.replanCount_le
  | @retries step result hexec _ haction hfailed =>
    refine ⟨hretries, hreplans, ?_, ?_, _, _, (lastEpoch_of_eq heq).executed _, hdone,
      hcurrent.retries h.maxRetries_eq hexec haction hfailed⟩
    · simpa [continuedState, replanCalls] using h.replanCalls_eq
    · simpa [continuedState] using h.replanCount_le
  | @replans step result request replanner replanned world hreplan _ _ hneeds =>
    obtain ⟨hcount, hlt⟩ := hreplan.source.replanCount
    have hexecuted := (lastEpoch_of_eq heq).executed (stepExecution cfg st step)
    have hadopted := (lastEpoch_of_eq hexecuted).adopted request replanned hneeds
    rw [List.append_assoc] at hadopted
    refine ⟨hretries, hreplans, ?_, ?_,
      done ++ [current.add (stepExecution cfg st step)], { plan := replanned, executions := [] },
      by rw [List.append_assoc]; exact hadopted, ?_, inEpoch_of_reset⟩
    · rw [replanCalls_append, h.replanCalls_eq]
      simp [replanCalls, epochState, hcount]
    · rw [epochState, resetSnapshot_replanCount, TaskLoopSnapshot.moveTo_replanCount, hcount,
        ← h.maxReplans_eq]
      exact hlt
    · exact List.forall_mem_append.mpr
        ⟨hdone, List.forall_mem_singleton.mpr (hcurrent.bounded_add hreplan.toStarts)⟩

/-- The events of a step from a state of the invariant are bounded. -/
lemma TraceBounded.runBounded {plan : ThinkingPlan} (hs : st.snapshot.state = .executing)
    (h : TraceBounded maxRetries maxReplans plan events st) :
    RunBounded maxRetries maxReplans plan (events ++ (loopStep cfg st).1) := by
  obtain ⟨done, current, heq, hdone, hcurrent⟩ := h.epochs
  have hevents := stepEvents cfg hs
  generalize (loopStep cfg st).1 = more at hevents
  cases hevents with
  | none =>
    refine ⟨by simpa [h.replanCalls_eq] using h.replanCount_le, ?_⟩
    rw [List.append_nil, heq]
    exact List.forall_mem_append.mpr ⟨hdone, List.forall_mem_singleton.mpr hcurrent.bounded⟩
  | executed hstarts =>
    refine ⟨?_, ?_⟩
    · rw [replanCalls_append, h.replanCalls_eq]
      simpa [replanCalls] using h.replanCount_le
    · rw [(lastEpoch_of_eq heq).executed]
      exact List.forall_mem_append.mpr
        ⟨hdone, List.forall_mem_singleton.mpr (hcurrent.bounded_add hstarts)⟩
  | @replanned step result request reply hreplans =>
    obtain ⟨-, hlt⟩ := hreplans.source.replanCount
    have hexecuted := (lastEpoch_of_eq heq).executed (stepExecution cfg st step)
    have hbounded := hcurrent.bounded_add hreplans.toStarts
    refine ⟨?_, ?_⟩
    · have hcalls : replanCalls [.executed (stepExecution cfg st step),
          .replanned request reply] = 1 := rfl
      rw [replanCalls_append, h.replanCalls_eq, hcalls, ← h.maxReplans_eq]
      exact hlt
    · have hsplit : events ++ [.executed (stepExecution cfg st step), .replanned request reply] =
          events ++ [.executed (stepExecution cfg st step)] ++ [.replanned request reply] := by simp
      rw [hsplit]
      intro epoch hepoch
      rcases mem_epochs_replanned hepoch with hepoch | hnil
      · rw [hexecuted] at hepoch
        exact List.forall_mem_append.mpr
          ⟨hdone, List.forall_mem_singleton.mpr hbounded⟩ epoch hepoch
      · exact epochBounded_of_nil hnil

/-! ### Tool calls -/

/-- An execution at the start of the first epoch adds one to the number of executions. -/
lemma sum_length_consExecution {e : Execution} {es : List Epoch} (h : es ≠ []) :
    ((consExecution e es).map (·.executions.length)).sum =
      (es.map (·.executions.length)).sum + 1 := by
  cases es with
  | nil => exact absurd rfl h
  | cons epoch rest =>
    simp only [consExecution, List.map_cons, List.sum_cons, List.length_cons]
    omega

lemma epochs_ne_nil (plan : ThinkingPlan) (events : List LoopEvent) : epochs plan events ≠ [] := by
  obtain ⟨done, current, h⟩ := exists_lastEpoch plan events
  simp [h.eq]

/-- Every tool call is made by an execution of one of the epochs. -/
lemma length_toolCalls_le_sum (plan : ThinkingPlan) (events : List LoopEvent) :
    (toolCalls events).length ≤ ((epochs plan events).map (·.executions.length)).sum := by
  induction events generalizing plan with
  | nil => exact Nat.zero_le _
  | cons event events ih =>
    rw [toolCalls, List.filterMap_cons, ← toolCalls]
    cases event with
    | executed e =>
      have hle := ih plan
      rw [epochs, sum_length_consExecution (epochs_ne_nil plan events), LoopEvent.call?]
      cases e.run.call with
      | none => exact hle.trans (Nat.le_succ _)
      | some call => exact Nat.succ_le_succ hle
    | replanned request reply =>
      rw [epochs, LoopEvent.call?]
      cases (LoopEvent.replanned request reply).adopted? with
      | none => exact ih plan
      | some replanned => simpa using ih replanned

/-- An epoch within the retry bound has so many executions at most. -/
lemma EpochBounded.length_le {epoch : Epoch} (h : EpochBounded maxRetries epoch) :
    epoch.executions.length ≤ epoch.plan.steps.length * (maxRetries + 1) := by
  have hlength : (executedIndices epoch.executions).length = epoch.executions.length :=
    List.length_map _
  rw [← hlength]
  exact length_le_mul_of_count_le h.within h.count_le

/-- The tool calls of a bounded run, epoch by epoch. -/
lemma RunBounded.length_toolCalls_le {plan : ThinkingPlan}
    (h : RunBounded maxRetries maxReplans plan events) :
    (toolCalls events).length ≤
      ((epochs plan events).map fun epoch => epoch.plan.steps.length * (maxRetries + 1)).sum :=
  (length_toolCalls_le_sum plan events).trans
    (List.sum_le_sum fun epoch hepoch => (h.bounded epoch hepoch).length_le)

/-! ### Runs -/

/-- The snapshot an event is about. -/
def LoopEvent.snapshot : LoopEvent → TaskLoopSnapshot
  | .executed e => e.snapshot
  | .replanned request _ => request.snapshot

/-- What the bounds of a run promise: no snapshot in it counts more replannings than the replan
bound allows, the replanner is not asked more often, the epochs keep the retry bound, and the
run ends after the tool calls that this leaves. -/
structure RetriesKept (cfg : LoopConfig W) (start : LoopState W) (maxRetries maxReplans : ℕ) :
    Prop where
  reached_le : ∀ events st, (loopStep cfg).Reaches start events st →
    st.snapshot.replanCount ≤ maxReplans
  event_le : ∀ event, (loopStep cfg).Emits start event → event.snapshot.replanCount ≤ maxReplans
  final_le : ∀ events result last, (loopStep cfg).HaltsWith start events
    { outcome := .ok result, world := last } → result.snapshot.replanCount ≤ maxReplans
  bounded : ∀ events, (loopStep cfg).Traces start events →
    RunBounded maxRetries maxReplans start.plan events
  halts : ∃ events last, (loopStep cfg).HaltsWith start events last ∧
    (toolCalls events).length ≤
      ((epochs start.plan events).map fun epoch => epoch.plan.steps.length * (maxRetries + 1)).sum

/-- The snapshot with which a plan's execution ends counts no replanning beyond the bound. -/
lemma endedSnapshot_replanCount_le
    (h : st.snapshot.replanCount ≤ st.snapshot.maxReplans.toNat) :
    (endedSnapshot cfg st step result).replanCount ≤ st.snapshot.maxReplans.toNat := by
  rw [endedSnapshot_replanCount]
  split
  · rename_i haction
    exact replanCount_lt_of_canReplan (Reflection.canReplan_of_replan haction)
  · exact h

/-- The result of a run counts no replanning beyond the bound. -/
lemma HaltCases.replanCount_le {final : TaskLoopResult} {last : W}
    (h : HaltCases cfg st events { outcome := .ok final, world := last })
    (hcount : st.snapshot.replanCount ≤ st.snapshot.maxReplans.toNat) :
    final.snapshot.replanCount ≤ st.snapshot.maxReplans.toNat := by
  cases h with
  | receiptMissing | waits | governorBlocks => exact hcount
  | stops => exact endedSnapshot_replanCount_le hcount
  | @completes step result _ _ _ _ _ hfinalized =>
    have hended : (endedSnapshot cfg st step result).replanCount ≤ st.snapshot.maxReplans.toNat :=
      endedSnapshot_replanCount_le hcount
    cases hfinalized with
    | complete | block => exact hended
    | replan hallowed => exact replanCount_lt_of_canReplan hallowed
  | violates hreplans | answers hreplans =>
    obtain ⟨heq, hlt⟩ := hreplans.source.replanCount
    exact heq.trans_le hlt

/-- The snapshot of an event counts no replanning beyond the bound. -/
lemma event_replanCount_le {event : LoopEvent} (hs : st.snapshot.state = .executing)
    (hcount : st.snapshot.replanCount ≤ st.snapshot.maxReplans.toNat)
    (h : event ∈ (loopStep cfg st).1) :
    event.snapshot.replanCount ≤ st.snapshot.maxReplans.toNat := by
  have hevents := stepEvents cfg hs
  generalize (loopStep cfg st).1 = events at h hevents
  cases hevents with
  | none => cases h
  | executed =>
    obtain rfl := List.mem_singleton.1 h
    exact hcount
  | replanned hreplans =>
    rcases List.mem_cons.1 h with rfl | h
    · exact hcount
    · obtain rfl := List.mem_singleton.1 h
      obtain ⟨heq, hlt⟩ := hreplans.source.replanCount
      exact heq.trans_le hlt

/-- A run of `start_task_loop` starts with empty counters. -/
lemma traceBounded_start (rt : PyRuntime) (plan : ThinkingPlan) (options : StartOptions)
    (world : W) :
    TraceBounded options.maxRetriesPerStep.toNat options.maxReplans.toNat plan []
      (startTaskLoop rt plan options world) where
  maxRetries_eq := rfl
  maxReplans_eq := rfl
  replanCalls_eq := rfl
  replanCount_le := Nat.zero_le _
  epochs := by
    refine ⟨[], { plan := plan, executions := [] }, rfl, by simp, rfl, epochBounded_of_nil rfl,
      ?_, ?_, ?_⟩
    · simp [executedIndices]
    · intro step _
      rfl
    · exact Nat.zero_le _

/-- Without a follow-up planner, a run of `start_task_loop` keeps its bounds on replannings and
retries, whatever the tools and the replanner answer.  A negative bound counts as zero. -/
theorem retries_kept (cfg : LoopConfig W) (plan : ThinkingPlan) (options : StartOptions)
    (world : W) (hplanner : cfg.followupPlanner = none) :
    RetriesKept cfg (startTaskLoop cfg.rt plan options world)
      options.maxRetriesPerStep.toNat options.maxReplans.toNat := by
  have hs := startTaskLoop_executing cfg.rt plan options world
  have hbounded : ∀ events st,
      (loopStep cfg).Reaches (startTaskLoop cfg.rt plan options world) events st →
      st.snapshot.state = .executing ∧
        TraceBounded options.maxRetriesPerStep.toNat options.maxReplans.toNat plan events st := by
    intro events st hreach
    refine ⟨executing_of_reaches hreach hs, ?_⟩
    exact trace_invariant_of_reaches (fun _ _ _ _ _ h hnext => h.next hplanner hnext) hreach hs
      (traceBounded_start cfg.rt plan options world)
  have htraces : ∀ events, (loopStep cfg).Traces (startTaskLoop cfg.rt plan options world) events →
      RunBounded options.maxRetriesPerStep.toNat options.maxReplans.toNat plan events := by
    rintro events ⟨es, st, hreach, rfl⟩
    obtain ⟨hexec, hinv⟩ := hbounded es st hreach
    exact hinv.runBounded hexec
  refine ⟨fun events st hreach => (hbounded events st hreach).2.replanCount_le, ?_, ?_,
    htraces, ?_⟩
  · rintro event ⟨es, st, hreach, hmem⟩
    obtain ⟨hexec, hinv⟩ := hbounded es st hreach
    rw [← hinv.maxReplans_eq]
    exact event_replanCount_le hexec (hinv.replanCount_le.trans_eq hinv.maxReplans_eq.symm) hmem
  · intro events result last hhalts
    obtain ⟨st, es₁, es₂, hreach, hlast, -⟩ := hhalts.exists_last
    obtain ⟨hexec, hinv⟩ := hbounded es₁ st hreach
    rw [← hinv.maxReplans_eq]
    exact (haltCases hexec hlast).replanCount_le
      (hinv.replanCount_le.trans_eq hinv.maxReplans_eq.symm)
  · have hheeds : ∀ events st',
        (loopStep cfg).Reaches (startTaskLoop cfg.rt plan options world) events st' →
        HeedsBlock cfg st' := by
      intro _ _ _ _ _ planner _ _ _ _ hsome
      rw [hplanner] at hsome
      cases hsome
    obtain ⟨events, last, hhalts⟩ := halts_of_heedsBlock hs hheeds
    obtain ⟨st, es₁, es₂, hreach, hlast, rfl⟩ := hhalts.exists_last
    refine ⟨es₁ ++ es₂, last, hhalts, (htraces _ ⟨es₁, st, hreach, ?_⟩).length_toolCalls_le⟩
    rw [hlast]

/-- The bounds for a tool that always fails and a replanner that asks for it again. -/
theorem retries_kept_failing :
    RetriesKept { scriptedConfig [("value_read", {})] with
        replannerFn := some fun world request => (.plan request.plan, world) }
      (startTaskLoop .ascii readingPlan { conversationId := "c" } []) 1 2 :=
  retries_kept { scriptedConfig [("value_read", {})] with
    replannerFn := some fun world request => (.plan request.plan, world) }
    readingPlan { conversationId := "c" } [] rfl

end Trion.TaskLoop
