import Trion.Cron.RunAccounting

/-!
# Bounds on the queue

How many runs may be pending or running, in all and for one job.  `run_now` asks the configured
policy; the tick asks the limits that stand in its code.  A tick keeps the configured bounds if
and only if there is room under them for every run that it lets into the queue.
-/

namespace Trion.Cron

open Trion.Python OrderedDict OperationRun Slots

variable {env : CronRuntime} {policy : Policy}

/-! ### The bounds -/

/-- The number of pending and running runs. -/
def runsInAll (s : CronJobStore) : ℕ := s.pending.length + s.running.length

/-- The number of pending and running runs of a job. -/
def runsOfJob (s : CronJobStore) (jobId : String) : ℕ :=
  s.pending.countP (·.cronJobId == jobId) + s.running.countP (·.2.cronJobId == jobId)

/-- There are no more runs than the policy admits. -/
structure WithinBounds (policy : Policy) (s : CronJobStore) : Prop where
  inAll : (runsInAll s : ℤ) ≤ policy.maxPendingRuns
  ofJob : ∀ jobId, (runsOfJob s jobId : ℤ) ≤ policy.maxPendingRunsPerJob

/-- The policy admits one more run of the job. -/
def HasRoom (policy : Policy) (jobId : String) (s : CronJobStore) : Prop :=
  (runsInAll s : ℤ) < policy.maxPendingRuns ∧
    (runsOfJob s jobId : ℤ) < policy.maxPendingRunsPerJob

/-- The numbers of runs are no larger. -/
structure FewerRuns (s s' : CronJobStore) : Prop where
  inAll : runsInAll s' ≤ runsInAll s
  ofJob : ∀ jobId, runsOfJob s' jobId ≤ runsOfJob s jobId

lemma WithinBounds.of_fewer {s s' : CronJobStore} (h : WithinBounds policy s)
    (hfewer : FewerRuns s s') : WithinBounds policy s' := by
  constructor
  case inAll =>
    have hall := h.inAll
    have hle := hfewer.inAll
    omega
  case ofJob =>
    intro jobId
    have hjob := h.ofJob jobId
    have hle := hfewer.ofJob jobId
    omega

/-- What `check_enqueue_policy` lets pass has room under the limits it is given. -/
lemma room_of_check {jobId reason : String} {now : DateTime} {s : CronJobStore} {m n cooldown : ℤ}
    (h : checkEnqueuePolicy env jobId reason now s.pending s.running s.jobs m n cooldown = none) :
    (runsInAll s : ℤ) < m ∧ (runsOfJob s jobId : ℤ) < n := by
  unfold checkEnqueuePolicy at h
  dsimp only at h
  rw [← List.countP_eq_length_filter, ← List.countP_eq_length_filter] at h
  split at h
  · simp at h
  · rename_i hall
    split at h
    · simp at h
    · rename_i hjob
      unfold runsInAll runsOfJob
      exact ⟨Int.not_le.mp hall, Int.not_le.mp hjob⟩

/-! ### Putting runs into the queue -/

lemma runsInAll_append {s s' : CronJobStore} {items : List RunItem} (h : Enqueues s s' items) :
    runsInAll s' = runsInAll s + items.length := by
  unfold runsInAll
  rw [h.pending, h.running, List.length_append]
  omega

lemma runsOfJob_append {s s' : CronJobStore} {items : List RunItem} (h : Enqueues s s' items)
    (jobId : String) :
    runsOfJob s' jobId = runsOfJob s jobId + items.countP (·.cronJobId == jobId) := by
  unfold runsOfJob
  rw [h.pending, h.running, List.countP_append]
  omega

/-- A run that is put into the queue keeps the bounds if and only if there was room for it. -/
lemma withinBounds_enqueue_iff {s s' : CronJobStore} {item : RunItem} (h : WithinBounds policy s)
    (henqueues : Enqueues s s' [item]) :
    WithinBounds policy s' ↔ HasRoom policy item.cronJobId s := by
  have hall := runsInAll_append henqueues
  have hof := runsOfJob_append henqueues
  rw [List.length_singleton] at hall
  constructor
  · intro hbounds
    have hle := hbounds.inAll
    have hjob := hbounds.ofJob item.cronJobId
    have hself := hof item.cronJobId
    rw [List.countP_singleton, if_pos (by simp)] at hself
    exact ⟨by omega, by omega⟩
  · rintro ⟨hroom, hroomJob⟩
    refine ⟨by omega, fun jobId => ?_⟩
    have hle := h.ofJob jobId
    have hjob := hof jobId
    rw [List.countP_singleton] at hjob
    split at hjob
    · rename_i hid
      obtain rfl : item.cronJobId = jobId := by simpa using hid
      omega
    · omega

/-! ### The tick -/

variable (env policy) in
/-- There is room for every run that the tick lets into the queue. -/
def TickHasRoom (now : DateTime) (runIds : String → String) : List String → CronJobStore → Prop
  | [], _ => True
  | jobId :: jobIds, s =>
    (∀ job reason triggerKey, get? s.jobs jobId = some job →
      tickFinding env job now = .due reason triggerKey →
      checkEnqueuePolicy env jobId reason now s.pending s.running s.jobs 500 2 30 = none →
      HasRoom policy jobId s) ∧
    TickHasRoom now runIds jobIds (tickJob env now s jobId (runIds jobId)).1

/-- The tick for one job keeps the bounds if and only if there is room for the run it lets into
the queue. -/
lemma withinBounds_tickJob_iff {s : CronJobStore} (h : WithinBounds policy s) (now : DateTime)
    (jobId runId : String) :
    WithinBounds policy (tickJob env now s jobId runId).1 ↔
      ∀ job reason triggerKey, get? s.jobs jobId = some job →
        tickFinding env job now = .due reason triggerKey →
        checkEnqueuePolicy env jobId reason now s.pending s.running s.jobs 500 2 30 = none →
        HasRoom policy jobId s := by
  have henqueues := tickJob_enqueues env now s jobId runId
  have hnone : (tickJob env now s jobId runId).2 = [] →
      WithinBounds policy (tickJob env now s jobId runId).1 := by
    intro hitems
    rw [hitems] at henqueues
    have hall := runsInAll_append henqueues
    have hof := runsOfJob_append henqueues
    exact h.of_fewer ⟨hall.le, fun jobId => (hof jobId).le⟩
  unfold tickJob at henqueues hnone ⊢
  cases hjob : get? s.jobs jobId with
  | none => simpa [hjob] using hnone
  | some job =>
    rw [hjob] at henqueues hnone
    dsimp only at henqueues hnone ⊢
    cases hfinding : tickFinding env job now with
    | idle =>
      rw [hfinding] at hnone
      refine iff_of_true (hnone rfl) ?_
      rintro _ reason key ⟨⟩ hdue
      simp [hfinding] at hdue
    | invalid error =>
      rw [hfinding] at hnone
      refine iff_of_true (hnone rfl) ?_
      rintro _ reason key ⟨⟩ hdue
      simp [hfinding] at hdue
    | due reason triggerKey =>
      rw [hfinding] at henqueues hnone
      dsimp only at henqueues hnone ⊢
      cases hcheck : checkEnqueuePolicy env jobId reason now s.pending s.running s.jobs 500 2 30 with
      | some error =>
        rw [hcheck] at hnone
        refine iff_of_true (hnone rfl) ?_
        rintro _ reason' key ⟨⟩ hdue hpassed
        obtain ⟨rfl, -⟩ := TickFinding.due.inj (hfinding.symm.trans hdue)
        simp [hcheck] at hpassed
      | none =>
        rw [hcheck] at henqueues
        refine (withinBounds_enqueue_iff h henqueues).trans ⟨fun hroom _ _ _ _ _ _ => hroom, ?_⟩
        intro hroom
        exact hroom job reason triggerKey rfl hfinding hcheck

/-- A tick keeps the bounds if and only if there is room for every run it lets into the
queue. -/
theorem withinBounds_tickJobs_iff {s : CronJobStore} (h : WithinBounds policy s) (now : DateTime)
    (runIds : String → String) (jobIds : List String) :
    WithinBounds policy (tickJobs env now runIds jobIds s).1 ↔
      TickHasRoom env policy now runIds jobIds s := by
  induction jobIds generalizing s with
  | nil => exact iff_of_true h trivial
  | cons jobId jobIds ih =>
    unfold tickJobs TickHasRoom
    dsimp only
    rw [← withinBounds_tickJob_iff h now jobId (runIds jobId)]
    constructor
    · intro hbounds
      have hrest := tickJobs_enqueues env now runIds jobIds
        (tickJob env now s jobId (runIds jobId)).1
      have hall := runsInAll_append hrest
      have hof := runsOfJob_append hrest
      have hfirst : WithinBounds policy (tickJob env now s jobId (runIds jobId)).1 :=
        hbounds.of_fewer ⟨by omega, fun jobId => by
          have hjob := hof jobId
          omega⟩
      exact ⟨hfirst, (ih hfirst).mp hbounds⟩
    · rintro ⟨hfirst, hrest⟩
      exact (ih hfirst).mpr hrest

/-- There is room if the configured limits are no smaller than those of the tick. -/
lemma tickHasRoom_of_limits (hall : 500 ≤ policy.maxPendingRuns)
    (hjob : 2 ≤ policy.maxPendingRunsPerJob) (now : DateTime) (runIds : String → String)
    (jobIds : List String) (s : CronJobStore) :
    TickHasRoom env policy now runIds jobIds s := by
  induction jobIds generalizing s with
  | nil => trivial
  | cons jobId jobIds ih =>
    refine ⟨?_, ih _⟩
    intro job reason triggerKey _ _ hcheck
    obtain ⟨hroom, hroomJob⟩ := room_of_check hcheck
    exact ⟨by omega, by omega⟩

/-! ### Workers -/

/-- A filter that drops a counted element lowers the count. -/
lemma countP_filter_lt {α : Type} {l : List α} {a : α} (p q : α → Bool) (ha : a ∈ l)
    (hp : p a = true) (hq : q a = false) : (l.filter q).countP p < l.countP p := by
  have hsplit := List.countP_eq_countP_filter_add l p q
  have hpos : 0 < (l.filter fun b => !q b).countP p :=
    List.countP_pos_iff.mpr ⟨a, List.mem_filter.mpr ⟨ha, by simp [hq]⟩, hp⟩
  omega

/-- Starting a pending run moves it to the running table. -/
lemma fewerRuns_startRun {s : CronJobStore} {item : RunItem} (hitem : item ∈ s.pending)
    (hnodup : (keys s.running).Nodup) (now : DateTime) : FewerRuns s (startRun now item s) := by
  have hperm := insert_perm item.runId item hnodup
  have hdropped : ∀ p : RunItem → Bool, p item = true →
      (s.pending.filter fun other => other.runId != item.runId).countP p < s.pending.countP p :=
    fun p hp => countP_filter_lt p _ hitem hp (by simp)
  constructor
  case inAll =>
    have hlt := hdropped (fun _ => true) rfl
    have hlength := hperm.length_eq
    have herase : (erase s.running item.runId).length ≤ s.running.length :=
      List.length_filter_le ..
    rw [List.countP_true] at hlt
    rw [List.length_cons] at hlength
    unfold runsInAll startRun
    dsimp only
    omega
  case ofJob =>
    intro jobId
    have hcount := hperm.countP_eq fun e => e.2.cronJobId == jobId
    have herase : (erase s.running item.runId).countP (fun e => e.2.cronJobId == jobId) ≤
        s.running.countP fun e => e.2.cronJobId == jobId := List.filter_sublist.countP_le
    rw [List.countP_cons] at hcount
    unfold runsOfJob startRun
    dsimp only at hcount ⊢
    by_cases hid : (item.cronJobId == jobId) = true
    · have hlt := hdropped (fun other => other.cronJobId == jobId) hid
      rw [if_pos hid] at hcount
      omega
    · have hle : (s.pending.filter fun other => other.runId != item.runId).countP
          (fun other => other.cronJobId == jobId) ≤
            s.pending.countP fun other => other.cronJobId == jobId := List.filter_sublist.countP_le
      rw [if_neg hid] at hcount
      omega

/-- Finishing a run takes it from the running table. -/
lemma fewerRuns_finishRun (now : DateTime) (item : RunItem) (outcome : DispatchEnd)
    (s : CronJobStore) : FewerRuns s (finishRun env now item outcome s) := by
  constructor
  case inAll =>
    have hle : (erase s.running item.runId).length ≤ s.running.length := List.length_filter_le ..
    exact Nat.add_le_add_left hle _
  case ofJob =>
    intro jobId
    have hle : (erase s.running item.runId).countP (fun e => e.2.cronJobId == jobId) ≤
        s.running.countP fun e => e.2.cronJobId == jobId := List.filter_sublist.countP_le
    exact Nat.add_le_add_left hle _

/-! ### One operation -/

variable {events : List RunEvent} {st : SchedulerState} {op : DateTime × SchedulerOp}

/-- The operation deletes a job. -/
def SchedulerOp.Deletes (op : SchedulerOp) : Prop :=
  ∃ saveError cronJobId, op = .call saveError (.delete cronJobId)

lemma SchedulerOp.deletes_of_cronOp {op : SchedulerOp} {cronJobId : String}
    (h : op.cronOp? = some (.delete cronJobId)) : op.Deletes := by
  cases op with
  | call saveError c =>
    cases c with
    | delete id => exact ⟨saveError, id, rfl⟩
    | _ => simp [SchedulerOp.cronOp?, ClientCall.cronOp] at h
  | _ => simp [SchedulerOp.cronOp?] at h

/-- A run that waits in the queue or in the hands of a worker is pending, and is there once. -/
structure Queued (events : List RunEvent) (st : SchedulerState) : Prop where
  once : ∀ runId, runCount st.store.queue runId +
    st.workers.countP (WorkerPhase.holds runId) ≤ runCount (enqueuedRuns events) runId
  pending : ∀ item, item ∈ st.store.queue ∨ .holding item ∈ st.workers → item ∈ st.store.pending
  running : (keys st.store.running).Nodup

lemma queued_start (workers : ℕ) : Queued [] (.start workers) := by
  have hnone := (accounted_start workers).placed
  constructor
  case once =>
    intro runId
    have hplaced := hnone runId
    omega
  case pending =>
    intro item hitem
    rcases hitem with hitem | hitem
    · simp [SchedulerState.start] at hitem
    · exact absurd (List.eq_of_mem_replicate hitem) (by simp)
  case running => exact List.nodup_nil

lemma holds_eq_false {phase : WorkerPhase} (h : ∀ item, phase ≠ .holding item) (runId : String) :
    WorkerPhase.holds runId phase = false := by
  cases phase with
  | holding item => exact absurd rfl (h item)
  | _ => rfl

/-- A worker that leaves no run in its hands. -/
lemma Queued.of_moved {w : ℕ} {phase phase' : WorkerPhase} {st' : SchedulerState}
    {happened : List RunEvent} (h : Queued events st) (hphase : st.workers[w]? = some phase)
    (hworkers : st'.workers = st.workers.set w phase') (hholds : ∀ item, phase' ≠ .holding item)
    (hqueue : st'.store.queue = st.store.queue) (hrunning : (keys st'.store.running).Nodup)
    (hpending : ∀ item, item ∈ st'.store.queue ∨ .holding item ∈ st'.workers →
      item ∈ st.store.pending → item ∈ st'.store.pending) :
    Queued (events ++ happened) st' := by
  constructor
  case once =>
    intro runId
    have honce := h.once runId
    have hmoved := countP_set hphase (WorkerPhase.holds runId) phase'
    rw [contribution_of_false (holds_eq_false hholds runId), ← hworkers] at hmoved
    rw [hqueue, enqueuedRuns_append, runCount_append]
    omega
  case pending =>
    intro item hitem
    refine hpending item hitem (h.pending item ?_)
    rcases hitem with hitem | hitem
    · exact .inl (hqueue ▸ hitem)
    · rw [hworkers] at hitem
      rcases List.mem_or_eq_of_mem_set hitem with hitem | hitem
      · exact .inr hitem
      · exact absurd hitem.symm (hholds item)
  case running => exact hrunning

/-- A tick, or a call that deletes no job. -/
lemma Queued.stored (h : Queued events st) (hdelete : ¬ op.2.Deletes) {cronOp : CronOp}
    (hcronOp : op.2.cronOp? = some cronOp) (file : StateFile) :
    Queued (events ++ (scheduler env policy st.store (op.1, cronOp)).2.map .enqueued)
      { st with store := (scheduler env policy st.store (op.1, cronOp)).1, file := file } := by
  rcases deletes_or_enqueues env policy op.1 st.store hcronOp with ⟨cronJobId, rfl⟩ | henqueues
  · exact absurd (SchedulerOp.deletes_of_cronOp hcronOp) hdelete
  constructor
  case once =>
    intro runId
    have honce := h.once runId
    dsimp only
    rw [henqueues.queue, enqueuedRuns_append, enqueuedRuns_enqueued, runCount_append,
      runCount_append]
    omega
  case pending =>
    intro item hitem
    dsimp only at hitem ⊢
    rw [henqueues.queue, List.mem_append, or_right_comm] at hitem
    rw [henqueues.pending, List.mem_append]
    exact hitem.imp (h.pending item) id
  case running =>
    dsimp only
    rw [henqueues.running]
    exact h.running

/-- A worker takes the run at the head of the queue. -/
lemma Queued.taken (h : Queued events st) {w : ℕ} {item : RunItem} {queue : List RunItem}
    (hphase : st.workers[w]? = some .idle) (hqueue : st.store.queue = item :: queue) :
    Queued events
      ({ st with store := { st.store with queue := queue } }.setWorker w (.holding item)) := by
  constructor
  case once =>
    intro runId
    have honce := h.once runId
    obtain ⟨hmoved, -, -⟩ := countP_moved hphase (.holding item) runId
    rw [hqueue, runCount_cons] at honce
    dsimp only [SchedulerState.setWorker, stageOf] at hmoved ⊢
    omega
  case pending =>
    intro item' hitem'
    refine h.pending item' ?_
    rcases hitem' with hitem' | hitem'
    · exact .inl (hqueue ▸ List.mem_cons_of_mem _ hitem')
    · rcases List.mem_or_eq_of_mem_set hitem' with hitem' | hitem'
      · exact .inr hitem'
      · obtain rfl := WorkerPhase.holding.inj hitem'
        exact .inl (hqueue ▸ List.mem_cons_self)
  case running => exact h.running

/-- A worker that starts the run in its hands held the only run with its identifier. -/
lemma Queued.runId_ne (h : Queued events st) (hfresh : FreshRuns events) {w : ℕ}
    {item other : RunItem} {phase' : WorkerPhase} (hphase : st.workers[w]? = some (.holding item))
    (hholds : ∀ item, phase' ≠ .holding item)
    (hother : other ∈ st.store.queue ∨ .holding other ∈ st.workers.set w phase') :
    other.runId ≠ item.runId := by
  intro hid
  have honce := h.once item.runId
  have hle := runCount_le_one hfresh item.runId
  have hmoved := countP_set hphase (WorkerPhase.holds item.runId) phase'
  rw [contribution_of_false (holds_eq_false hholds item.runId),
    contribution_of_true (by simp [WorkerPhase.holds])] at hmoved
  rcases hother with hother | hother
  · have hpos : 0 < runCount st.store.queue other.runId := runCount_pos hother
    rw [hid] at hpos
    omega
  · have hpos : 0 < (st.workers.set w phase').countP (WorkerPhase.holds item.runId) :=
      List.countP_pos_iff.mpr ⟨_, hother, by simp [WorkerPhase.holds, hid]⟩
    omega

/-- After a restart nothing waits. -/
lemma queued_restart (st : SchedulerState) : Queued events (restart env st) := by
  have hidle : ∀ phase ∈ st.workers.map fun _ => WorkerPhase.idle, phase = .idle := by simp
  constructor
  case once =>
    intro runId
    have hnone : (st.workers.map fun _ => WorkerPhase.idle).countP (WorkerPhase.holds runId) =
        0 := List.countP_eq_zero.mpr fun phase hphase => by
      rw [hidle phase hphase]
      exact Bool.false_ne_true
    dsimp only [restart]
    rw [hnone]
    exact Nat.zero_le _
  case pending =>
    rintro item (hitem | hitem)
    · exact absurd hitem List.not_mem_nil
    · exact absurd (hidle _ hitem) WorkerPhase.noConfusion
  case running => exact List.nodup_nil

/-- One operation that deletes no job keeps the waiting runs pending. -/
lemma queued_step (h : Queued events st) (hfresh : FreshRuns events) (hdelete : ¬ op.2.Deletes)
    {st' : SchedulerState} {happened : List RunEvent}
    (hstep : RunStep env policy st op st' happened) : Queued (events ++ happened) st' := by
  cases hstep with
  | idle =>
    rw [List.append_nil]
    exact h
  | stored cronOp file hcronOp hfile => exact h.stored hdelete hcronOp file
  | taken w item queue hphase hqueue =>
    rw [List.append_nil]
    exact h.taken hphase hqueue
  | started w item saveError file hphase hstart hfile =>
    have hholds : ∀ item', (if saveError.isNone then WorkerPhase.started item (iso op.1)
        else .dead) ≠ .holding item' := by
      intro item'
      split <;> exact WorkerPhase.noConfusion
    refine h.of_moved hphase rfl hholds rfl (nodup_keys_insert h.running) fun item' hitem' hmem => ?_
    exact List.mem_filter.mpr ⟨hmem, by simpa using h.runId_ne hfresh hphase hholds hitem'⟩
  | looked w guardReason item startedAt hphase =>
    refine h.of_moved hphase rfl ?_ rfl h.running fun _ _ hmem => hmem
    intro item'
    cases hlooked : lookUp env guardReason item startedAt st.store.jobs with
    | mk phase' submission =>
      cases hlooked ▸ lookedUp env guardReason item startedAt st.store.jobs with
      | ended outcome => exact WorkerPhase.noConfusion
      | submitted submission hhas => exact WorkerPhase.noConfusion
  | replied w item startedAt outcome hphase =>
    exact h.of_moved hphase rfl (fun _ => WorkerPhase.noConfusion) rfl h.running
      fun _ _ hmem => hmem
  | finished w item startedAt outcome saveError file hphase hfinish hfile =>
    refine h.of_moved hphase rfl ?_ rfl (nodup_keys_erase h.running) fun _ _ hmem => hmem
    intro item'
    unfold phaseAfterFinish
    split
    · exact WorkerPhase.noConfusion
    · split <;> exact WorkerPhase.noConfusion
  | restarted hrestart =>
    rw [List.append_nil]
    exact queued_restart st

variable (env policy) in
/-- There is room for every run that a tick lets into the queue. -/
def RoomForTick (st : SchedulerState) (op : DateTime × SchedulerOp) : Prop :=
  ∀ saveError runIds, op.2 = .tick saveError runIds →
    TickHasRoom env policy op.1 runIds (keys st.store.jobs) st.store

/-- `run_now` asks the policy. -/
lemma withinBounds_runNow {cronJobId reason runId : String} {now : DateTime}
    {s s' : CronJobStore} {items : List RunItem} (h : WithinBounds policy s)
    (hrun : runNow env policy cronJobId reason runId now s = .ok (s', items)) :
    WithinBounds policy s' := by
  have henqueues := runNow_enqueues hrun
  unfold runNow at hrun
  dsimp only at hrun
  split at hrun
  · obtain ⟨rfl, rfl⟩ := Prod.mk.inj (Except.ok.inj hrun)
    exact h
  · split at hrun
    · obtain ⟨rfl, rfl⟩ := Prod.mk.inj (Except.ok.inj hrun)
      exact h
    · split at hrun
      · simp at hrun
      · rename_i hcheck
        obtain ⟨rfl, rfl⟩ := Prod.mk.inj (Except.ok.inj hrun)
        exact (withinBounds_enqueue_iff h henqueues).mpr (room_of_check hcheck)

/-- A call that deletes no job, or a tick that finds room, keeps the bounds. -/
lemma withinBounds_stored {cronOp : CronOp} (h : WithinBounds policy st.store)
    (hcronOp : op.2.cronOp? = some cronOp) (hdelete : ¬ op.2.Deletes)
    (hroom : RoomForTick env policy st op) :
    WithinBounds policy (scheduler env policy st.store (op.1, cronOp)).1 := by
  obtain ⟨now, op⟩ := op
  cases op with
  | tick saveError runIds =>
    obtain rfl := Option.some.inj hcronOp
    exact (withinBounds_tickJobs_iff h now runIds _).mpr (hroom saveError runIds rfl)
  | call saveError c =>
    obtain rfl := Option.some.inj hcronOp
    cases c with
    | delete cronJobId => exact absurd ⟨saveError, cronJobId, rfl⟩ hdelete
    | runNow cronJobId reason runId =>
      unfold scheduler ClientCall.cronOp
      dsimp only
      cases hrun : runNow env policy cronJobId reason runId now st.store with
      | error error => exact h
      | ok result => exact withinBounds_runNow h hrun
    | create jobId payload =>
      unfold scheduler ClientCall.cronOp
      dsimp only
      cases hcreate : createJob env policy jobId payload now st.store with
      | error error => exact h
      | ok s' =>
        obtain ⟨jobs, rfl⟩ := createJob_jobs hcreate
        exact ⟨h.inAll, h.ofJob⟩
    | update cronJobId payload =>
      unfold scheduler ClientCall.cronOp
      dsimp only
      cases hupdate : updateJob env policy cronJobId payload now st.store with
      | error error => exact h
      | ok s' =>
        obtain ⟨jobs, rfl⟩ := updateJob_jobs hupdate
        exact ⟨h.inAll, h.ofJob⟩
  | _ => simp [SchedulerOp.cronOp?] at hcronOp

/-- The bounds admit an idle scheduler. -/
lemma withinBounds_idle (arguments : Policy) (jobs : List (String × Job)) :
    WithinBounds arguments.configured { jobs := jobs } := by
  constructor
  case inAll => exact (by omega : (0 : ℤ) ≤ max 1 arguments.maxPendingRuns)
  case ofJob => exact fun _ => (by omega : (0 : ℤ) ≤ max 1 arguments.maxPendingRunsPerJob)

/-- One operation keeps the bounds. -/
lemma withinBounds_step {arguments : Policy} (h : WithinBounds arguments.configured st.store)
    (hqueued : Queued events st) (hdelete : ¬ op.2.Deletes)
    (hroom : RoomForTick env arguments.configured st op) {st' : SchedulerState}
    {happened : List RunEvent}
    (hstep : RunStep env arguments.configured st op st' happened) :
    WithinBounds arguments.configured st'.store := by
  cases hstep with
  | idle => exact h
  | stored cronOp file hcronOp hfile => exact withinBounds_stored h hcronOp hdelete hroom
  | taken w item queue hphase hqueue => exact ⟨h.inAll, h.ofJob⟩
  | started w item saveError file hphase hstart hfile =>
    have hpending := hqueued.pending item (.inr (List.mem_of_getElem? hphase))
    exact h.of_fewer (fewerRuns_startRun hpending hqueued.running op.1)
  | looked w guardReason item startedAt hphase => exact h
  | replied w item startedAt outcome hphase => exact h
  | finished w item startedAt outcome saveError file hphase hfinish hfile =>
    exact h.of_fewer (fewerRuns_finishRun op.1 item outcome st.store)
  | restarted hrestart => exact withinBounds_idle arguments _

/-! ### Runs of the scheduler -/

/-- In every run of the scheduler without deletions, whatever ticks, manual runs and workers do in
whichever order, the bounds of the configured policy hold, provided that every tick finds room
under them for the runs it lets into the queue. -/
theorem queue_bounds (env : CronRuntime) (arguments : Policy) (workers : ℕ)
    (ops : List (DateTime × SchedulerOp)) (hdelete : ∀ op ∈ ops, ¬ op.2.Deletes)
    (hfresh : FreshRuns (eventsFrom env arguments.configured (.start workers) ops))
    (hroom : (autonomyCronScheduler env arguments.configured).Always
      (RoomForTick env arguments.configured) (.start workers) ops) :
    WithinBounds arguments.configured
      ((autonomyCronScheduler env arguments.configured).after (.start workers) ops).store := by
  have hrun : FreshRuns (eventsFrom env arguments.configured (.start workers) ops) →
      Queued (eventsFrom env arguments.configured (.start workers) ops)
          ((autonomyCronScheduler env arguments.configured).after (.start workers) ops) ∧
        WithinBounds arguments.configured
          ((autonomyCronScheduler env arguments.configured).after (.start workers) ops).store := by
    refine System.answers_invariant (I := fun events st => FreshRuns events.flatten →
      Queued events.flatten st ∧ WithinBounds arguments.configured st.store) ?_
      ((System.always_of_mem hdelete).and hroom)
      fun _ => ⟨queued_start workers, withinBounds_idle arguments []⟩
    intro events st op h hop hnext
    rw [List.flatten_append, List.flatten_singleton] at hnext ⊢
    obtain ⟨hqueued, hbounds⟩ := h hnext.of_append
    have hstep := runStep env arguments.configured st op
    exact ⟨queued_step hqueued hnext.of_append hop.1 hstep,
      withinBounds_step hbounds hqueued hop.1 hop.2 hstep⟩
  exact (hrun hfresh).2

/-- A recurring job that fires every minute, a tick, and a manual run. -/
def minuteRun : List (DateTime × SchedulerOp) :=
  [(noon, .call none (.create "job" [("name", .str "pulse"), ("objective", .str "report"),
      ("conversation_id", .str "c"), ("cron", .str "* * * * *"), ("job_note_md", .str "")])),
    (noon, .tick none fun _ => "first"),
    (⟨2026, 3, 2, 12, 1, 0, 0, by decide⟩, .tick none fun _ => "second")]

theorem queue_bounds_minuteRun :
    WithinBounds minutePolicy.configured
      ((autonomyCronScheduler .ascii minutePolicy.configured).after (.start 1) minuteRun).store := by
  refine queue_bounds .ascii minutePolicy 1 minuteRun ?_ ?_ ?_
  · simp [minuteRun, SchedulerOp.Deletes]
  · have hids : (enqueuedRuns (eventsFrom .ascii minutePolicy.configured (.start 1) minuteRun)).map
        RunItem.runId = ["first", "second"] := by decide +kernel
    unfold FreshRuns
    rw [hids]
    decide
  · exact System.always_of_forall fun st op saveError runIds _ =>
      tickHasRoom_of_limits (by decide) (by decide) op.1 runIds _ st.store

/-- A scheduler that is to have one run at a time. -/
def singlePolicy : Policy := { minutePolicy with maxPendingRuns := 1 }

/-- The tick lets a second run into the queue that the policy does not admit. -/
theorem queue_bounds_singlePolicy :
    ¬ WithinBounds singlePolicy.configured
      ((autonomyCronScheduler .ascii singlePolicy.configured).after (.start 1) minuteRun).store := by
  intro h
  have htwo : runsInAll ((autonomyCronScheduler .ascii singlePolicy.configured).after (.start 1)
      minuteRun).store = 2 := by decide +kernel
  have hle := h.inAll
  rw [htwo] at hle
  exact absurd hle (by decide)

end Trion.Cron
