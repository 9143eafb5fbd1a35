import Trion.Cron.Workers

/-!
# What an operation does to runs

A call and a tick do to the store what the scheduler's operation does that they stand for, and
put runs into the queue.  From there a run is taken by a worker, moves to the running table, is
submitted, and leaves with an entry in the history.  `RunStep` says which of these moves an
operation makes; what holds of runs in every reachable state is proved from it, one case for
each move.
-/

namespace Trion.Cron

open Trion.Python OrderedDict OperationRun

variable {env : CronRuntime} {policy : Policy}

/-- The run a worker has in its hands. -/
def WorkerPhase.item? : WorkerPhase → Option RunItem
  | .idle | .dead => none
  | .holding item | .started item _ | .submitting item _ | .ending item _ _ => some item

/-! ### Operations on the store -/

/-- The operation on the store a call stands for. -/
def ClientCall.cronOp : ClientCall → CronOp
  | .create jobId payload => .create jobId payload
  | .update cronJobId payload => .update cronJobId payload
  | .delete cronJobId => .delete cronJobId
  | .runNow cronJobId reason runId => .runNow cronJobId reason runId

/-- The operation on the store a call or a tick stands for. -/
def SchedulerOp.cronOp? : SchedulerOp → Option CronOp
  | .call _ c => some c.cronOp
  | .tick _ runIds => some (.tick runIds)
  | _ => none

/-- The file is as it was, or it holds the jobs of the store. -/
def Saved (before : StateFile) (s : CronJobStore) (file : StateFile) : Prop :=
  file = before ∨ file.jobs = s.jobs.map Prod.snd

/-- The moves of runs an operation makes, and what happens to runs. -/
inductive RunStep (env : CronRuntime) (policy : Policy) (st : SchedulerState)
    (op : DateTime × SchedulerOp) : SchedulerState → List RunEvent → Prop
  /-- The worker is not where the operation wants it. -/
  | idle : RunStep env policy st op st []
  /-- A call or a tick. -/
  | stored (cronOp : CronOp) (file : StateFile) : op.2.cronOp? = some cronOp →
      Saved st.file (scheduler env policy st.store (op.1, cronOp)).1 file →
      RunStep env policy st op
        { st with store := (scheduler env policy st.store (op.1, cronOp)).1, file := file }
        ((scheduler env policy st.store (op.1, cronOp)).2.map .enqueued)
  | taken (w : ℕ) (item : RunItem) (queue : List RunItem) :
      st.workers[w]? = some .idle → st.store.queue = item :: queue →
      RunStep env policy st op
        ({ st with store := { st.store with queue := queue } }.setWorker w (.holding item)) []
  | started (w : ℕ) (item : RunItem) (saveError : Option String) (file : StateFile) :
      st.workers[w]? = some (.holding item) → op.2 = .start w saveError →
      Saved st.file (startRun op.1 item st.store) file →
      RunStep env policy st op
        ({ st with store := startRun op.1 item st.store, file := file }.setWorker w
          (if saveError.isNone then .started item (iso op.1) else .dead)) []
  | looked (w : ℕ) (guardReason : Option String) (item : RunItem) (startedAt : String) :
      st.workers[w]? = some (.started item startedAt) →
      RunStep env policy st op
        (st.setWorker w (lookUp env guardReason item startedAt st.store.jobs).1)
        ((lookUp env guardReason item startedAt st.store.jobs).2.map (.submitted item)).toList
  | replied (w : ℕ) (item : RunItem) (startedAt : String) (outcome : DispatchEnd) :
      st.workers[w]? = some (.submitting item startedAt) → (∀ reason, outcome ≠ .deferred reason) →
      RunStep env policy st op (st.setWorker w (.ending item startedAt outcome)) []
  | finished (w : ℕ) (item : RunItem) (startedAt : String) (outcome : DispatchEnd)
      (saveError : Option String) (file : StateFile) :
      st.workers[w]? = some (.ending item startedAt outcome) → op.2 = .finish w saveError →
      Saved st.file (finishRun env op.1 item outcome st.store) file →
      RunStep env policy st op
        ({ st with
            store := finishRun env op.1 item outcome st.store
            history := lastEntries (st.history ++ [historyEntry op.1 item startedAt outcome])
            file := file }.setWorker w (phaseAfterFinish item startedAt outcome saveError))
        [.recorded (historyEntry op.1 item startedAt outcome)]
  | restarted : op.2 = .restart → RunStep env policy st op (restart env st) []

/-- Saving changes the file only. -/
lemma SchedulerState.save_eq (st : SchedulerState) (saveError : Option String) :
    ∃ file, Saved st.file st.store file ∧ st.save saveError = { st with file := file } := by
  cases saveError with
  | none => exact ⟨_, .inr rfl, rfl⟩
  | some text => exact ⟨st.file, .inl rfl, rfl⟩

/-- A call does to the store what its operation does. -/
lemma clientCall_eq (env : CronRuntime) (policy : Policy) (now : DateTime)
    (saveError : Option String) (st : SchedulerState) (call : ClientCall) :
    ∃ file, Saved st.file (scheduler env policy st.store (now, call.cronOp)).1 file ∧
      (clientCall env policy now saveError st call).1 =
        { st with store := (scheduler env policy st.store (now, call.cronOp)).1, file := file } ∧
      (clientCall env policy now saveError st call).2.1 =
        (scheduler env policy st.store (now, call.cronOp)).2 := by
  -- where the call does not raise, it ends with `save`
  have hsaved : ∀ (s' : CronJobStore) (items : List RunItem),
      ∃ file, Saved st.file s' file ∧
        (saveAndReturn saveError items { st with store := s' }).1 =
          { st with store := s', file := file } ∧
        (saveAndReturn saveError items { st with store := s' }).2.1 = items := by
    intro s' items
    obtain ⟨file, hfile, hsave⟩ := SchedulerState.save_eq { st with store := s' } saveError
    exact ⟨file, hfile, hsave, rfl⟩
  have hkept : ∃ file, Saved st.file st.store file ∧
      st = { st with store := st.store, file := file } ∧ ([] : List RunItem) = [] :=
    ⟨st.file, .inl rfl, rfl, rfl⟩
  cases call with
  | create jobId payload =>
    unfold clientCall scheduler ClientCall.cronOp
    dsimp only
    cases createJob env policy jobId payload now st.store with
    | error error => exact hkept
    | ok store => exact hsaved store []
  | update cronJobId payload =>
    unfold clientCall scheduler ClientCall.cronOp
    dsimp only
    split
    · rename_i hnone
      have hsame : updateJob env policy cronJobId payload now st.store = .ok st.store := by
        unfold updateJob
        dsimp only
        cases hjob : get? st.store.jobs (strip cronJobId) with
        | none => rfl
        | some job =>
          rw [hjob] at hnone
          exact if_pos hnone
      rw [hsame]
      exact hkept
    · cases updateJob env policy cronJobId payload now st.store with
      | error error => exact hkept
      | ok store => exact hsaved store []
  | delete cronJobId =>
    unfold clientCall scheduler ClientCall.cronOp
    dsimp only
    split
    · exact hsaved (deleteJob cronJobId st.store) []
    · exact ⟨st.file, .inl rfl, rfl, rfl⟩
  | runNow cronJobId reason runId =>
    unfold clientCall scheduler ClientCall.cronOp
    dsimp only
    by_cases hnone : (get? st.store.jobs (strip cronJobId)).getD [] = []
    · have hsame : runNow env policy cronJobId reason runId now st.store = .ok (st.store, []) := by
        unfold runNow
        dsimp only
        cases hjob : get? st.store.jobs (strip cronJobId) with
        | none => rfl
        | some job =>
          rw [hjob] at hnone
          exact if_pos hnone
      rw [if_pos hnone, hsame]
      exact hkept
    · rw [if_neg hnone]
      cases runNow env policy cronJobId reason runId now st.store with
      | error error => exact hkept
      | ok result => exact hsaved result.1 result.2

/-- A tick does to the store what `tick_once` does. -/
lemma tick_eq (env : CronRuntime) (policy : Policy) (now : DateTime) (saveError : Option String)
    (runIds : String → String) (st : SchedulerState) :
    ∃ file, Saved st.file (scheduler env policy st.store (now, .tick runIds)).1 file ∧
      (tick env now saveError runIds st).1 =
        { st with store := (scheduler env policy st.store (now, .tick runIds)).1, file := file } ∧
      (tick env now saveError runIds st).2 =
        (scheduler env policy st.store (now, .tick runIds)).2 := by
  unfold tick scheduler
  dsimp only
  split
  · obtain ⟨file, hfile, hsave⟩ := SchedulerState.save_eq
      { st with store := (tickOnce env now runIds st.store).1 } saveError
    exact ⟨file, hfile, hsave, rfl⟩
  · exact ⟨st.file, .inl rfl, rfl, rfl⟩

variable {st : SchedulerState} {op : DateTime × SchedulerOp}

/-- Every operation makes one of the moves. -/
theorem runStep (env : CronRuntime) (policy : Policy) (st : SchedulerState)
    (op : DateTime × SchedulerOp) :
    RunStep env policy st op (autonomyCronScheduler env policy st op).1
      (autonomyCronScheduler env policy st op).2 := by
  obtain ⟨now, op⟩ := op
  have hworker : ∀ w, op.worker? = some w → RunStep env policy st (now, op)
      ((st.workers[w]?.map (workerStep env now st w op)).getD (st, [])).1
      ((st.workers[w]?.map (workerStep env now st w op)).getD (st, [])).2 := by
    intro w hw
    cases hphase : st.workers[w]? with
    | none => exact .idle
    | some phase =>
      rw [Option.map_some, Option.getD_some]
      unfold workerStep
      split
      · split
        · exact .idle
        · exact .taken w _ _ hphase ‹_›
      · rename_i saveError item
        obtain rfl := Option.some.inj hw
        obtain ⟨file, hfile, hsave⟩ := SchedulerState.save_eq
          { st with store := startRun now item st.store } saveError
        dsimp only at hsave ⊢
        rw [hsave]
        exact .started _ item saveError file hphase rfl hfile
      · exact .looked w _ _ _ hphase
      · refine .replied w _ _ _ hphase fun reason => ?_
        split <;> exact DispatchEnd.noConfusion
      · rename_i saveError item startedAt outcome
        obtain rfl := Option.some.inj hw
        obtain ⟨file, hfile, hsave⟩ := SchedulerState.save_eq
          { st with
            store := finishRun env now item outcome st.store
            history := lastEntries (st.history ++ [historyEntry now item startedAt outcome]) }
          saveError
        have hstep : RunStep env policy st (now, .finish _ saveError) _ _ :=
          .finished _ item startedAt outcome saveError file hphase rfl hfile
        dsimp only at hstep hsave ⊢
        rw [hsave]
        exact hstep
      · exact .idle
  cases op with
  | call saveError call =>
    obtain ⟨file, hfile, hstate, hitems⟩ := clientCall_eq env policy now saveError st call
    unfold autonomyCronScheduler
    dsimp only
    rw [hstate, hitems]
    exact .stored call.cronOp file rfl hfile
  | tick saveError runIds =>
    obtain ⟨file, hfile, hstate, hitems⟩ := tick_eq env policy now saveError runIds st
    unfold autonomyCronScheduler
    dsimp only
    rw [hstate, hitems]
    exact .stored (.tick runIds) file rfl hfile
  | restart => exact .restarted rfl
  | take w => exact hworker w rfl
  | start w saveError => exact hworker w rfl
  | look w guardReason => exact hworker w rfl
  | reply w submission => exact hworker w rfl
  | finish w saveError => exact hworker w rfl

/-! ### What is put into the queue -/

/-- Runs of stored jobs come to the end of the pending list and of the queue. -/
structure Enqueues (s s' : CronJobStore) (items : List RunItem) : Prop where
  pending : s'.pending = s.pending ++ items
  queue : s'.queue = s.queue ++ items
  running : s'.running = s.running
  stored : ∀ item ∈ items, has s.jobs item.cronJobId = true

/-- Only the jobs have changed. -/
lemma Enqueues.none {s s' : CronJobStore} (hpending : s'.pending = s.pending)
    (hqueue : s'.queue = s.queue) (hrunning : s'.running = s.running) : Enqueues s s' [] :=
  ⟨by simpa using hpending, by simpa using hqueue, hrunning, by simp⟩

/-- One run of a stored job. -/
lemma Enqueues.one {s s' : CronJobStore} {item : RunItem}
    (hpending : s'.pending = s.pending ++ [item]) (hqueue : s'.queue = s.queue ++ [item])
    (hrunning : s'.running = s.running) {job : Job}
    (hjob : get? s.jobs item.cronJobId = some job) : Enqueues s s' [item] := by
  refine ⟨hpending, hqueue, hrunning, ?_⟩
  simp [has_iff, hjob]

lemma tickJob_enqueues (env : CronRuntime) (now : DateTime) (s : CronJobStore) (jobId runId : String) :
    Enqueues s (tickJob env now s jobId runId).1 (tickJob env now s jobId runId).2 := by
  unfold tickJob
  cases hjob : get? s.jobs jobId with
  | none => exact .none rfl rfl rfl
  | some job =>
    dsimp only
    split
    · exact .none rfl rfl rfl
    · exact .none rfl rfl rfl
    · split
      · exact .none rfl rfl rfl
      · exact .one rfl rfl rfl hjob

/-- A tick puts runs of stored jobs into the queue. -/
lemma tickJobs_enqueues (env : CronRuntime) (now : DateTime) (runIds : String → String)
    (jobIds : List String) (s : CronJobStore) :
    Enqueues s (tickJobs env now runIds jobIds s).1 (tickJobs env now runIds jobIds s).2 := by
  induction jobIds generalizing s with
  | nil => exact .none rfl rfl rfl
  | cons jobId jobIds ih =>
    have hfirst := tickJob_enqueues env now s jobId (runIds jobId)
    have hrest := ih (tickJob env now s jobId (runIds jobId)).1
    have hkeys := keys_tickJob env now s jobId (runIds jobId)
    unfold tickJobs
    constructor
    case pending =>
      dsimp only
      rw [hrest.pending, hfirst.pending, List.append_assoc]
    case queue =>
      dsimp only
      rw [hrest.queue, hfirst.queue, List.append_assoc]
    case running => exact hrest.running.trans hfirst.running
    case stored =>
      intro item hitem
      rcases List.mem_append.mp hitem with hitem | hitem
      · exact hfirst.stored item hitem
      · have hstored := hrest.stored item hitem
        rw [has_iff, ← mem_keys_iff, hkeys, mem_keys_iff, ← has_iff] at hstored
        exact hstored

/-- A manual run of a stored job comes into the queue. -/
lemma runNow_enqueues {cronJobId reason runId : String} {now : DateTime} {s s' : CronJobStore}
    {items : List RunItem} (h : runNow env policy cronJobId reason runId now s = .ok (s', items)) :
    Enqueues s s' items := by
  unfold runNow at h
  dsimp only at h
  split at h
  · obtain ⟨rfl, rfl⟩ := Prod.mk.inj (Except.ok.inj h)
    exact .none rfl rfl rfl
  · rename_i job hjob
    split at h
    · obtain ⟨rfl, rfl⟩ := Prod.mk.inj (Except.ok.inj h)
      exact .none rfl rfl rfl
    · split at h
      · simp at h
      · obtain ⟨rfl, rfl⟩ := Prod.mk.inj (Except.ok.inj h)
        exact .one rfl rfl rfl hjob

lemma createJob_jobs {jobId : String} {payload : PyDict} {now : DateTime} {s s' : CronJobStore}
    (h : createJob env policy jobId payload now s = .ok s') :
    ∃ jobs, s' = { s with jobs := jobs } := by
  unfold createJob at h
  obtain ⟨normalized, -, h⟩ := ok_of_bind h
  obtain ⟨-, -, h⟩ := ok_of_bind h
  exact ⟨_, (Except.ok.inj h).symm⟩

lemma updateJob_jobs {cronJobId : String} {payload : PyDict} {now : DateTime} {s s' : CronJobStore}
    (h : updateJob env policy cronJobId payload now s = .ok s') :
    ∃ jobs, s' = { s with jobs := jobs } := by
  unfold updateJob at h
  dsimp only at h
  split at h
  · exact ⟨s.jobs, (Except.ok.inj h).symm⟩
  · split at h
    · exact ⟨s.jobs, (Except.ok.inj h).symm⟩
    · obtain ⟨normalized, -, h⟩ := ok_of_bind h
      obtain ⟨-, -, h⟩ := ok_of_bind h
      exact ⟨_, (Except.ok.inj h).symm⟩

/-- The operation on the store of a call or a tick removes runs of one job from the pending
list, or puts runs of stored jobs into the queue. -/
lemma deletes_or_enqueues (env : CronRuntime) (policy : Policy) (now : DateTime)
    (s : CronJobStore) {op : SchedulerOp} {cronOp : CronOp} (hop : op.cronOp? = some cronOp) :
    (∃ cronJobId, cronOp = .delete cronJobId) ∨
      Enqueues s (scheduler env policy s (now, cronOp)).1
        (scheduler env policy s (now, cronOp)).2 := by
  cases op with
  | tick saveError runIds =>
    obtain rfl := Option.some.inj hop
    exact .inr (tickJobs_enqueues env now runIds _ s)
  | call saveError call =>
    obtain rfl := Option.some.inj hop
    cases call with
    | delete cronJobId => exact .inl ⟨cronJobId, rfl⟩
    | create jobId payload =>
      right
      unfold scheduler ClientCall.cronOp
      dsimp only
      cases hcreate : createJob env policy jobId payload now s with
      | error error => exact .none rfl rfl rfl
      | ok s' =>
        obtain ⟨jobs, rfl⟩ := createJob_jobs hcreate
        exact .none rfl rfl rfl
    | update cronJobId payload =>
      right
      unfold scheduler ClientCall.cronOp
      dsimp only
      cases hupdate : updateJob env policy cronJobId payload now s with
      | error error => exact .none rfl rfl rfl
      | ok s' =>
        obtain ⟨jobs, rfl⟩ := updateJob_jobs hupdate
        exact .none rfl rfl rfl
    | runNow cronJobId reason runId =>
      right
      unfold scheduler ClientCall.cronOp
      dsimp only
      cases hrun : runNow env policy cronJobId reason runId now s with
      | error error => exact .none rfl rfl rfl
      | ok result => exact runNow_enqueues hrun
  | _ => simp [SchedulerOp.cronOp?] at hop

/-! ### Looking up the job -/

/-- A worker that looks up its job submits the run, or ends it. -/
inductive LookedUp (item : RunItem) (startedAt : String) (jobs : List (String × Job)) :
    WorkerPhase × Option Submission → Prop
  | ended (outcome : DispatchEnd) : LookedUp item startedAt jobs (.ending item startedAt outcome, none)
  | submitted (submission : Submission) : has jobs item.cronJobId = true →
      LookedUp item startedAt jobs (.submitting item startedAt, some submission)

lemma lookedUp (env : CronRuntime) (guardReason : Option String) (item : RunItem)
    (startedAt : String) (jobs : List (String × Job)) :
    LookedUp item startedAt jobs (lookUp env guardReason item startedAt jobs) := by
  unfold lookUp
  dsimp only
  split
  · exact .ended _
  · rename_i hjob
    have hhas : has jobs item.cronJobId = true := by
      by_contra hnone
      simp [has_eq_false_iff.mp (by simpa using hnone)] at hjob
    split
    · exact .ended _
    · split
      · exact .ended _
      · split
        · exact .ended _
        · exact .submitted _ hhas

/-! ### Jobs -/

/-- The operation creates a job under the identifier. -/
def SchedulerOp.Creates (jobId : String) (op : SchedulerOp) : Prop :=
  ∃ saveError payload, op = .call saveError (.create jobId payload)

/-- The operation on the store does not create the job either. -/
lemma SchedulerOp.cronOp_ne_create {jobId : String} {op : SchedulerOp} {cronOp : CronOp}
    (hop : op.cronOp? = some cronOp) (hcreate : ¬ op.Creates jobId) (payload : PyDict) :
    cronOp ≠ .create jobId payload := by
  rintro rfl
  cases op with
  | call saveError c =>
    cases c with
    | create newId fields =>
      obtain ⟨rfl, rfl⟩ := CronOp.create.inj (Option.some.inj hop)
      exact hcreate ⟨saveError, fields, rfl⟩
    | _ => simp [SchedulerOp.cronOp?, ClientCall.cronOp] at hop
  | _ => simp [SchedulerOp.cronOp?] at hop

/-- A job that is there after an operation was there before, unless it has been created or read
from the file. -/
theorem RunStep.has_of_has {jobId : String} {st' : SchedulerState} {happened : List RunEvent}
    (hstep : RunStep env policy st op st' happened) (hrestart : op.2 ≠ .restart)
    (hcreate : ¬ op.2.Creates jobId) (h : has st'.store.jobs jobId = true) :
    has st.store.jobs jobId = true := by
  have hkeys : ∀ jobs : List (String × Job), keys jobs = keys st.store.jobs →
      has jobs jobId = true → has st.store.jobs jobId = true := by
    intro jobs hsame hhas
    rwa [has_iff, ← mem_keys_iff, hsame, mem_keys_iff, ← has_iff] at hhas
  cases hstep with
  | stored cronOp file hop =>
    obtain ⟨job, hjob⟩ := Option.isSome_iff_exists.mp (has_iff.mp h)
    cases jobSource hjob with
    | same _ hjob₀ => simp [has_iff, hjob₀]
    | kept job₀ _ _ hjob₀ _ => simp [has_iff, hjob₀]
    | created payload normalized hcreated =>
      exact absurd hcreated (SchedulerOp.cronOp_ne_create hop hcreate payload)
    | updated cronJobId payload current normalized _ _ hcurrent => simp [has_iff, hcurrent]
  | started w item saveError file => exact hkeys _ (keys_startRun ..) h
  | finished w item startedAt outcome saveError file => exact hkeys _ (keys_finishRun ..) h
  | restarted hop => exact absurd hop hrestart
  | idle => exact h
  | taken => exact h
  | looked => exact h
  | replied => exact h

end Trion.Cron
