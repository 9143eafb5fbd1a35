import Trion.Cron.OneShots

/-!
# Re-armed jobs

An update may give a one-shot job another time and enable it again.  It leaves the trigger key
of the job as it is, so a job that has been consumed stays consumed: the update is accepted, and
no tick ever puts it into the queue.  A job that was not consumed fires at the first
tick that reaches its time.  Until then calls on other jobs, ticks, workers and restarts may
come in between, and only a worker that ends an older run of the job can disable it.
-/

namespace Trion.Cron

open Trion.Python OrderedDict OperationRun

variable {env : CronRuntime} {policy : Policy} {jobId : String} {runAt : DateTime}
  {consumed : Bool} {A : Bool → Prop}

/-! ### Armed jobs -/

/-- `bool(job.get("enabled", True))`. -/
def isEnabled (job : Job) : Bool := ((get? job "enabled").getD (.bool true)).truthy

/-- A one-shot job with its time and its mark; `A` says what is known of its enabled flag. -/
structure Armed (env : CronRuntime) (runAt : DateTime) (consumed : Bool) (A : Bool → Prop)
    (job : Job) : Prop where
  mode : isOneShot env job = true
  time : parseIsoDatetime env (strField env job "run_at" "") = some runAt
  mark : isConsumed env job = consumed
  enabled : A (isEnabled job)

/-- The job is there, and armed. -/
def HoldsArmed (env : CronRuntime) (jobId : String) (runAt : DateTime) (consumed : Bool)
    (A : Bool → Prop) (jobs : List (String × Job)) : Prop :=
  ∃ job, get? jobs jobId = some job ∧ Armed env runAt consumed A job

/-- Only four fields count. -/
lemma Armed.congr {job job' : Job} (h : Armed env runAt consumed A job)
    (hsame : ∀ key ∈ ["schedule_mode", "run_at", "last_trigger_key", "enabled"],
      get? job' key = get? job key) : Armed env runAt consumed A job' := by
  constructor
  case mode =>
    unfold isOneShot strField
    rw [hsame "schedule_mode" (by simp)]
    exact h.mode
  case time =>
    unfold strField
    rw [hsame "run_at" (by simp)]
    exact h.time
  case mark =>
    unfold isConsumed strField
    rw [hsame "last_trigger_key" (by simp)]
    exact h.mark
  case enabled =>
    unfold isEnabled
    rw [hsame "enabled" (by simp)]
    exact h.enabled

/-- Writing other fields. -/
lemma Armed.setFields {job : Job} (h : Armed env runAt consumed A job)
    {fields : List (String × String)}
    (hfields : ∀ field ∈ fields,
      field.1 ∉ ["schedule_mode", "run_at", "last_trigger_key", "enabled"]) :
    Armed env runAt consumed A (setFields job fields) :=
  h.congr fun _ hkey => get?_setFields_of_notMem
    (fun field hfield heq => hfields field hfield (heq ▸ hkey)) job

/-- A job may be disabled where that is allowed. -/
lemma Armed.disable {job : Job} (h : Armed env runAt consumed A job) (hoff : A false)
    (p : Prop) [Decidable p] :
    Armed env runAt consumed A (if p then insert job "enabled" (.bool false) else job) := by
  split
  · have hother : ∀ key, key ≠ "enabled" →
        get? (insert job "enabled" (.bool false)) key = get? job key := fun key hkey =>
      get?_insert_of_ne hkey
    constructor
    case mode =>
      unfold isOneShot strField
      rw [hother _ (by decide)]
      exact h.mode
    case time =>
      unfold strField
      rw [hother _ (by decide)]
      exact h.time
    case mark =>
      unfold isConsumed strField
      rw [hother _ (by decide)]
      exact h.mark
    case enabled =>
      unfold isEnabled
      rw [get?_insert_self]
      exact hoff
  · exact h

/-- What a tick finds for an armed job. -/
lemma tickFinding_of_armed {job : Job} (h : Armed env runAt consumed A job) (now : DateTime) :
    tickFinding env job now =
      if isEnabled job = true ∧ consumed = false ∧ runAt.ticks ≤ now.ticks then
        .due "schedule_one_shot" ("one_shot:" ++ strField env job "run_at" "")
      else .idle := by
  have hfinding : oneShotFinding env job now =
      if consumed = false ∧ runAt.ticks ≤ now.ticks then
        .due "schedule_one_shot" ("one_shot:" ++ strField env job "run_at" "")
      else .idle := by
    have hmark := h.mark
    unfold isConsumed at hmark
    unfold oneShotFinding
    rw [hmark, h.time]
    cases consumed with
    | true => simp
    | false =>
      by_cases hdue : runAt.ticks ≤ now.ticks
      · simp [hdue]
      · simp [hdue, not_le.mp hdue]
  unfold tickFinding
  rw [if_pos h.mode, hfinding]
  change (if isEnabled job = false then _ else _) = _
  cases isEnabled job with
  | true => simp
  | false => simp

/-! ### Ticks -/

variable (env) in
/-- A tick of another job leaves this one alone. -/
lemma tickJob_of_ne {id : String} (hid : id ≠ jobId) (now : DateTime) (s : CronJobStore)
    (runId : String) :
    get? (tickJob env now s id runId).1.jobs jobId = get? s.jobs jobId ∧
      ∀ item ∈ (tickJob env now s id runId).2, item.cronJobId ≠ jobId := by
  unfold tickJob
  split
  · exact ⟨rfl, by simp⟩
  · split
    · exact ⟨rfl, by simp⟩
    · exact ⟨get?_modifyJob_of_ne hid _, by simp⟩
    · split
      · exact ⟨get?_modifyJob_of_ne hid _, by simp⟩
      · refine ⟨get?_modifyJob_of_ne hid _, fun item hitem => ?_⟩
        obtain rfl := List.mem_singleton.mp hitem
        exact hid

/-- A tick over the jobs leaves a job alone for which it finds nothing. -/
lemma tickJobs_of_idle {now : DateTime} {job : Job} (hidle : tickFinding env job now = .idle)
    (runIds : String → String) (ids : List String) {s : CronJobStore}
    (hjob : get? s.jobs jobId = some job) :
    get? (tickJobs env now runIds ids s).1.jobs jobId = some job ∧
      ∀ item ∈ (tickJobs env now runIds ids s).2, item.cronJobId ≠ jobId := by
  induction ids generalizing s with
  | nil => exact ⟨hjob, by simp [tickJobs]⟩
  | cons id ids ih =>
    have hfirst : get? (tickJob env now s id (runIds id)).1.jobs jobId = some job ∧
        ∀ item ∈ (tickJob env now s id (runIds id)).2, item.cronJobId ≠ jobId := by
      by_cases hid : id = jobId
      · subst hid
        have hsame : tickJob env now s id (runIds id) = (s, []) := by
          unfold tickJob
          rw [hjob]
          dsimp only
          rw [hidle]
        rw [hsame]
        exact ⟨hjob, by simp⟩
      · obtain ⟨hget, hitems⟩ := tickJob_of_ne env hid now s (runIds id)
        exact ⟨hget.trans hjob, hitems⟩
    obtain ⟨hget, hitems⟩ := ih hfirst.1
    refine ⟨hget, fun item hitem => ?_⟩
    rcases List.mem_append.mp hitem with hitem | hitem
    · exact hfirst.2 item hitem
    · exact hitems item hitem

/-- A tick over other jobs puts no run of this one into the queue. -/
lemma tickJobs_of_notMem (env : CronRuntime) (now : DateTime) (runIds : String → String)
    {ids : List String} (hids : jobId ∉ ids) (s : CronJobStore) :
    ∀ item ∈ (tickJobs env now runIds ids s).2, item.cronJobId ≠ jobId := by
  induction ids generalizing s with
  | nil => simp [tickJobs]
  | cons id ids ih =>
    obtain ⟨hid, hids⟩ := List.ne_and_not_mem_of_not_mem_cons hids
    intro item hitem
    rcases List.mem_append.mp hitem with hitem | hitem
    · exact (tickJob_of_ne env hid.symm now s (runIds id)).2 item hitem
    · exact ih hids _ item hitem

/-- The runs of the job among those put into the queue. -/
def runsOf (jobId : String) (items : List RunItem) : List RunItem :=
  items.filter fun item => item.cronJobId == jobId

lemma runsOf_eq_nil {items : List RunItem} (h : ∀ item ∈ items, item.cronJobId ≠ jobId) :
    runsOf jobId items = [] := by
  refine List.filter_eq_nil_iff.mpr fun item hitem => ?_
  simpa using h item hitem

/-- When a tick over the jobs comes to this one, the queue has room for its run. -/
def HasCapacityAmong (env : CronRuntime) (now : DateTime) (runIds : String → String) (jobId : String)
    (ids : List String) (s : CronJobStore) : Prop :=
  let reached := (tickJobs env now runIds (ids.takeWhile (· != jobId)) s).1
  checkEnqueuePolicy env jobId "schedule_one_shot" now reached.pending reached.running
    reached.jobs 500 2 30 = none

/-- When the tick comes to the job, the queue has room for its run. -/
def HasCapacity (env : CronRuntime) (now : DateTime) (runIds : String → String) (jobId : String)
    (s : CronJobStore) : Prop := HasCapacityAmong env now runIds jobId (keys s.jobs) s

instance (env : CronRuntime) (now : DateTime) (runIds : String → String) (jobId : String)
    (s : CronJobStore) : Decidable (HasCapacity env now runIds jobId s) :=
  decidable_of_iff _ Option.isNone_iff_eq_none

/-- A tick over the jobs puts one run of a due job into the queue, if there is room. -/
lemma runsOf_tickJobs_of_due {now : DateTime} {job : Job} {key : String}
    (hdue : tickFinding env job now = .due "schedule_one_shot" key) (runIds : String → String)
    {ids : List String} (hnodup : ids.Nodup) (hmem : jobId ∈ ids) {s : CronJobStore}
    (hjob : get? s.jobs jobId = some job) (hroom : HasCapacityAmong env now runIds jobId ids s) :
    (runsOf jobId (tickJobs env now runIds ids s).2).length = 1 := by
  induction ids generalizing s with
  | nil => simp at hmem
  | cons id ids ih =>
    obtain ⟨hnotMem, hnodup⟩ := List.nodup_cons.mp hnodup
    have hsplit : runsOf jobId (tickJobs env now runIds (id :: ids) s).2 =
        runsOf jobId (tickJob env now s id (runIds id)).2 ++
          runsOf jobId (tickJobs env now runIds ids (tickJob env now s id (runIds id)).1).2 :=
      List.filter_append ..
    unfold HasCapacityAmong at hroom
    by_cases hid : id = jobId
    · subst hid
      have hrest := runsOf_eq_nil (tickJobs_of_notMem env now runIds hnotMem
        (tickJob env now s id (runIds id)).1)
      have hreached : (id :: ids).takeWhile (· != id) = [] := List.takeWhile_cons_of_neg (by simp)
      rw [hreached] at hroom
      have hone : (tickJob env now s id (runIds id)).2 =
          [⟨runIds id, id, iso now, "schedule_one_shot"⟩] := by
        unfold tickJob
        rw [hjob]
        dsimp only
        rw [hdue]
        dsimp only
        unfold tickJobs at hroom
        rw [hroom]
      rw [hsplit, hrest, hone]
      simp [runsOf]
    · obtain ⟨hget, hitems⟩ := tickJob_of_ne env hid now s (runIds id)
      have hreached : (id :: ids).takeWhile (· != jobId) = id :: ids.takeWhile (· != jobId) :=
        List.takeWhile_cons_of_pos (by simpa using hid)
      rw [hreached] at hroom
      rw [hsplit, runsOf_eq_nil hitems, List.nil_append]
      exact ih hnodup (List.mem_of_ne_of_mem (Ne.symm hid) hmem) (hget.trans hjob) hroom

/-! ### One operation -/

/-- The operation is no call on the job, and no tick at its time or later. -/
def LeavesAlone (jobId : String) (runAt : DateTime) (op : DateTime × SchedulerOp) : Prop :=
  match op.2 with
  | .call _ (.create newId _) => newId ≠ jobId
  | .call _ (.update cronJobId _) => strip cronJobId ≠ jobId
  | .call _ (.delete cronJobId) => strip cronJobId ≠ jobId
  | .call _ (.runNow cronJobId _ _) => strip cronJobId ≠ jobId
  | .tick _ _ => op.1.ticks < runAt.ticks
  | _ => True

/-- A worker ends a run of the job that was submitted or has failed. -/
def EndsRun (jobId : String) (st : SchedulerState) (op : DateTime × SchedulerOp) : Prop :=
  ∃ w saveError item startedAt outcome, op.2 = .finish w saveError ∧
    st.workers[w]? = some (.ending item startedAt outcome) ∧ item.cronJobId = jobId ∧
    ∀ reason, outcome ≠ .deferred reason

/-- The job is armed in the store, and in what the file would be loaded to. -/
structure StaysArmed (env : CronRuntime) (jobId : String) (runAt : DateTime) (consumed : Bool)
    (A : Bool → Prop) (st : SchedulerState) : Prop where
  identified : Identified env st.store.jobs
  store : HoldsArmed env jobId runAt consumed A st.store.jobs
  file : HoldsArmed env jobId runAt consumed A (loadJobs env st.file.jobs)

/-- A manual run of another job. -/
lemma runNow_of_ne {cronJobId reason runId : String} {now : DateTime} {s : CronJobStore}
    {result : CronJobStore × List RunItem} (hne : strip cronJobId ≠ jobId)
    (h : runNow env policy cronJobId reason runId now s = .ok result) :
    get? result.1.jobs jobId = get? s.jobs jobId ∧ ∀ item ∈ result.2, item.cronJobId ≠ jobId := by
  unfold runNow at h
  dsimp only at h
  split at h
  · rw [← Except.ok.inj h]
    exact ⟨rfl, by simp⟩
  · split at h
    · rw [← Except.ok.inj h]
      exact ⟨rfl, by simp⟩
    · split at h
      · simp at h
      · rw [← Except.ok.inj h]
        refine ⟨get?_modifyJob_of_ne hne _, fun item hitem => ?_⟩
        obtain rfl := List.mem_singleton.mp hitem
        exact hne

/-- Calls on other jobs and earlier ticks leave the armed job as it is. -/
lemma get?_stored_of_leavesAlone (policy : Policy) {now : DateTime} {op : SchedulerOp}
    {cronOp : CronOp} (hop : op.cronOp? = some cronOp) (halone : LeavesAlone jobId runAt (now, op))
    {s : CronJobStore} {job : Job} (hjob : get? s.jobs jobId = some job)
    (harmed : Armed env runAt consumed A job) :
    get? (scheduler env policy s (now, cronOp)).1.jobs jobId = some job ∧
      ∀ item ∈ (scheduler env policy s (now, cronOp)).2, item.cronJobId ≠ jobId := by
  cases op with
  | tick saveError runIds =>
    obtain rfl := Option.some.inj hop
    have hearly : now.ticks < runAt.ticks := halone
    have hidle : tickFinding env job now = .idle := by
      rw [tickFinding_of_armed harmed now, if_neg fun hdue => absurd hdue.2.2 (not_le.mpr hearly)]
    exact tickJobs_of_idle hidle runIds _ hjob
  | call saveError call =>
    obtain rfl := Option.some.inj hop
    cases call with
    | create newId payload =>
      have hne : newId ≠ jobId := halone
      refine ⟨?_, by simp [scheduler, ClientCall.cronOp]⟩
      have hwritten := written_of_takesFields env policy s
        (show CronOp.takesFields (now, CronOp.create newId payload).2 = true from rfl)
      generalize hresult : (scheduler env policy s (now, .create newId payload)).1 = s'
        at hwritten
      have hgoal : get? s'.jobs jobId = some job := by
        cases hwritten with
        | unchanged => exact hjob
        | created id fields normalized hcreate =>
          obtain ⟨rfl, rfl⟩ := CronOp.create.inj hcreate
          exact (get?_insert_of_ne hne.symm).trans hjob
        | updated cronJobId fields current normalized hupdate => exact absurd hupdate (by simp)
      exact (congrArg (fun st => get? st.jobs jobId) hresult).trans hgoal
    | update cronJobId payload =>
      have hne : strip cronJobId ≠ jobId := halone
      refine ⟨?_, by simp [scheduler, ClientCall.cronOp]⟩
      have hwritten := written_of_takesFields env policy s
        (show CronOp.takesFields (now, CronOp.update cronJobId payload).2 = true from rfl)
      generalize hresult : (scheduler env policy s (now, .update cronJobId payload)).1 = s'
        at hwritten
      have hgoal : get? s'.jobs jobId = some job := by
        cases hwritten with
        | unchanged => exact hjob
        | created id fields normalized hcreate => exact absurd hcreate (by simp)
        | updated updatedId fields current normalized hupdate =>
          obtain ⟨rfl, rfl⟩ := CronOp.update.inj hupdate
          exact (get?_insert_of_ne hne.symm).trans hjob
      exact (congrArg (fun st => get? st.jobs jobId) hresult).trans hgoal
    | delete cronJobId =>
      have hne : strip cronJobId ≠ jobId := halone
      have hget : get? (deleteJob cronJobId s).jobs jobId = get? s.jobs jobId :=
        (get?_erase ..).trans (if_neg hne.symm)
      exact ⟨hget.trans hjob, by simp [scheduler, ClientCall.cronOp]⟩
    | runNow cronJobId reason runId =>
      have hne : strip cronJobId ≠ jobId := halone
      unfold scheduler ClientCall.cronOp
      dsimp only
      cases hrun : runNow env policy cronJobId reason runId now s with
      | error error => exact ⟨hjob, by simp⟩
      | ok result =>
        obtain ⟨hget, hitems⟩ := runNow_of_ne hne hrun
        exact ⟨hget.trans hjob, hitems⟩
  | _ => simp [SchedulerOp.cronOp?] at hop

/-- What a save leaves in the file. -/
lemma HoldsArmed.saved {before file : StateFile} {s : CronJobStore}
    (h : HoldsArmed env jobId runAt consumed A s.jobs) (hid : Identified env s.jobs)
    (hbefore : HoldsArmed env jobId runAt consumed A (loadJobs env before.jobs))
    (hfile : Saved before s file) :
    HoldsArmed env jobId runAt consumed A (loadJobs env file.jobs) := by
  rcases hfile with rfl | hjobs
  · exact hbefore
  · rw [hjobs, loadJobs_of_identified hid]
    exact h

/-- A job of the store is changed, and stays armed. -/
lemma HoldsArmed.modify {jobs jobs' : List (String × Job)} {id : String} {f : Job → Job}
    (h : HoldsArmed env jobId runAt consumed A jobs) (hjobs : jobs' = modify jobs id f)
    (hf : id = jobId → ∀ job, Armed env runAt consumed A job → Armed env runAt consumed A (f job)) :
    HoldsArmed env jobId runAt consumed A jobs' := by
  rw [hjobs]
  obtain ⟨job, hjob, harmed⟩ := h
  by_cases hid : id = jobId
  · refine ⟨f job, ?_, hf hid job harmed⟩
    rw [get?_modify, if_pos hid.symm, hjob]
    rfl
  · refine ⟨job, ?_, harmed⟩
    rw [get?_modify, if_neg (Ne.symm hid), hjob]

/-- The end of a run leaves its job armed; it may be disabled if the run was not deferred. -/
lemma Armed.endDispatchFields {job : Job} (h : Armed env runAt consumed A job) (now : DateTime)
    {outcome : DispatchEnd} (hoff : (∀ reason, outcome ≠ .deferred reason) → A false) :
    Armed env runAt consumed A (endDispatchFields env now outcome job) := by
  cases outcome with
  | deferred guardReason => exact h.setFields (by simp)
  | submitted autonomyJobId =>
    exact (h.setFields (by simp)).disable (hoff fun _ => DispatchEnd.noConfusion) _
  | failed error =>
    exact (h.setFields (by simp)).disable (hoff fun _ => DispatchEnd.noConfusion) _

variable {st st' : SchedulerState} {op : DateTime × SchedulerOp} {happened : List RunEvent}

/-- One operation that leaves the job alone. -/
theorem staysArmed_step (h : StaysArmed env jobId runAt consumed A st)
    (hstep : RunStep env policy st op st' happened) (halone : LeavesAlone jobId runAt op)
    (hnames : op.2.NamesJobs) (hoff : EndsRun jobId st op → A false) :
    StaysArmed env jobId runAt consumed A st' ∧
      ∀ item, .enqueued item ∈ happened → item.cronJobId ≠ jobId := by
  cases hstep with
  | idle => exact ⟨h, by simp⟩
  | stored cronOp file hop hfile =>
    obtain ⟨job, hjob, harmed⟩ := h.store
    obtain ⟨hget, hitems⟩ := get?_stored_of_leavesAlone policy hop halone hjob harmed
    have hid : Identified env (scheduler env policy st.store (op.1, cronOp)).1.jobs :=
      identified_stored h.identified hop hnames
    have hstore : HoldsArmed env jobId runAt consumed A
        (scheduler env policy st.store (op.1, cronOp)).1.jobs := ⟨job, hget, harmed⟩
    refine ⟨⟨hid, hstore, hstore.saved hid h.file hfile⟩, fun item hitem => ?_⟩
    obtain ⟨item, hmem, heq⟩ := List.mem_map.mp hitem
    obtain rfl := RunEvent.enqueued.inj heq
    exact hitems item hmem
  | taken w item queue hphase hqueue => exact ⟨⟨h.identified, h.store, h.file⟩, by simp⟩
  | started w item saveError file hphase hstart hfile =>
    have hid := identified_startRun h.identified op.1 item
    have hwrite : ∀ job, Armed env runAt consumed A job →
        Armed env runAt consumed A (if job = [] then job
          else setFields job [("last_run_at", iso op.1), ("last_status", "dispatching")]) := by
      intro job harmed
      split
      · exact harmed
      · exact harmed.setFields (by simp)
    have hstore : HoldsArmed env jobId runAt consumed A (startRun op.1 item st.store).jobs :=
      h.store.modify rfl fun _ => hwrite
    exact ⟨⟨hid, hstore, hstore.saved hid h.file hfile⟩, by simp⟩
  | looked w guardReason item startedAt hphase =>
    refine ⟨⟨h.identified, h.store, h.file⟩, fun run hrun => ?_⟩
    simp at hrun
  | replied w item startedAt outcome hphase hne => exact ⟨⟨h.identified, h.store, h.file⟩, by simp⟩
  | finished w item startedAt outcome saveError file hphase hfinish hfile =>
    have hid := identified_finishRun h.identified op.1 item outcome
    have hwrite : item.cronJobId = jobId → ∀ job, Armed env runAt consumed A job →
        Armed env runAt consumed A
          (if job = [] then job else endDispatchFields env op.1 outcome job) := by
      intro hjobId job harmed
      split
      · exact harmed
      · exact harmed.endDispatchFields op.1 fun hne =>
          hoff ⟨w, saveError, item, startedAt, outcome, hfinish, hphase, hjobId, hne⟩
    have hstore : HoldsArmed env jobId runAt consumed A
        (finishRun env op.1 item outcome st.store).jobs := h.store.modify rfl hwrite
    exact ⟨⟨hid, hstore, hstore.saved hid h.file hfile⟩, by simp⟩
  | restarted hrestart => exact ⟨⟨identified_loadJobs .., h.file, h.file⟩, by simp⟩

/-! ### From the update to the tick -/

/-- Every job stays under its identifier. -/
lemma RunStep.identified (hstep : RunStep env policy st op st' happened)
    (h : Identified env st.store.jobs) (hnames : op.2.NamesJobs) :
    Identified env st'.store.jobs := by
  cases hstep with
  | stored cronOp file hcronOp hfile => exact identified_stored h hcronOp hnames
  | started w item saveError file hphase hstart hfile => exact identified_startRun h _ item
  | finished w item startedAt outcome saveError file hphase hfinish hfile =>
    exact identified_finishRun h _ item outcome
  | restarted hrestart => exact identified_loadJobs ..
  | idle => exact h
  | taken => exact h
  | looked => exact h
  | replied => exact h

/-- Every job of a reachable state stands under its identifier. -/
lemma identified_after (env : CronRuntime) (policy : Policy) (workers : ℕ)
    {ops : List (DateTime × SchedulerOp)} (hnames : ∀ op ∈ ops, op.2.NamesJobs) :
    Identified env ((autonomyCronScheduler env policy).after (.start workers) ops).store.jobs := by
  have hstart : Identified env (SchedulerState.start workers).store.jobs :=
    ⟨List.nodup_nil, fun jobId job hjob => by simp [SchedulerState.start] at hjob⟩
  exact System.invariant (I := fun st : SchedulerState => Identified env st.store.jobs)
    (fun st op h hop => (runStep env policy st op).identified h hop)
    (System.always_of_mem hnames) hstart

/-- `update_job` answers, and leaves a one-shot job that is enabled and has this time. -/
structure ReArms (env : CronRuntime) (policy : Policy) (now : DateTime) (cronJobId : String)
    (payload : PyDict) (runAt : DateTime) (st st₁ : SchedulerState) : Prop where
  answer : clientCall env policy now none st (.update cronJobId payload) = (st₁, [], .ok ())
  stored : ∃ job, get? st₁.store.jobs (strip cronJobId) = some job ∧ isOneShot env job = true ∧
    isEnabled job = true ∧ parseIsoDatetime env (strField env job "run_at" "") = some runAt

/-- The update leaves the mark of the job as it is. -/
lemma staysArmed_of_reArms {now : DateTime} {cronJobId : String} {payload : PyDict}
    {st₁ : SchedulerState} (hid : Identified env st.store.jobs)
    (h : ReArms env policy now cronJobId payload runAt st st₁) :
    ∃ consumed, StaysArmed env (strip cronJobId) runAt consumed (· = true) st₁ ∧
      (consumed = true ↔ Marked env st.store.jobs (strip cronJobId)) := by
  obtain ⟨job, hjob, hmode, henabled, htime⟩ := h.stored
  have hanswer := h.answer
  unfold clientCall at hanswer
  dsimp only at hanswer
  split at hanswer
  · -- an empty job is no one-shot job
    rename_i hempty
    obtain ⟨rfl, -⟩ := Prod.mk.inj hanswer
    rw [hjob, Option.getD_some] at hempty
    have hrecurring := @lower_recurring env
    subst hempty
    unfold isOneShot strField at hmode
    simp [PyVal.toStr, hrecurring] at hmode
  · split at hanswer
    · simp at hanswer
    · rename_i store hupdate
      obtain ⟨rfl, -⟩ := Prod.mk.inj hanswer
      have hstore : store = (scheduler env policy st.store (now, .update cronJobId payload)).1 := by
        unfold scheduler
        dsimp only
        rw [hupdate]
        rfl
      have hidentified : Identified env store.jobs := hstore ▸
        @identified_stored env policy (.call none (.update cronJobId payload)) _ now st.store hid rfl
          (fun jobId hcreates => by obtain ⟨saveError, fields, hop⟩ := hcreates; simp at hop)
      have harmed : Armed env runAt (isConsumed env job) (· = true) job :=
        ⟨hmode, htime, rfl, henabled⟩
      refine ⟨isConsumed env job, ⟨hidentified, ⟨job, hjob, harmed⟩, job, ?_, harmed⟩, ?_⟩
      · change get? (loadJobs env (store.jobs.map Prod.snd)) _ = _
        rw [loadJobs_of_identified hidentified]
        exact hjob
      · constructor
        · intro hconsumed
          have hmarked : Marked env (scheduler env policy st.store
              (now, .update cronJobId payload)).1.jobs (strip cronJobId) :=
            ⟨job, hstore ▸ hjob, hconsumed⟩
          exact marked_of_stored env policy now st.store (strip cronJobId)
            (show SchedulerOp.cronOp? (.call none (.update cronJobId payload)) = _ from rfl)
            (fun item (hitem : item ∈ []) => absurd hitem List.not_mem_nil) hmarked
        · rintro ⟨before, hbefore, hconsumed⟩
          have hsource := @jobSource env policy st.store (now, .update cronJobId payload) _ _ (hstore ▸ hjob)
          cases hsource with
          | same _ hsame =>
            obtain rfl := Option.some.inj (hbefore.symm.trans hsame)
            exact hconsumed
          | kept _ _ hother _ _ => simp [CronOp.takesFields] at hother
          | created fields normalized hcreate _ _ => exact absurd hcreate (by simp)
          | updated updatedId fields current normalized hupdated _ hcurrent _ hnormalized _ =>
            obtain rfl := Option.some.inj (hbefore.symm.trans hcurrent)
            exact (isConsumed_updated (normalizes_of_ok hnormalized)).trans hconsumed

/-- A run of operations that leave the job alone. -/
lemma staysArmed_run (h : StaysArmed env jobId runAt consumed A st)
    {ops : List (DateTime × SchedulerOp)}
    (hops : ∀ op ∈ ops, LeavesAlone jobId runAt op ∧ op.2.NamesJobs)
    (hoff : (autonomyCronScheduler env policy).Always
      (fun st op => EndsRun jobId st op → A false) st ops) :
    StaysArmed env jobId runAt consumed A ((autonomyCronScheduler env policy).after st ops) ∧
      ∀ item, .enqueued item ∈ (autonomyCronScheduler env policy).events st ops →
        item.cronJobId ≠ jobId := by
  refine System.events_invariant (I := fun events st => StaysArmed env jobId runAt consumed A st ∧
      ∀ item, .enqueued item ∈ events → item.cronJobId ≠ jobId)
    (fun events st op hkept hop => ?_) ((System.always_of_mem hops).and hoff) ⟨h, by simp⟩
  obtain ⟨harmed, hnone⟩ := staysArmed_step hkept.1 (runStep env policy st op) hop.1.1 hop.1.2 hop.2
  refine ⟨harmed, fun item hitem => ?_⟩
  rcases List.mem_append.mp hitem with hitem | hitem
  · exact hkept.2 item hitem
  · exact hnone item hitem

/-- The tick at the job's time puts a run of it into the queue if the job is enabled and was not
consumed. -/
lemma runsOf_tick {now : DateTime} {saveError : Option String} {runIds : String → String}
    (h : StaysArmed env jobId runAt consumed A st) (hdue : runAt.ticks ≤ now.ticks)
    (hroom : HasCapacity env now runIds jobId st.store) :
    (runsOf jobId (tick env now saveError runIds st).2).length = 1 ↔
      consumed = false ∧ ∃ job, get? st.store.jobs jobId = some job ∧ isEnabled job = true := by
  obtain ⟨job, hjob, harmed⟩ := h.store
  have hfinding := tickFinding_of_armed harmed now
  have henabled : (∃ job, get? st.store.jobs jobId = some job ∧ isEnabled job = true) ↔
      isEnabled job = true := by
    constructor
    · rintro ⟨_, hsame, htrue⟩
      obtain rfl := Option.some.inj (hjob.symm.trans hsame)
      exact htrue
    · exact fun htrue => ⟨job, hjob, htrue⟩
  have htick : (tick env now saveError runIds st).2 =
      (tickJobs env now runIds (keys st.store.jobs) st.store).2 := rfl
  rw [htick, henabled]
  by_cases hfires : isEnabled job = true ∧ consumed = false
  · rw [if_pos ⟨hfires.1, hfires.2, hdue⟩] at hfinding
    have hmem : jobId ∈ keys st.store.jobs := mem_keys_iff.mpr (by simp [hjob])
    have hone := runsOf_tickJobs_of_due hfinding runIds h.identified.nodup hmem hjob hroom
    exact ⟨fun _ => ⟨hfires.2, hfires.1⟩, fun _ => hone⟩
  · rw [if_neg fun hall => hfires ⟨hall.1, hall.2.1⟩] at hfinding
    have hnone := runsOf_eq_nil (tickJobs_of_idle hfinding runIds (keys st.store.jobs) hjob).2
    rw [hnone]
    exact ⟨fun hlength => by simp at hlength, fun hall => absurd ⟨hall.2, hall.1⟩ hfires⟩

/-- No operation puts a run of the job into the queue, and the tick after them puts in one. -/
structure FiresOnce (env : CronRuntime) (policy : Policy) (jobId : String) (st : SchedulerState)
    (ops : List (DateTime × SchedulerOp)) (tickAt : DateTime) (saveError : Option String)
    (runIds : String → String) : Prop where
  notEarlier : ∀ item, .enqueued item ∈ (autonomyCronScheduler env policy).events st ops →
    item.cronJobId ≠ jobId
  once : (runsOf jobId (tick env tickAt saveError runIds
    ((autonomyCronScheduler env policy).after st ops)).2).length = 1

/-- Whatever the scheduler has done before an update that re-arms a one-shot job, and whatever
calls on other jobs, earlier ticks, workers and restarts come after it: the first tick at the
job's time that has room for it puts exactly one run of it into the queue, and no operation
before does, if and only if the job was not marked as consumed when it was updated and is still
enabled when the tick comes.  It is enabled unless a worker has ended an older run of it. -/
theorem rearmed_fires_iff (env : CronRuntime) (policy : Policy) (workers : ℕ)
    (before ops : List (DateTime × SchedulerOp)) (now tickAt runAt : DateTime)
    (cronJobId : String) (payload : PyDict) (st₁ : SchedulerState) (saveError : Option String)
    (runIds : String → String) (hbefore : ∀ op ∈ before, op.2.NamesJobs)
    (hrearms : ReArms env policy now cronJobId payload runAt
      ((autonomyCronScheduler env policy).after (.start workers) before) st₁)
    (hops : ∀ op ∈ ops, LeavesAlone (strip cronJobId) runAt op ∧ op.2.NamesJobs)
    (hdue : runAt.ticks ≤ tickAt.ticks)
    (hroom : HasCapacity env tickAt runIds (strip cronJobId)
      ((autonomyCronScheduler env policy).after st₁ ops).store) :
    (FiresOnce env policy (strip cronJobId) st₁ ops tickAt saveError runIds ↔
      ¬ Marked env ((autonomyCronScheduler env policy).after (.start workers) before).store.jobs
          (strip cronJobId) ∧
        ∃ job, get? ((autonomyCronScheduler env policy).after st₁ ops).store.jobs
          (strip cronJobId) = some job ∧ isEnabled job = true) ∧
      ((autonomyCronScheduler env policy).Always
          (fun st op => ¬ EndsRun (strip cronJobId) st op) st₁ ops →
        ∃ job, get? ((autonomyCronScheduler env policy).after st₁ ops).store.jobs
          (strip cronJobId) = some job ∧ isEnabled job = true) := by
  obtain ⟨consumed, harmed, hconsumed⟩ :=
    staysArmed_of_reArms (identified_after env policy workers hbefore) hrearms
  have hany : StaysArmed env (strip cronJobId) runAt consumed (fun _ => True) st₁ := by
    obtain ⟨job, hjob, h⟩ := harmed.store
    obtain ⟨saved, hsaved, h'⟩ := harmed.file
    exact ⟨harmed.identified, ⟨job, hjob, h.mode, h.time, h.mark, trivial⟩,
      ⟨saved, hsaved, h'.mode, h'.time, h'.mark, trivial⟩⟩
  obtain ⟨hlast, hnone⟩ := @staysArmed_run env policy _ _ _ _ st₁ hany ops hops
    (System.always_of_forall fun st op _ => trivial)
  refine ⟨?_, fun hkept => ?_⟩
  · have hfires := @runsOf_tick env _ _ _ _ _ _ saveError _ hlast hdue hroom
    rw [← hconsumed, Bool.not_eq_true]
    exact ⟨fun h => hfires.mp h.once, fun h => ⟨hnone, hfires.mpr h⟩⟩
  · have hoff : (autonomyCronScheduler env policy).Always
        (fun st op => EndsRun (strip cronJobId) st op → false = true) st₁ ops := by
      simpa only [Bool.false_eq_true] using hkept
    obtain ⟨job, hjob, h⟩ := (staysArmed_run harmed hops hoff).1.store
    exact ⟨job, hjob, h.enabled⟩

/-! ### Two updates -/

/-- The time the job is given. -/
def nextDay : DateTime := ⟨2030, 1, 2, 0, 0, 0, 0, by decide⟩

/-- The job is given the next day, and enabled. -/
def rearmPayload : PyDict :=
  [("run_at", .str "2030-01-02T00:00:00+00:00"), ("enabled", .bool true)]

/-- The job is updated after the operations. -/
def rearmedAfter (now : DateTime) (before : List (DateTime × SchedulerOp)) : SchedulerState :=
  (clientCall .ascii .default now none
    ((autonomyCronScheduler .ascii .default).after (.start 1) before)
    (.update "job" rearmPayload)).1

/-- The update answers, enables the job and gives it the next day. -/
def IsRearmed (now : DateTime) (before : List (DateTime × SchedulerOp)) : Prop :=
  (clientCall .ascii .default now none
    ((autonomyCronScheduler .ascii .default).after (.start 1) before)
    (.update "job" rearmPayload)).2.1 = [] ∧
  (clientCall .ascii .default now none
    ((autonomyCronScheduler .ascii .default).after (.start 1) before)
    (.update "job" rearmPayload)).2.2.toBool = true ∧
  (get? (rearmedAfter now before).store.jobs (strip "job")).map (fun job =>
    (isOneShot .ascii job, isEnabled job,
      parseIsoDatetime .ascii (strField .ascii job "run_at" ""))) = some (true, true, some nextDay)

instance (now : DateTime) (before : List (DateTime × SchedulerOp)) :
    Decidable (IsRearmed now before) := inferInstanceAs (Decidable (_ ∧ _ ∧ _))

private lemma reArms_rearmedAfter {now : DateTime} {before : List (DateTime × SchedulerOp)}
    (h : IsRearmed now before) :
    ReArms .ascii .default now "job" rearmPayload nextDay
      ((autonomyCronScheduler .ascii .default).after (.start 1) before)
      (rearmedAfter now before) := by
  obtain ⟨hanswer, hok, hjob⟩ := h
  constructor
  case answer =>
    unfold rearmedAfter
    revert hanswer hok
    generalize clientCall .ascii .default now none
      ((autonomyCronScheduler .ascii .default).after (.start 1) before)
      (.update "job" rearmPayload) = called
    obtain ⟨st₁, items, result⟩ := called
    rintro rfl hok
    cases result with
    | ok u => rfl
    | error error => simp [Except.toBool] at hok
  case stored =>
    obtain ⟨job, hjob, hfields⟩ := Option.map_eq_some_iff.mp hjob
    obtain ⟨hmode, hfields⟩ := Prod.mk.inj hfields
    obtain ⟨henabled, htime⟩ := Prod.mk.inj hfields
    exact ⟨job, hjob, hmode, henabled, htime⟩

/-- The only identifier these runs create is one that `load` leaves as it is. -/
private lemma namesJobs_created : SchedulerOp.NamesJobs
    (.call none (.create "job" (oneShotPayload ""))) := by
  rintro jobId ⟨saveError, payload, hop⟩
  obtain ⟨-, hcall⟩ := SchedulerOp.call.inj hop
  obtain ⟨rfl, -⟩ := ClientCall.create.inj hcall
  decide +kernel

private lemma namesJobs_tick (runIds : String → String) :
    SchedulerOp.NamesJobs (.tick none runIds) := by
  rintro jobId ⟨saveError, payload, hop⟩
  exact SchedulerOp.noConfusion hop

/-- A job that was not consumed: the tick before its new time does nothing, the next one puts
its run into the queue. -/
theorem rearmed_fires_unconsumed :
    FiresOnce .ascii .default (strip "job") (rearmedAfter noon (dueRun.take 1))
      [(newYear, .tick none fun _ => "early")] nextDay none (fun _ => "run") := by
  have hvalues : IsRearmed noon (dueRun.take 1) ∧
      HasCapacity .ascii nextDay (fun _ => "run") (strip "job")
        ((autonomyCronScheduler .ascii .default).after (rearmedAfter noon (dueRun.take 1))
          [(newYear, .tick none fun _ => "early")]).store ∧
      (get? ((autonomyCronScheduler .ascii .default).after (.start 1)
        (dueRun.take 1)).store.jobs (strip "job")).map (isConsumed .ascii) = some false ∧
      (get? ((autonomyCronScheduler .ascii .default).after
        (rearmedAfter noon (dueRun.take 1)) [(newYear, .tick none fun _ => "early")]).store.jobs
          (strip "job")).map isEnabled = some true := by decide +kernel
  obtain ⟨hrearmed, hroom, hunmarked, henabled⟩ := hvalues
  refine (rearmed_fires_iff .ascii .default 1 (dueRun.take 1)
    [(newYear, .tick none fun _ => "early")] noon nextDay nextDay "job" rearmPayload
    (rearmedAfter noon (dueRun.take 1)) none (fun _ => "run") ?_
    (reArms_rearmedAfter hrearmed) ?_ le_rfl
    hroom).1.mpr ⟨?_, ?_⟩
  · intro op hop
    obtain rfl := List.mem_singleton.mp hop
    exact namesJobs_created
  · intro op hop
    obtain rfl := List.mem_singleton.mp hop
    exact ⟨show newYear.ticks < nextDay.ticks by decide +kernel, namesJobs_tick _⟩
  · rintro ⟨job, hjob, hconsumed⟩
    simp [hjob, hconsumed] at hunmarked
  · exact Option.map_eq_some_iff.mp henabled

/-- A consumed job: the update answers, enables the job and gives it the next day, and the tick of
the next day does nothing. -/
theorem not_rearmed_fires :
    (ReArms .ascii .default newYear "job" rearmPayload nextDay
        ((autonomyCronScheduler .ascii .default).after (.start 1) dueRun)
        (rearmedAfter newYear dueRun) ∧
      newYear.ticks < nextDay.ticks ∧
      HasCapacity .ascii nextDay (fun _ => "run") (strip "job") (rearmedAfter newYear dueRun).store) ∧
    ¬ FiresOnce .ascii .default (strip "job") (rearmedAfter newYear dueRun) [] nextDay none
      (fun _ => "run") := by
  have hvalues : IsRearmed newYear dueRun ∧
      HasCapacity .ascii nextDay (fun _ => "run") (strip "job")
        (rearmedAfter newYear dueRun).store ∧
      (runsOf (strip "job") (tick .ascii nextDay none (fun _ => "run")
        (rearmedAfter newYear dueRun)).2).length = 0 := by decide +kernel
  obtain ⟨hrearmed, hroom, hnone⟩ := hvalues
  refine ⟨⟨reArms_rearmedAfter hrearmed, by decide +kernel, hroom⟩, fun hfires => ?_⟩
  have hone := hfires.once
  rw [System.after_nil, hnone] at hone
  exact absurd hone (by decide)

end Trion.Cron
