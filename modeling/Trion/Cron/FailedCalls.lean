import Trion.Cron.RunSteps
import Trion.Cron.WellFormed

/-!
# Calls that raise

A call that raises in its checks has changed nothing.  A call whose save raises has changed the
store before, and the change stays: the call leaves no trace only where there was nothing to
change.
-/

namespace Trion.Cron

open Trion.Python OrderedDict OperationRun

variable {env : CronRuntime} {policy : Policy}

/-- The jobs, the pending list, the queue and the state file are as they were. -/
structure LeavesNoTrace (st st' : SchedulerState) : Prop where
  jobs : st'.store.jobs = st.store.jobs
  pending : st'.store.pending = st.store.pending
  queue : st'.store.queue = st.store.queue
  file : st'.file = st.file

variable (env policy) in
/-- The call is rejected by its checks, or it is an update that leaves the job as it is. -/
def FailsSafely (now : DateTime) (s : CronJobStore) : ClientCall → Prop
  | .create _ payload => ∀ normalized, normalizeJobPayload env payload none now = .ok normalized →
      enforceJobPolicy env policy s.jobs normalized none "" ≠ .ok ()
  | .update cronJobId payload => ∀ current normalized,
      get? s.jobs (strip cronJobId) = some current →
      normalizeJobPayload env payload (some current) now = .ok normalized →
      enforceJobPolicy env policy s.jobs normalized (some current) (strip cronJobId) = .ok () →
      merge current (insert normalized "updated_at" (.str (iso now))) = current
  | .delete _ => False
  | .runNow cronJobId reason _ =>
      checkEnqueuePolicy env (strip cronJobId) (orElse reason "manual") now s.pending s.running
        s.jobs policy.maxPendingRuns policy.maxPendingRunsPerJob policy.manualRunCooldownS ≠ none

lemma nodup_loadJobs (env : CronRuntime) (jobs : List Job) : (keys (loadJobs env jobs)).Nodup := by
  suffices hfold : ∀ loaded : List (String × Job), (keys loaded).Nodup →
      (keys (jobs.foldl (fun loaded job =>
        let jobId := strip (((get? job "id").getD .none).strOr env.toPyRuntime "")
        if jobId = "" then loaded else insert loaded jobId job) loaded)).Nodup from
    hfold [] List.nodup_nil
  induction jobs with
  | nil => exact fun _ h => h
  | cons job jobs ih =>
    intro loaded h
    rw [List.foldl_cons]
    refine ih _ ?_
    dsimp only
    split
    · exact h
    · exact nodup_keys_insert h

lemma RunStep.nodup_jobs {st st' : SchedulerState} {op : DateTime × SchedulerOp}
    {happened : List RunEvent} (hstep : RunStep env policy st op st' happened)
    (h : (keys st.store.jobs).Nodup) : (keys st'.store.jobs).Nodup := by
  cases hstep with
  | stored cronOp file hcronOp hfile => exact nodup_keys_step env policy h (op.1, cronOp)
  | started w item saveError file => exact (keys_startRun op.1 item st.store).symm ▸ h
  | finished w item startedAt outcome saveError file =>
    exact (keys_finishRun env op.1 item outcome st.store).symm ▸ h
  | restarted hrestart => exact nodup_loadJobs env st.file.jobs
  | idle => exact h
  | taken => exact h
  | looked => exact h
  | replied => exact h

/-- The identifiers of the jobs stay distinct, whatever is done. -/
lemma nodup_jobs_after (env : CronRuntime) (policy : Policy) (workers : ℕ)
    (ops : List (DateTime × SchedulerOp)) :
    (keys ((autonomyCronScheduler env policy).after (.start workers) ops).store.jobs).Nodup := by
  have hall : (autonomyCronScheduler env policy).Always (fun _ _ => True) (.start workers) ops :=
    System.always_of_forall fun _ _ => trivial
  have hempty : (keys (SchedulerState.start workers).store.jobs).Nodup := List.nodup_nil
  refine System.invariant (I := fun st => (keys st.store.jobs).Nodup) ?_ hall hempty
  exact fun st op h _ => (runStep env policy st op).nodup_jobs h

/-- What passes the checks is created. -/
lemma createJob_eq_ok {payload : PyDict} {now : DateTime} {s : CronJobStore} {normalized : Job}
    (jobId : String) (hnormalized : normalizeJobPayload env payload none now = .ok normalized)
    (henforce : enforceJobPolicy env policy s.jobs normalized none "" = .ok ()) :
    createJob env policy jobId payload now s =
      .ok { s with jobs := insert s.jobs jobId (newJob jobId normalized now) } := by
  unfold createJob
  rw [hnormalized, bind_ok, henforce, bind_ok]
  rfl

/-- What passes the checks is updated. -/
lemma updateJob_eq_ok {cronJobId : String} {payload : PyDict} {now : DateTime} {s : CronJobStore}
    {current normalized : Job} (hcurrent : get? s.jobs (strip cronJobId) = some current)
    (hne : current ≠ [])
    (hnormalized : normalizeJobPayload env payload (some current) now = .ok normalized)
    (henforce : enforceJobPolicy env policy s.jobs normalized (some current)
      (strip cronJobId) = .ok ()) :
    updateJob env policy cronJobId payload now s =
      .ok { s with
        jobs := insert s.jobs (strip cronJobId)
          (merge current (insert normalized "updated_at" (.str (iso now)))) } := by
  unfold updateJob
  dsimp only
  rw [hcurrent]
  dsimp only
  rw [if_neg hne, hnormalized, bind_ok, henforce, bind_ok]
  rfl

/-- A save that raises leaves the state with the change. -/
lemma saveAndReturn_raises {saveError : Option String} {items : List RunItem}
    {st : SchedulerState} {error : CallError}
    (h : (saveAndReturn saveError items st).2.2 = .error error) :
    (saveAndReturn saveError items st).1 = st := by
  cases saveError with
  | none => simp [saveAndReturn] at h
  | some text => rfl

lemma LeavesNoTrace.refl (st : SchedulerState) : LeavesNoTrace st st := ⟨rfl, rfl, rfl, rfl⟩

section Calls

variable {st : SchedulerState} {now : DateTime} {saveError : Option String} {error : CallError}

/-- A job that a call finds is in the table and is not empty. -/
lemma exists_current {key : String} (h : (get? st.store.jobs key).getD [] ≠ []) :
    ∃ current, get? st.store.jobs key = some current ∧ current ≠ [] := by
  cases hget : get? st.store.jobs key with
  | none => simp [hget] at h
  | some current => exact ⟨current, rfl, by simpa [hget] using h⟩

lemma create_leavesNoTrace_iff {jobId : String} {payload : PyDict}
    (hnew : has st.store.jobs jobId = false)
    (h : (clientCall env policy now saveError st (.create jobId payload)).2.2 = .error error) :
    LeavesNoTrace st (clientCall env policy now saveError st (.create jobId payload)).1 ↔
      FailsSafely env policy now st.store (.create jobId payload) := by
  unfold clientCall at h ⊢
  dsimp only at h ⊢
  cases hcreate : createJob env policy jobId payload now st.store with
  | error _ =>
    dsimp only
    refine iff_of_true (.refl st) fun normalized hnormalized henforce => ?_
    rw [createJob_eq_ok jobId hnormalized henforce] at hcreate
    cases hcreate
  | ok store =>
    rw [hcreate] at h
    dsimp only at h ⊢
    rw [saveAndReturn_raises h]
    unfold createJob at hcreate
    obtain ⟨normalized, hnormalized, hcreate⟩ := ok_of_bind hcreate
    obtain ⟨⟨⟩, henforce, hcreate⟩ := ok_of_bind hcreate
    obtain rfl := Except.ok.inj hcreate
    refine iff_of_false (fun htrace => ?_) fun hsafe => hsafe normalized hnormalized henforce
    have hget : get? (insert st.store.jobs jobId (newJob jobId normalized now)) jobId =
        some (newJob jobId normalized now) := get?_insert_self
    have hjobs := htrace.jobs
    dsimp only at hjobs
    rw [hjobs, has_eq_false_iff.mp hnew] at hget
    cases hget

lemma update_leavesNoTrace_iff {cronJobId : String} {payload : PyDict}
    (hnodup : (keys st.store.jobs).Nodup)
    (h : (clientCall env policy now saveError st (.update cronJobId payload)).2.2 =
      .error error) :
    LeavesNoTrace st (clientCall env policy now saveError st (.update cronJobId payload)).1 ↔
      FailsSafely env policy now st.store (.update cronJobId payload) := by
  unfold clientCall at h ⊢
  dsimp only at h ⊢
  split at h
  · cases h
  · rename_i hjob
    rw [if_neg hjob]
    obtain ⟨current, hcurrent, hne⟩ := exists_current hjob
    cases hupdate : updateJob env policy cronJobId payload now st.store with
    | error _ =>
      dsimp only
      refine iff_of_true (.refl st) fun current' normalized hget hnormalized henforce => ?_
      obtain rfl : current = current' := Option.some.inj (hcurrent.symm.trans hget)
      rw [updateJob_eq_ok hcurrent hne hnormalized henforce] at hupdate
      cases hupdate
    | ok store =>
      rw [hupdate] at h
      dsimp only at h ⊢
      rw [saveAndReturn_raises h]
      unfold updateJob at hupdate
      dsimp only at hupdate
      rw [hcurrent] at hupdate
      dsimp only at hupdate
      rw [if_neg hne] at hupdate
      obtain ⟨normalized, hnormalized, hupdate⟩ := ok_of_bind hupdate
      obtain ⟨⟨⟩, henforce, hupdate⟩ := ok_of_bind hupdate
      obtain rfl := Except.ok.inj hupdate
      constructor
      · intro htrace current' normalized' hget hnormalized' _
        obtain rfl : current = current' := Option.some.inj (hcurrent.symm.trans hget)
        obtain rfl : normalized = normalized' := Except.ok.inj (hnormalized.symm.trans hnormalized')
        have hwritten : get? (insert st.store.jobs (strip cronJobId) (merge current
            (insert normalized "updated_at" (.str (iso now))))) (strip cronJobId) = some (merge
              current (insert normalized "updated_at" (.str (iso now)))) := get?_insert_self
        have hjobs := htrace.jobs
        dsimp only at hjobs
        rw [hjobs, hcurrent] at hwritten
        exact (Option.some.inj hwritten).symm
      · intro hsafe
        refine ⟨?_, rfl, rfl, rfl⟩
        dsimp only
        rw [hsafe current normalized hcurrent hnormalized henforce]
        exact insert_eq_self hnodup hcurrent

lemma delete_leavesNoTrace_iff {cronJobId : String}
    (h : (clientCall env policy now saveError st (.delete cronJobId)).2.2 = .error error) :
    LeavesNoTrace st (clientCall env policy now saveError st (.delete cronJobId)).1 ↔
      FailsSafely env policy now st.store (.delete cronJobId) := by
  unfold clientCall at h ⊢
  dsimp only at h ⊢
  split at h
  · rename_i hhas
    rw [if_pos hhas, saveAndReturn_raises h]
    refine iff_of_false (fun htrace => ?_) id
    have hget : get? (deleteJob cronJobId st.store).jobs (strip cronJobId) = none :=
      (get?_erase ..).trans (if_pos rfl)
    have hjobs := htrace.jobs
    dsimp only at hjobs
    rw [hjobs, ← has_eq_false_iff, hhas] at hget
    cases hget
  · cases h

lemma runNow_leavesNoTrace_iff {cronJobId reason runId : String}
    (h : (clientCall env policy now saveError st (.runNow cronJobId reason runId)).2.2 =
      .error error) :
    LeavesNoTrace st (clientCall env policy now saveError st (.runNow cronJobId reason runId)).1 ↔
      FailsSafely env policy now st.store (.runNow cronJobId reason runId) := by
  unfold clientCall at h ⊢
  dsimp only at h ⊢
  split at h
  · cases h
  · rename_i hjob
    rw [if_neg hjob]
    obtain ⟨current, hcurrent, hne⟩ := exists_current hjob
    unfold FailsSafely
    unfold runNow at h ⊢
    dsimp only at h ⊢
    rw [hcurrent] at h ⊢
    dsimp only at h ⊢
    rw [if_neg hne] at h ⊢
    cases hcheck : checkEnqueuePolicy env (strip cronJobId) (orElse reason "manual") now
        st.store.pending st.store.running st.store.jobs policy.maxPendingRuns
        policy.maxPendingRunsPerJob policy.manualRunCooldownS with
    | some _ => exact iff_of_true (.refl st) (Option.some_ne_none _)
    | none =>
      rw [hcheck] at h
      dsimp only at h ⊢
      rw [saveAndReturn_raises h]
      refine iff_of_false (fun htrace => ?_) fun hne => hne rfl
      have hpending := congrArg List.length htrace.pending
      simp [CronJobStore.enqueue, CronJobStore.modifyJob] at hpending

end Calls

/-- A call that raises leaves no trace if and only if its checks reject it, or it is an update
that leaves the job as it is; in every reachable state, whether the save raises or not. -/
theorem failed_call_iff (env : CronRuntime) (policy : Policy) (workers : ℕ)
    (ops : List (DateTime × SchedulerOp)) (now : DateTime) (saveError : Option String)
    (call : ClientCall) (error : CallError) (st : SchedulerState)
    (hst : st = (autonomyCronScheduler env policy).after (.start workers) ops)
    (hnew : ∀ jobId payload, call = .create jobId payload → has st.store.jobs jobId = false)
    (hraises : (clientCall env policy now saveError st call).2.2 = .error error) :
    LeavesNoTrace st (clientCall env policy now saveError st call).1 ↔
      FailsSafely env policy now st.store call := by
  have hnodup : (keys st.store.jobs).Nodup := hst ▸ nodup_jobs_after env policy workers ops
  cases call with
  | create jobId payload => exact create_leavesNoTrace_iff (hnew jobId payload rfl) hraises
  | update cronJobId payload => exact update_leavesNoTrace_iff hnodup hraises
  | delete cronJobId => exact delete_leavesNoTrace_iff hraises
  | runNow cronJobId reason runId => exact runNow_leavesNoTrace_iff hraises

/-- A job without a name is refused, and nothing is left of it. -/
theorem failed_call_iff_nameless :
    LeavesNoTrace (.start 1) (clientCall .ascii .default noon none (.start 1)
        (.create "job" [])).1 ↔
      FailsSafely .ascii .default noon (SchedulerState.start 1).store (.create "job" []) := by
  have hraises : (clientCall .ascii .default noon none (.start 1) (.create "job" [])).2.2 =
      .error (.cron (.python (.valueError "name is required"))) := rfl
  exact failed_call_iff .ascii .default 1 [] noon none (.create "job" []) _ (.start 1) rfl
    (fun _ _ _ => rfl) hraises

/-- The state file cannot be written: the job is refused and yet it is there. -/
theorem failed_create_leaves_job :
    ∃ error, (clientCall .ascii .default noon (some "disk full") (.start 1)
        (.create "job" (oneShotPayload ""))).2.2 = .error error ∧
      ¬ LeavesNoTrace (.start 1) (clientCall .ascii .default noon (some "disk full") (.start 1)
        (.create "job" (oneShotPayload ""))).1 := by
  have hjob : (createJob .ascii .default "job" (oneShotPayload "") noon {}).toOption.map
      (fun s => has s.jobs "job") = some true := by decide +kernel
  unfold clientCall
  dsimp only [SchedulerState.start]
  cases hcreate : createJob .ascii .default "job" (oneShotPayload "") noon {} with
  | error _ =>
    rw [hcreate] at hjob
    cases hjob
  | ok store =>
    rw [hcreate] at hjob
    refine ⟨.save "disk full", rfl, fun htrace => ?_⟩
    have hjobs : store.jobs = [] := htrace.jobs
    have hhas : has store.jobs "job" = true := Option.some.inj hjob
    rw [hjobs] at hhas
    cases hhas

end Trion.Cron
