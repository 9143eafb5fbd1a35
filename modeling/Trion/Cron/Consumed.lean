import Trion.Cron.FailedCalls
import Trion.Cron.OncePerMinute

/-!
# Consumed jobs

The mark of a consumed job is its trigger key.  Only the run that is put into the queue marks
its job.  The mark is saved with the job, and as every job stands under the identifier it
holds, `load` reads back what `save` has written.
-/

namespace Trion.Cron

open Trion.Python OrderedDict OperationRun

variable {env : CronRuntime} {policy : Policy}

/-! ### The mark -/

/-- The job is marked as consumed. -/
def isConsumed (env : CronRuntime) (job : Job) : Bool :=
  startsWith (strField env job "last_trigger_key" "") "one_shot:"

/-- A job that is there is marked as consumed. -/
def Marked (env : CronRuntime) (jobs : List (String × Job)) (jobId : String) : Prop :=
  ∃ job, get? jobs jobId = some job ∧ isConsumed env job = true

lemma SameTrigger.isConsumed_eq {job job' : Job} (h : SameTrigger env job job') :
    isConsumed env job' = isConsumed env job := by
  unfold isConsumed
  rw [h.key]

/-- No mark comes where the job keeps its trigger key. -/
lemma KeepsTrigger.marked {jobId : String} {s s' : CronJobStore}
    (h : KeepsTrigger env jobId s s') (hmarked : Marked env s'.jobs jobId) :
    Marked env s.jobs jobId := by
  obtain ⟨job', hjob', hconsumed⟩ := hmarked
  obtain ⟨job, hjob, hsame⟩ := h job' hjob'
  exact ⟨job, hjob, hsame.isConsumed_eq ▸ hconsumed⟩

lemma keepsTrigger_startRun (env : CronRuntime) (now : DateTime) (item : RunItem)
    (s : CronJobStore) (jobId : String) : KeepsTrigger env jobId s (startRun now item s) := by
  have hwrite : ∀ job, SameTrigger env job (if job = [] then job
      else setFields job [("last_run_at", iso now), ("last_status", "dispatching")]) := by
    intro job
    split
    · exact .refl job
    · exact sameTrigger_setFields (by simp) job
  exact keepsTrigger_modify rfl hwrite

lemma keepsTrigger_finishRun (env : CronRuntime) (now : DateTime) (item : RunItem)
    (outcome : DispatchEnd) (s : CronJobStore) (jobId : String) :
    KeepsTrigger env jobId s (finishRun env now item outcome s) := by
  have hwrite : ∀ job, SameTrigger env job
      (if job = [] then job else endDispatchFields env now outcome job) := by
    intro job
    split
    · exact .refl job
    · exact sameTrigger_endDispatchFields now outcome job
  exact keepsTrigger_modify rfl hwrite

/-- Only the run that is put into the queue marks its job. -/
lemma keepsTrigger_tickJob (env : CronRuntime) (now : DateTime) (s : CronJobStore)
    (id runId jobId : String)
    (hnone : ∀ item ∈ (tickJob env now s id runId).2, item.cronJobId ≠ jobId) :
    KeepsTrigger env jobId s (tickJob env now s id runId).1 := by
  unfold tickJob at hnone ⊢
  split at hnone
  · exact .refl s
  · split at hnone
    · exact .refl s
    · exact keepsTrigger_modify rfl fun job => sameTrigger_setFields (by simp) job
    · split at hnone
      · exact keepsTrigger_modify rfl fun job => sameTrigger_setFields (by simp) job
      · have hne : id ≠ jobId := hnone _ List.mem_cons_self
        exact keepsTrigger_of_get? (get?_modifyJob_of_ne hne _)

lemma keepsTrigger_trans {jobId : String} {s₁ s₂ s₃ : CronJobStore}
    (h : KeepsTrigger env jobId s₁ s₂) (h' : KeepsTrigger env jobId s₂ s₃) :
    KeepsTrigger env jobId s₁ s₃ := by
  intro job₃ hjob₃
  obtain ⟨job₂, hjob₂, hsame'⟩ := h' job₃ hjob₃
  obtain ⟨job₁, hjob₁, hsame⟩ := h job₂ hjob₂
  exact ⟨job₁, hjob₁, hsame'.mode.trans hsame.mode, hsame'.key.trans hsame.key⟩

lemma keepsTrigger_tickJobs (env : CronRuntime) (now : DateTime) (runIds : String → String)
    (ids : List String) (s : CronJobStore) (jobId : String)
    (hnone : ∀ item ∈ (tickJobs env now runIds ids s).2, item.cronJobId ≠ jobId) :
    KeepsTrigger env jobId s (tickJobs env now runIds ids s).1 := by
  induction ids generalizing s with
  | nil => exact .refl s
  | cons id ids ih =>
    have hfirst := keepsTrigger_tickJob env now s id (runIds id) jobId fun item hitem =>
      hnone item (List.mem_append_left _ hitem)
    have hrest := ih (tickJob env now s id (runIds id)).1 fun item hitem =>
      hnone item (List.mem_append_right _ hitem)
    exact keepsTrigger_trans hfirst hrest

/-- An update leaves the mark as it is. -/
lemma isConsumed_updated {payload : PyDict} {current normalized : Job} {now : DateTime}
    (hn : Normalizes env payload (some current) now normalized) :
    isConsumed env (merge current (insert normalized "updated_at" (.str (iso now)))) =
      isConsumed env current := by
  unfold isConsumed strField
  rw [get?_updated current normalized now (by decide), hn.other _ (by decide)]
  simp

/-- A call or a tick that puts no run of the job into the queue does not mark it. -/
lemma marked_of_stored (env : CronRuntime) (policy : Policy) (now : DateTime) (s : CronJobStore)
    (jobId : String) {op : SchedulerOp} {cronOp : CronOp} (hop : op.cronOp? = some cronOp)
    (hnone : ∀ item ∈ (scheduler env policy s (now, cronOp)).2, item.cronJobId ≠ jobId)
    (hmarked : Marked env (scheduler env policy s (now, cronOp)).1.jobs jobId) :
    Marked env s.jobs jobId := by
  cases hfields : cronOp.takesFields with
  | true =>
    obtain ⟨job', hjob', hconsumed⟩ := hmarked
    cases jobSource hjob' with
    | same _ hjob => exact ⟨job', hjob, hconsumed⟩
    | kept _ _ hother _ _ => simp [hfields] at hother
    | created payload normalized _ _ _ =>
      have hkey : get? (newJob jobId normalized now) "last_trigger_key" = some (.str "") := by
        unfold newJob
        rw [get?_merge]
        rfl
      have hblank : startsWith "" "one_shot:" = false := by decide
      unfold isConsumed strField at hconsumed
      rw [hkey] at hconsumed
      exact absurd (hblank.symm.trans hconsumed) (by decide)
    | updated cronJobId payload current normalized _ _ hcurrent _ hnormalized _ =>
      exact ⟨current, hcurrent, isConsumed_updated (normalizes_of_ok hnormalized) ▸ hconsumed⟩
  | false =>
    cases op with
    | tick saveError runIds =>
      obtain rfl := Option.some.inj hop
      exact (keepsTrigger_tickJobs env now runIds _ s jobId hnone).marked hmarked
    | call saveError call =>
      obtain rfl := Option.some.inj hop
      cases call with
      | create newId payload => simp [ClientCall.cronOp, CronOp.takesFields] at hfields
      | update cronJobId payload => simp [ClientCall.cronOp, CronOp.takesFields] at hfields
      | delete cronJobId => exact (keepsTrigger_deleteJob cronJobId s).marked hmarked
      | runNow cronJobId reason runId =>
        unfold scheduler ClientCall.cronOp at hnone hmarked
        dsimp only at hnone hmarked
        cases hrun : runNow env policy cronJobId reason runId now s with
        | error error =>
          rw [hrun] at hmarked
          exact hmarked
        | ok result =>
          rw [hrun] at hnone hmarked
          unfold runNow at hrun
          dsimp only at hrun
          split at hrun
          · rw [← Except.ok.inj hrun] at hmarked
            exact hmarked
          · split at hrun
            · rw [← Except.ok.inj hrun] at hmarked
              exact hmarked
            · split at hrun
              · simp at hrun
              · rw [← Except.ok.inj hrun] at hnone hmarked
                have hne : strip cronJobId ≠ jobId := hnone _ List.mem_cons_self
                exact (keepsTrigger_of_get? (get?_modifyJob_of_ne hne _)).marked hmarked
    | _ => simp [SchedulerOp.cronOp?] at hop

/-! ### Jobs under their identifiers -/

/-- The identifier that `load` reads from a job. -/
def storedId (env : CronRuntime) (job : Job) : String :=
  strip (((get? job "id").getD .none).strOr env.toPyRuntime "")

/-- Every job stands under the identifier it holds. -/
structure Identified (env : CronRuntime) (jobs : List (String × Job)) : Prop where
  nodup : (keys jobs).Nodup
  id : ∀ jobId job, get? jobs jobId = some job → jobId ≠ "" ∧ storedId env job = jobId

lemma Identified.of_writes {s s' : CronJobStore} (h : Identified env s.jobs)
    (hkeys : (keys s'.jobs).Nodup) (hwrites : RuntimeWrites s s') : Identified env s'.jobs := by
  refine ⟨hkeys, fun jobId job' hjob' => ?_⟩
  obtain ⟨job, hjob, hwrite⟩ := hwrites jobId job' hjob'
  unfold storedId
  rw [hwrite "id" (by decide)]
  exact h.id jobId job hjob

/-- Created jobs get identifiers that `load` leaves as they are, as `uuid4().hex` does. -/
def SchedulerOp.NamesJobs (op : SchedulerOp) : Prop :=
  ∀ jobId, op.Creates jobId → jobId ≠ "" ∧ strip jobId = jobId

lemma identified_stored {op : SchedulerOp} {cronOp : CronOp} {now : DateTime} {s : CronJobStore}
    (h : Identified env s.jobs) (hop : op.cronOp? = some cronOp) (hnames : op.NamesJobs) :
    Identified env (scheduler env policy s (now, cronOp)).1.jobs := by
  refine ⟨nodup_keys_step env policy h.nodup _, fun jobId job' hjob' => ?_⟩
  cases jobSource hjob' with
  | same _ hjob => exact h.id jobId job' hjob
  | kept job _ _ hjob hwrite =>
    unfold storedId
    rw [hwrite "id" (by decide)]
    exact h.id jobId job hjob
  | created payload normalized hcreate hnormalized _ =>
    have hcreates : op.Creates jobId := by
      by_contra hnone
      exact SchedulerOp.cronOp_ne_create hop hnone payload hcreate
    obtain ⟨hne, hstrip⟩ := hnames jobId hcreates
    have hn := normalizes_of_ok hnormalized
    have hid : get? (newJob jobId normalized now) "id" = some (.str jobId) := by
      have hnone : get? normalized "id" = none := (hn.other "id" (by decide)).trans rfl
      unfold newJob
      rw [get?_merge, get?_merge, hnone]
      rfl
    refine ⟨hne, ?_⟩
    unfold storedId
    rw [hid, Option.getD_some]
    have hor : (PyVal.str jobId).strOr env.toPyRuntime "" = jobId := by
      unfold PyVal.strOr PyVal.or
      rw [if_pos (by simpa [PyVal.truthy] using hne)]
      rfl
    rw [hor]
    exact hstrip
  | updated cronJobId payload current normalized _ _ hcurrent _ hnormalized _ =>
    have hn := normalizes_of_ok hnormalized
    have hid : get? (merge current (insert normalized "updated_at" (.str (iso now)))) "id" =
        get? current "id" := by
      rw [get?_updated current normalized now (by decide), hn.other _ (by decide)]
      simp
    unfold storedId
    rw [hid]
    exact h.id jobId current hcurrent

/-- What has been loaded stands under its identifiers. -/
lemma identified_loadJobs (env : CronRuntime) (jobs : List Job) :
    Identified env (loadJobs env jobs) := by
  refine ⟨nodup_loadJobs env jobs, ?_⟩
  suffices hfold : ∀ loaded : List (String × Job),
      (∀ jobId job, get? loaded jobId = some job → jobId ≠ "" ∧ storedId env job = jobId) →
      ∀ jobId job, get? (jobs.foldl (fun loaded job =>
          if storedId env job = "" then loaded else insert loaded (storedId env job) job) loaded)
        jobId = some job → jobId ≠ "" ∧ storedId env job = jobId from
    hfold [] fun jobId job h => by simp at h
  induction jobs with
  | nil => exact fun _ h => h
  | cons job jobs ih =>
    intro loaded h
    rw [List.foldl_cons]
    refine ih _ fun jobId job' hjob' => ?_
    split at hjob'
    · exact h jobId job' hjob'
    · rename_i hne
      rw [get?_insert] at hjob'
      split at hjob'
      · rename_i hid
        obtain rfl := Option.some.inj hjob'
        subst hid
        exact ⟨hne, rfl⟩
      · exact h jobId job' hjob'

/-- What has been saved is loaded as it was. -/
lemma loadJobs_of_identified {jobs : List (String × Job)} (h : Identified env jobs) :
    loadJobs env (jobs.map Prod.snd) = jobs := by
  have hentries : ∀ e ∈ jobs, e.1 ≠ "" ∧ storedId env e.2 = e.1 := fun e he =>
    h.id e.1 e.2 (get?_of_mem h.nodup he)
  suffices hfold : ∀ (loaded rest : List (String × Job)), (keys (loaded ++ rest)).Nodup →
      (∀ e ∈ rest, e.1 ≠ "" ∧ storedId env e.2 = e.1) →
      (rest.map Prod.snd).foldl (fun loaded job =>
        if storedId env job = "" then loaded else insert loaded (storedId env job) job) loaded =
          loaded ++ rest from
    hfold [] jobs h.nodup hentries
  intro loaded rest
  induction rest generalizing loaded with
  | nil => simp
  | cons e rest ih =>
    intro hnodup hrest
    obtain ⟨hne, hid⟩ := hrest e List.mem_cons_self
    have hnotin : has loaded e.1 = false := by
      rw [has_eq_false_iff, ← Option.not_isSome_iff_eq_none, ← mem_keys_iff]
      intro hmem
      have hdisjoint := (List.nodup_append.mp (by simpa [keys] using hnodup)).2.2
      exact hdisjoint e.1 hmem e.1 List.mem_cons_self rfl
    have hinsert : OrderedDict.insert loaded e.1 e.2 = loaded ++ [e] := by
      unfold OrderedDict.insert
      rw [hnotin]
      rfl
    rw [List.map_cons, List.foldl_cons, hid, if_neg hne, hinsert,
      ih (loaded ++ [e]) (by simpa using hnodup) fun e' he' => hrest e' (List.mem_cons_of_mem _ he')]
    simp

end Trion.Cron
