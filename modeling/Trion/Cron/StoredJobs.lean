import Trion.Cron.Scheduler

/-!
# What an operation does to a job

A job in the store after an operation is the job that was there before, up to the fields the
scheduler keeps for itself, or it is the job `create_job` has made, or what `update_job` has
made of the job that was there.  A property of jobs that does not look at the scheduler's own
fields is therefore kept by every operation if `create_job` and `update_job` keep it.
-/

namespace Trion.Cron

open Trion.Python OrderedDict OperationRun

variable {env : CronRuntime} {policy : Policy}

/-! ### The scheduler's own fields -/

/-- The fields that ticks, manual runs and workers write. -/
def runtimeFields : List String :=
  ["enabled", "updated_at", "last_triggered_at", "last_run_at", "last_status", "last_job_id",
    "last_error", "last_trigger_key", "last_manual_trigger_at"]

/-- The two jobs differ in the scheduler's own fields only. -/
def RuntimeWrite (job job' : Job) : Prop :=
  ∀ key ∉ runtimeFields, get? job' key = get? job key

lemma RuntimeWrite.refl (job : Job) : RuntimeWrite job job := fun _ _ => rfl

lemma RuntimeWrite.trans {job₁ job₂ job₃ : Job} (h : RuntimeWrite job₁ job₂)
    (h' : RuntimeWrite job₂ job₃) : RuntimeWrite job₁ job₃ := fun key hkey =>
  (h' key hkey).trans (h key hkey)

lemma runtimeWrite_insert {job : Job} {key : String} (h : key ∈ runtimeFields) (value : PyVal) :
    RuntimeWrite job (insert job key value) := fun _ hkey =>
  get?_insert_of_ne fun heq => hkey (heq ▸ h)

lemma runtimeWrite_setFields {fields : List (String × String)}
    (h : ∀ field ∈ fields, field.1 ∈ runtimeFields) (job : Job) :
    RuntimeWrite job (setFields job fields) := by
  induction fields generalizing job with
  | nil => exact .refl job
  | cons field fields ih =>
    have hhead : RuntimeWrite job (insert job field.1 (.str field.2)) :=
      runtimeWrite_insert (h field List.mem_cons_self) _
    exact hhead.trans (ih (fun f hf => h f (List.mem_cons_of_mem _ hf)) _)

/-- A job may be disabled on top. -/
lemma RuntimeWrite.disable {job job' : Job} (h : RuntimeWrite job job') (p : Prop) [Decidable p] :
    RuntimeWrite job (if p then insert job' "enabled" (.bool false) else job') := by
  split
  · exact h.trans (runtimeWrite_insert (by decide) _)
  · exact h

/-- The texts that the schedule is read from stay. -/
lemma RuntimeWrite.strField_eq {job job' : Job} (h : RuntimeWrite job job') {key : String}
    (hkey : key ∉ runtimeFields) (default : String) :
    strField env job' key default = strField env job key default := by
  unfold strField
  rw [h key hkey]

lemma RuntimeWrite.isOneShot_eq {job job' : Job} (h : RuntimeWrite job job') :
    isOneShot env job' = isOneShot env job := by
  unfold isOneShot
  rw [h.strField_eq (by decide)]

lemma runNowFields_write (job : Job) (item : RunItem) :
    RuntimeWrite job (runNowFields env job item) := by
  unfold runNowFields
  extract_lets job₁ job₂
  have h₁ : RuntimeWrite job job₁ := runtimeWrite_setFields (by simp [runtimeFields]) job
  have h₂ : RuntimeWrite job₁ job₂ := by
    unfold job₂
    split
    · exact (runtimeWrite_setFields (by simp [runtimeFields]) _).trans
        (runtimeWrite_insert (by decide) _)
    · exact runtimeWrite_setFields (by simp [runtimeFields]) _
  split
  · exact (h₁.trans h₂).trans (runtimeWrite_setFields (by simp [runtimeFields]) _)
  · exact h₁.trans h₂

lemma endDispatchFields_write (now : DateTime) (outcome : DispatchEnd) (job : Job) :
    RuntimeWrite job (endDispatchFields env now outcome job) := by
  cases outcome with
  | deferred guardReason => exact runtimeWrite_setFields (by simp [runtimeFields]) job
  | submitted autonomyJobId =>
    exact (runtimeWrite_setFields (by simp [runtimeFields]) job).disable _
  | failed error => exact (runtimeWrite_setFields (by simp [runtimeFields]) job).disable _

lemma triggerFields_write (now : DateTime) (triggerKey : String) (job : Job) :
    RuntimeWrite job (triggerFields env now triggerKey job) :=
  (runtimeWrite_setFields (by simp [runtimeFields]) job).disable _

/-! ### Stores -/

/-- Every job of the second store is one of the first, up to the scheduler's own fields. -/
def RuntimeWrites (s s' : CronJobStore) : Prop :=
  ∀ jobId job', get? s'.jobs jobId = some job' →
    ∃ job, get? s.jobs jobId = some job ∧ RuntimeWrite job job'

lemma RuntimeWrites.refl (s : CronJobStore) : RuntimeWrites s s := fun _ job' h =>
  ⟨job', h, .refl job'⟩

lemma RuntimeWrites.trans {s₁ s₂ s₃ : CronJobStore} (h : RuntimeWrites s₁ s₂)
    (h' : RuntimeWrites s₂ s₃) : RuntimeWrites s₁ s₃ := by
  intro jobId job₃ hjob₃
  obtain ⟨job₂, hjob₂, hwrite'⟩ := h' jobId job₃ hjob₃
  obtain ⟨job₁, hjob₁, hwrite⟩ := h jobId job₂ hjob₂
  exact ⟨job₁, hjob₁, hwrite.trans hwrite'⟩

/-- Changing the scheduler's own fields of one job. -/
lemma runtimeWrites_of_modify {s s' : CronJobStore} {jobId : String} {f : Job → Job}
    (hjobs : s'.jobs = modify s.jobs jobId f) (hf : ∀ job, RuntimeWrite job (f job)) :
    RuntimeWrites s s' := by
  intro jobId' job' h
  rw [hjobs, get?_modify] at h
  split at h
  · obtain ⟨job, hjob, rfl⟩ := Option.map_eq_some_iff.mp h
    exact ⟨job, hjob, hf job⟩
  · exact ⟨job', h, .refl job'⟩

lemma runtimeWrites_modifyJob {s s' : CronJobStore} {jobId : String} {f : Job → Job}
    (hjobs : s'.jobs = s.jobs) (hf : ∀ job, RuntimeWrite job (f job)) :
    RuntimeWrites s (s'.modifyJob jobId f) :=
  runtimeWrites_of_modify (congrArg (modify · jobId f) hjobs) hf

lemma runtimeWrites_tickJob (now : DateTime) (s : CronJobStore) (jobId runId : String) :
    RuntimeWrites s (tickJob env now s jobId runId).1 := by
  unfold tickJob
  split
  · exact .refl s
  · split
    · exact .refl s
    · exact runtimeWrites_modifyJob rfl fun job =>
        runtimeWrite_setFields (by simp [runtimeFields]) job
    · split
      · exact runtimeWrites_modifyJob rfl fun job =>
          runtimeWrite_setFields (by simp [runtimeFields]) job
      · exact runtimeWrites_modifyJob rfl (triggerFields_write now _)

lemma runtimeWrites_tickJobs (now : DateTime) (runIds : String → String) (jobIds : List String)
    (s : CronJobStore) : RuntimeWrites s (tickJobs env now runIds jobIds s).1 := by
  induction jobIds generalizing s with
  | nil => exact .refl s
  | cons jobId jobIds ih => exact (runtimeWrites_tickJob now s jobId _).trans (ih _)

lemma runtimeWrites_runNow {cronJobId reason runId : String} {now : DateTime}
    {s s' : CronJobStore} {items : List RunItem}
    (h : runNow env policy cronJobId reason runId now s = .ok (s', items)) :
    RuntimeWrites s s' := by
  unfold runNow at h
  dsimp only at h
  split at h
  · obtain ⟨rfl, -⟩ := Prod.mk.inj (Except.ok.inj h)
    exact .refl s
  · split at h
    · obtain ⟨rfl, -⟩ := Prod.mk.inj (Except.ok.inj h)
      exact .refl s
    · split at h
      · simp at h
      · obtain ⟨rfl, -⟩ := Prod.mk.inj (Except.ok.inj h)
        exact runtimeWrites_modifyJob rfl fun job => runNowFields_write job _

lemma runtimeWrites_beginDispatch (now : DateTime) (s : CronJobStore) :
    RuntimeWrites s (beginDispatch now s) := by
  unfold beginDispatch
  split
  · exact .refl s
  · have hwrite : ∀ job, RuntimeWrite job (if job = [] then job
        else setFields job [("last_run_at", iso now), ("last_status", "dispatching")]) := by
      intro job
      split
      · exact .refl job
      · exact runtimeWrite_setFields (by simp [runtimeFields]) job
    exact runtimeWrites_of_modify rfl hwrite

lemma runtimeWrites_endDispatch (now : DateTime) (runId : String) (outcome : DispatchEnd)
    (s : CronJobStore) : RuntimeWrites s (endDispatch env now runId outcome s) := by
  unfold endDispatch
  split
  · exact .refl s
  · have hwrite : ∀ job, RuntimeWrite job
        (if job = [] then job else endDispatchFields env now outcome job) := by
      intro job
      split
      · exact .refl job
      · exact endDispatchFields_write now outcome job
    exact runtimeWrites_of_modify rfl hwrite

lemma runtimeWrites_deleteJob (cronJobId : String) (s : CronJobStore) :
    RuntimeWrites s (deleteJob cronJobId s) := by
  intro jobId job' h
  unfold deleteJob at h
  rw [get?_erase] at h
  split at h
  · simp at h
  · exact ⟨job', h, .refl job'⟩

/-! ### Identifiers -/

@[simp] lemma keys_modifyJob (s : CronJobStore) (jobId : String) (f : Job → Job) :
    keys (s.modifyJob jobId f).jobs = keys s.jobs := keys_modify

lemma keys_tickJob (env : CronRuntime) (now : DateTime) (s : CronJobStore) (jobId runId : String) :
    keys (tickJob env now s jobId runId).1.jobs = keys s.jobs := by
  unfold tickJob
  split
  · rfl
  · split
    · rfl
    · exact keys_modifyJob ..
    · split
      · exact keys_modifyJob ..
      · exact keys_modifyJob ..

lemma keys_tickJobs (env : CronRuntime) (now : DateTime) (runIds : String → String)
    (jobIds : List String) (s : CronJobStore) : keys (tickJobs env now runIds jobIds s).1.jobs = keys s.jobs := by
  induction jobIds generalizing s with
  | nil => rfl
  | cons jobId jobIds ih => exact (ih _).trans (keys_tickJob env now s jobId _)

/-! ### One operation -/

/-- The operation takes the fields of a client. -/
def CronOp.takesFields : CronOp → Bool
  | .create _ _ => true
  | .update _ _ => true
  | _ => false

/-- What an update or a creation leaves, if it does not raise. -/
inductive Written (env : CronRuntime) (policy : Policy) (s : CronJobStore)
    (op : DateTime × CronOp) : CronJobStore → Prop
  /-- It has raised, or there was no job to update. -/
  | unchanged : Written env policy s op s
  | created (jobId : String) (payload : PyDict) (normalized : Job) :
      op.2 = .create jobId payload →
      normalizeJobPayload env payload none op.1 = .ok normalized →
      enforceJobPolicy env policy s.jobs normalized none "" = .ok () →
      Written env policy s op
        { s with jobs := insert s.jobs jobId (newJob jobId normalized op.1) }
  | updated (cronJobId : String) (payload : PyDict) (current normalized : Job) :
      op.2 = .update cronJobId payload → get? s.jobs (strip cronJobId) = some current →
      current ≠ [] → normalizeJobPayload env payload (some current) op.1 = .ok normalized →
      enforceJobPolicy env policy s.jobs normalized (some current) (strip cronJobId) = .ok () →
      Written env policy s op
        { s with
          jobs := insert s.jobs (strip cronJobId)
            (merge current (insert normalized "updated_at" (.str (iso op.1)))) }

/-- What an operation that takes fields leaves. -/
lemma written_of_takesFields (env : CronRuntime) (policy : Policy) (s : CronJobStore)
    {op : DateTime × CronOp} (hop : op.2.takesFields = true) : Written env policy s op (scheduler env policy s op).1 := by
  obtain ⟨now, op⟩ := op
  cases op with
  | create jobId payload =>
    change Written env policy s _ (orKeep s (createJob env policy jobId payload now s))
    cases hcreate : createJob env policy jobId payload now s with
    | error error => exact .unchanged
    | ok s' =>
      unfold createJob at hcreate
      obtain ⟨normalized, hnormalized, hcreate⟩ := ok_of_bind hcreate
      obtain ⟨⟨⟩, henforce, hcreate⟩ := ok_of_bind hcreate
      obtain rfl := Except.ok.inj hcreate
      exact .created jobId payload normalized rfl hnormalized henforce
  | update cronJobId payload =>
    change Written env policy s _ (orKeep s (updateJob env policy cronJobId payload now s))
    cases hupdate : updateJob env policy cronJobId payload now s with
    | error error => exact .unchanged
    | ok s' =>
      unfold updateJob at hupdate
      dsimp only at hupdate
      split at hupdate
      · obtain rfl := Except.ok.inj hupdate
        exact .unchanged
      · rename_i current hcurrent
        split at hupdate
        · obtain rfl := Except.ok.inj hupdate
          exact .unchanged
        · rename_i hne
          obtain ⟨normalized, hnormalized, hupdate⟩ := ok_of_bind hupdate
          obtain ⟨⟨⟩, henforce, hupdate⟩ := ok_of_bind hupdate
          obtain rfl := Except.ok.inj hupdate
          exact .updated cronJobId payload current normalized rfl hcurrent hne hnormalized henforce
  | _ => simp [CronOp.takesFields] at hop

/-- An operation that takes no fields brings no new job. -/
lemma keys_step (env : CronRuntime) (policy : Policy) (s : CronJobStore) {op : DateTime × CronOp}
    (hop : op.2.takesFields = false) :
    (keys (scheduler env policy s op).1.jobs).Sublist (keys s.jobs) := by
  obtain ⟨now, op⟩ := op
  cases op with
  | create newId payload => simp [CronOp.takesFields] at hop
  | update cronJobId payload => simp [CronOp.takesFields] at hop
  | delete cronJobId => exact List.filter_sublist.map Prod.fst
  | runNow cronJobId reason runId =>
    unfold scheduler
    dsimp only
    cases hrun : runNow env policy cronJobId reason runId now s with
    | error error => exact List.Sublist.refl _
    | ok result =>
      unfold runNow at hrun
      dsimp only at hrun
      split at hrun
      · rw [← Except.ok.inj hrun]
      · split at hrun
        · rw [← Except.ok.inj hrun]
        · split at hrun
          · simp at hrun
          · rw [← Except.ok.inj hrun]
            simp [CronJobStore.enqueue]
  | tick runIds =>
    have hkeys : keys (tickOnce env now runIds s).1.jobs = keys s.jobs := keys_tickJobs ..
    exact hkeys ▸ List.Sublist.refl _
  | beginDispatch =>
    unfold scheduler beginDispatch
    dsimp only
    split
    · exact List.Sublist.refl _
    · simp
  | endDispatch runId outcome =>
    unfold scheduler endDispatch
    dsimp only
    split
    · exact List.Sublist.refl _
    · simp

/-- An operation keeps the identifiers of the jobs distinct. -/
lemma nodup_keys_step (env : CronRuntime) (policy : Policy) {s : CronJobStore}
    (h : (keys s.jobs).Nodup) (op : DateTime × CronOp) :
    (keys (scheduler env policy s op).1.jobs).Nodup := by
  cases hfields : op.2.takesFields with
  | false => exact h.sublist (keys_step env policy s hfields)
  | true =>
    generalize hresult : (scheduler env policy s op).1 = s'
    cases hresult ▸ written_of_takesFields env policy s hfields with
    | unchanged => exact h
    | created => exact nodup_keys_insert h
    | updated => exact nodup_keys_insert h

/-- Where a job in the store after an operation comes from. -/
inductive JobSource (env : CronRuntime) (policy : Policy) (s : CronJobStore)
    (op : DateTime × CronOp) (jobId : String) : Job → Prop
  /-- It was there before. -/
  | same (job : Job) : get? s.jobs jobId = some job → JobSource env policy s op jobId job
  /-- It was there before, up to the scheduler's own fields. -/
  | kept (job job' : Job) : op.2.takesFields = false → get? s.jobs jobId = some job →
      RuntimeWrite job job' → JobSource env policy s op jobId job'
  /-- `create_job` has made it. -/
  | created (payload : PyDict) (normalized : Job) : op.2 = .create jobId payload →
      normalizeJobPayload env payload none op.1 = .ok normalized →
      enforceJobPolicy env policy s.jobs normalized none "" = .ok () →
      JobSource env policy s op jobId (newJob jobId normalized op.1)
  /-- `update_job` has made it of the job that was there. -/
  | updated (cronJobId : String) (payload : PyDict) (current normalized : Job) :
      op.2 = .update cronJobId payload → jobId = strip cronJobId →
      get? s.jobs jobId = some current → current ≠ [] →
      normalizeJobPayload env payload (some current) op.1 = .ok normalized →
      enforceJobPolicy env policy s.jobs normalized (some current) jobId = .ok () →
      JobSource env policy s op jobId
        (merge current (insert normalized "updated_at" (.str (iso op.1))))

/-- Every job in the store after an operation has a source. -/
theorem jobSource {s : CronJobStore} {op : DateTime × CronOp} {jobId : String} {job : Job}
    (h : get? (scheduler env policy s op).1.jobs jobId = some job) :
    JobSource env policy s op jobId job := by
  have hkept : ∀ s' : CronJobStore, op.2.takesFields = false → RuntimeWrites s s' →
      get? s'.jobs jobId = some job → JobSource env policy s op jobId job := by
    intro s' hop hwrites hjob
    obtain ⟨job₀, hjob₀, hwrite⟩ := hwrites jobId job hjob
    exact .kept job₀ job hop hjob₀ hwrite
  cases hfields : op.2.takesFields with
  | true =>
    generalize hresult : (scheduler env policy s op).1 = s' at h
    cases hresult ▸ written_of_takesFields env policy s hfields with
    | unchanged => exact .same job h
    | created newId payload normalized hcreate hnormalized henforce =>
      rw [get?_insert] at h
      split at h
      · rename_i hid
        obtain rfl := Option.some.inj h
        subst hid
        exact .created payload normalized hcreate hnormalized henforce
      · exact .same job h
    | updated cronJobId payload current normalized hupdate hcurrent hne hnormalized henforce =>
      rw [get?_insert] at h
      split at h
      · rename_i hid
        obtain rfl := Option.some.inj h
        subst hid
        exact .updated cronJobId payload current normalized hupdate rfl hcurrent hne hnormalized
          henforce
      · exact .same job h
  | false =>
    obtain ⟨now, op⟩ := op
    cases op with
    | create newId payload => simp [CronOp.takesFields] at hfields
    | update cronJobId payload => simp [CronOp.takesFields] at hfields
    | delete cronJobId => exact hkept _ rfl (runtimeWrites_deleteJob cronJobId s) h
    | runNow cronJobId reason runId =>
      unfold scheduler at h
      dsimp only at h
      cases hrun : runNow env policy cronJobId reason runId now s with
      | ok run =>
        rw [hrun] at h
        exact hkept _ rfl (runtimeWrites_runNow hrun) h
      | error e =>
        rw [hrun] at h
        exact .same job h
    | tick runIds => exact hkept _ rfl (runtimeWrites_tickJobs now runIds _ s) h
    | beginDispatch => exact hkept _ rfl (runtimeWrites_beginDispatch now s) h
    | endDispatch runId outcome => exact hkept _ rfl (runtimeWrites_endDispatch now runId outcome s) h

/-- What the update leaves under a key. -/
lemma get?_updated (current normalized : Job) (now : DateTime) {key : String}
    (h : key ≠ "updated_at") :
    get? (merge current (insert normalized "updated_at" (.str (iso now)))) key =
      (get? normalized key).or (get? current key) := by
  rw [get?_merge, get?_insert_of_ne h]

/-- What a new job holds under a key that normalisation decides. -/
lemma get?_newJob (jobId : String) (normalized : Job) (now : DateTime) {key : String}
    (h : key ∉ "id" :: "created_at" :: runtimeFields) :
    get? (newJob jobId normalized now) key = get? normalized key := by
  simp only [runtimeFields, List.mem_cons, List.not_mem_nil, or_false, not_or] at h
  unfold newJob
  rw [get?_merge, get?_merge]
  simp [get?_cons, h]

end Trion.Cron
