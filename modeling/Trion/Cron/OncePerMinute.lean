import Trion.Cron.WellFormed

/-!
# Scheduled runs in one minute

A tick remembers in the job the local minute whose run it has put into the queue, and no
further tick of that minute puts in another one.  The one operation that forgets the minute is
a manual run of a recurring job: it clears the key, and the next tick of the minute puts in a
second scheduled run.  If no manual run comes after the scheduled one, there is at most one in
every minute.
-/

namespace Trion.Cron

open Trion.Python OrderedDict OperationRun

variable (env : CronRuntime) (policy : Policy) (jobId : String) (minute : WallTime)

/-! ### A minute of the scheduler -/

/-- A scheduled run of the job. -/
def isScheduled (item : RunItem) : Bool := item.cronJobId == jobId && item.reason == "schedule"

/-- How many scheduled runs of the job were put into the queue. -/
def scheduledRuns (answers : List (List RunItem)) : ℕ :=
  (answers.flatten.filter (isScheduled jobId)).length

/-- The fields that make up the schedule of a job. -/
def timingFields : List String := ["schedule_mode", "cron", "run_at", "timezone"]

/-- The operation takes place within the minute: a tick reads this local minute for the job, an
update of the job does not change its schedule, a manual run of it does not call itself a
scheduled one, and a new job gets another identifier. -/
structure InMinute (s : CronJobStore) (op : DateTime × CronOp) : Prop where
  tick : ∀ runIds job m, op.2 = .tick runIds → get? s.jobs jobId = some job →
    localMinute env job op.1 = some m → m = minute
  update : ∀ cronJobId payload job job', op.2 = .update cronJobId payload →
    get? s.jobs jobId = some job → get? (scheduler env policy s op).1.jobs jobId = some job' →
    ∀ key ∈ timingFields, get? job' key = get? job key
  manual : ∀ cronJobId reason runId, op.2 = .runNow cronJobId reason runId →
    strip cronJobId = jobId → sliceTo (orElse reason "manual") 40 ≠ "schedule"
  fresh : ∀ newId payload, op.2 = .create newId payload → newId ≠ jobId

/-- No manual run of the job comes after its scheduled run of the minute. -/
def NoManualAfterScheduled (s : CronJobStore) (op : DateTime × CronOp) : Prop :=
  ∀ cronJobId reason runId job, op.2 = .runNow cronJobId reason runId →
    strip cronJobId = jobId → get? s.jobs jobId = some job →
      strField env job "last_trigger_key" "" ≠ minuteKey minute

variable {env policy jobId minute}

/-! ### The trigger key -/

lemma get?_setFields_of_notMem {fields : List (String × String)} {key : String}
    (h : ∀ field ∈ fields, field.1 ≠ key) (job : Job) :
    get? (setFields job fields) key = get? job key := by
  induction fields generalizing job with
  | nil => rfl
  | cons field fields ih =>
    have hrest := ih (fun f hf => h f (List.mem_cons_of_mem _ hf)) (insert job field.1 (.str field.2))
    exact hrest.trans (get?_insert_of_ne (h field List.mem_cons_self).symm)

/-- The jobs agree in their mode and in their trigger key. -/
structure SameTrigger (env : CronRuntime) (job job' : Job) : Prop where
  mode : isOneShot env job' = isOneShot env job
  key : strField env job' "last_trigger_key" "" = strField env job "last_trigger_key" ""

lemma SameTrigger.refl (job : Job) : SameTrigger env job job := ⟨rfl, rfl⟩

lemma sameTrigger_of_get? {job job' : Job}
    (hmode : get? job' "schedule_mode" = get? job "schedule_mode")
    (hkey : get? job' "last_trigger_key" = get? job "last_trigger_key") :
    SameTrigger env job job' where
  mode := by
    unfold isOneShot strField
    rw [hmode]
  key := by
    unfold strField
    rw [hkey]

/-- Fields other than the mode and the trigger key. -/
lemma sameTrigger_setFields {fields : List (String × String)}
    (h : ∀ field ∈ fields, field.1 ≠ "schedule_mode" ∧ field.1 ≠ "last_trigger_key") (job : Job) :
    SameTrigger env job (setFields job fields) :=
  sameTrigger_of_get? (get?_setFields_of_notMem (fun f hf => (h f hf).1) job)
    (get?_setFields_of_notMem (fun f hf => (h f hf).2) job)

lemma SameTrigger.disable {job job' : Job} (h : SameTrigger env job job') (p : Prop) [Decidable p] :
    SameTrigger env job (if p then insert job' "enabled" (.bool false) else job') := by
  split
  · have hset : SameTrigger env job' (insert job' "enabled" (.bool false)) :=
      sameTrigger_of_get? (get?_insert_of_ne (by decide)) (get?_insert_of_ne (by decide))
    exact ⟨hset.mode.trans h.mode, hset.key.trans h.key⟩
  · exact h

/-- The job is gone, or agrees with the one before in its mode and in its trigger key. -/
def KeepsTrigger (env : CronRuntime) (jobId : String) (s s' : CronJobStore) : Prop :=
  ∀ job', get? s'.jobs jobId = some job' →
    ∃ job, get? s.jobs jobId = some job ∧ SameTrigger env job job'

lemma KeepsTrigger.refl (s : CronJobStore) : KeepsTrigger env jobId s s := fun job' h =>
  ⟨job', h, .refl job'⟩

lemma keepsTrigger_of_get? {s s' : CronJobStore}
    (h : get? s'.jobs jobId = get? s.jobs jobId) : KeepsTrigger env jobId s s' := fun job' hjob' =>
  ⟨job', h ▸ hjob', .refl job'⟩

lemma keepsTrigger_modify {s s' : CronJobStore} {id : String} {f : Job → Job}
    (hjobs : s'.jobs = modify s.jobs id f) (hf : ∀ job, SameTrigger env job (f job)) :
    KeepsTrigger env jobId s s' := by
  intro job' h
  rw [hjobs, get?_modify] at h
  split at h
  · obtain ⟨job, hjob, rfl⟩ := Option.map_eq_some_iff.mp h
    exact ⟨job, hjob, hf job⟩
  · exact ⟨job', h, .refl job'⟩

/-- Changing another job. -/
lemma get?_modifyJob_of_ne {s : CronJobStore} {id : String} (h : id ≠ jobId) (f : Job → Job) :
    get? (s.modifyJob id f).jobs jobId = get? s.jobs jobId := by
  unfold CronJobStore.modifyJob
  rw [get?_modify, if_neg (Ne.symm h)]

/-- At most one scheduled run so far, and after it the job remembers the minute. -/
def Remembers (env : CronRuntime) (jobId : String) (minute : WallTime) (n : ℕ)
    (s : CronJobStore) : Prop :=
  n ≤ 1 ∧ (n = 1 → ∀ job, get? s.jobs jobId = some job →
    isOneShot env job = false ∧ strField env job "last_trigger_key" "" = minuteKey minute)

lemma Remembers.of_keeps {n : ℕ} {s s' : CronJobStore} (h : Remembers env jobId minute n s)
    (hkeeps : KeepsTrigger env jobId s s') : Remembers env jobId minute n s' := by
  refine ⟨h.1, fun hn job' hjob' => ?_⟩
  obtain ⟨job, hjob, hsame⟩ := hkeeps job' hjob'
  rw [hsame.mode, hsame.key]
  exact h.2 hn job hjob

/-! ### Ticks -/

/-- What a due job is due for. -/
lemma tickFinding_due {job : Job} {now : DateTime} {reason key : String}
    (h : tickFinding env job now = .due reason key) :
    (isOneShot env job = true ∧ reason = "schedule_one_shot") ∨
      (isOneShot env job = false ∧ reason = "schedule" ∧ ∃ m, localMinute env job now = some m ∧
        key = minuteKey m ∧ strField env job "last_trigger_key" "" ≠ key) := by
  unfold tickFinding at h
  split at h
  · exact TickFinding.noConfusion h
  · split at h
    · rename_i hone
      unfold oneShotFinding at h
      split at h
      · exact TickFinding.noConfusion h
      · split at h
        · exact TickFinding.noConfusion h
        · split at h
          · exact TickFinding.noConfusion h
          · obtain ⟨rfl, -⟩ := TickFinding.due.inj h
            exact .inl ⟨hone, rfl⟩
    · rename_i hone
      unfold recurringFinding at h
      split at h
      · rename_i parsed m hparsed hm
        split at h
        · exact TickFinding.noConfusion h
        · split at h
          · exact TickFinding.noConfusion h
          · rename_i hkey
            obtain ⟨rfl, rfl⟩ := TickFinding.due.inj h
            exact .inr ⟨by simpa using hone, rfl, m, hm, rfl, hkey⟩
      · exact TickFinding.noConfusion h
      · exact TickFinding.noConfusion h

lemma triggerFields_key (now : DateTime) (key : String) (job : Job) :
    strField env (triggerFields env now key job) "last_trigger_key" "" = key := by
  have hset : get? (setFields job [("last_triggered_at", iso now), ("last_trigger_key", key)])
      "last_trigger_key" = some (.str key) := get?_insert_self
  have hget : get? (triggerFields env now key job) "last_trigger_key" = some (.str key) := by
    unfold triggerFields
    dsimp only
    split
    · rw [get?_insert_of_ne (by decide)]
      exact hset
    · exact hset
  unfold strField
  rw [hget]
  rfl

/-- One job of a tick. -/
lemma remembers_tickJob {n : ℕ} {s : CronJobStore} {now : DateTime} {id runId : String}
    (h : Remembers env jobId minute n s)
    (hminute : ∀ job m, get? s.jobs jobId = some job → localMinute env job now = some m →
      m = minute) :
    Remembers env jobId minute
      (n + ((tickJob env now s id runId).2.filter (isScheduled jobId)).length)
      (tickJob env now s id runId).1 := by
  unfold tickJob
  split
  · exact h
  · rename_i job hjob
    split
    · exact h
    · exact h.of_keeps (keepsTrigger_modify rfl fun job => sameTrigger_setFields (by simp) job)
    · rename_i reason key hdue
      split
      · exact h.of_keeps (keepsTrigger_modify rfl fun job => sameTrigger_setFields (by simp) job)
      · dsimp only
        by_cases hid : id = jobId
        · subst hid
          rcases tickFinding_due hdue with ⟨hone, rfl⟩ | ⟨hrec, rfl, m, hm, rfl, hkey⟩
          · -- a one-shot job has had no scheduled run
            have hn : n ≠ 1 := fun hn => by simp [(h.2 hn job hjob).1] at hone
            have hcount : ([(⟨runId, id, iso now, "schedule_one_shot"⟩ : RunItem)].filter
                (isScheduled id)).length = 0 := by simp [isScheduled]
            rw [hcount]
            exact ⟨h.1, fun h1 => absurd h1 hn⟩
          · have hmin : m = minute := hminute job m hjob hm
            have hn : n ≠ 1 := fun hn => hkey ((h.2 hn job hjob).2.trans (hmin ▸ rfl))
            have hcount : ([(⟨runId, id, iso now, "schedule"⟩ : RunItem)].filter
                (isScheduled id)).length = 1 := by simp [isScheduled]
            rw [hcount]
            refine ⟨by have := h.1; omega, fun _ job' hjob' => ?_⟩
            have hget : get? (modify s.jobs id (triggerFields env now (minuteKey m))) id =
                some job' := hjob'
            rw [get?_modify, if_pos rfl, hjob] at hget
            obtain rfl := Option.some.inj hget
            exact ⟨(triggerFields_write now _ job).isOneShot_eq.trans hrec,
              (triggerFields_key now _ job).trans (by rw [hmin])⟩
        · have hcount : ([(⟨runId, id, iso now, reason⟩ : RunItem)].filter
              (isScheduled jobId)).length = 0 := by simp [isScheduled, hid]
          rw [hcount]
          exact h.of_keeps (keepsTrigger_of_get? (get?_modifyJob_of_ne hid _))

/-- The local minute of the job does not depend on the scheduler's own fields. -/
lemma RuntimeWrite.localMinute_eq {job job' : Job} (h : RuntimeWrite job job') (now : DateTime) :
    localMinute env job' now = localMinute env job now := by
  unfold localMinute
  rw [h.strField_eq (by decide)]

/-- A whole tick. -/
lemma remembers_tickJobs {n : ℕ} {s : CronJobStore} {now : DateTime} {runIds : String → String}
    {ids : List String} (h : Remembers env jobId minute n s)
    (hminute : ∀ job m, get? s.jobs jobId = some job → localMinute env job now = some m →
      m = minute) :
    Remembers env jobId minute
      (n + ((tickJobs env now runIds ids s).2.filter (isScheduled jobId)).length)
      (tickJobs env now runIds ids s).1 := by
  induction ids generalizing n s with
  | nil => exact h
  | cons id ids ih =>
    have hfirst : Remembers env jobId minute
        (n + ((tickJob env now s id (runIds id)).2.filter (isScheduled jobId)).length)
        (tickJob env now s id (runIds id)).1 := remembers_tickJob h hminute
    have hrest := ih hfirst fun job' m hjob' hm => by
      obtain ⟨job, hjob, hwrite⟩ := runtimeWrites_tickJob now s id (runIds id) jobId job' hjob'
      exact hminute job m hjob (hwrite.localMinute_eq now ▸ hm)
    rw [Nat.add_assoc, ← List.length_append, ← List.filter_append] at hrest
    exact hrest

/-! ### The other operations -/

lemma keepsTrigger_beginDispatch (now : DateTime) (s : CronJobStore) :
    KeepsTrigger env jobId s (beginDispatch now s) := by
  unfold beginDispatch
  split
  · exact .refl s
  · have hwrite : ∀ job, SameTrigger env job (if job = [] then job
        else setFields job [("last_run_at", iso now), ("last_status", "dispatching")]) := by
      intro job
      split
      · exact .refl job
      · exact sameTrigger_setFields (by simp) job
    exact keepsTrigger_modify rfl hwrite

lemma sameTrigger_endDispatchFields (now : DateTime) (outcome : DispatchEnd) (job : Job) :
    SameTrigger env job (endDispatchFields env now outcome job) := by
  cases outcome with
  | deferred guardReason => exact sameTrigger_setFields (by simp) job
  | submitted autonomyJobId => exact (sameTrigger_setFields (by simp) job).disable _
  | failed error => exact (sameTrigger_setFields (by simp) job).disable _

lemma keepsTrigger_endDispatch (now : DateTime) (runId : String) (outcome : DispatchEnd)
    (s : CronJobStore) : KeepsTrigger env jobId s (endDispatch env now runId outcome s) := by
  unfold endDispatch
  split
  · exact .refl s
  · have hwrite : ∀ job, SameTrigger env job
        (if job = [] then job else endDispatchFields env now outcome job) := by
      intro job
      split
      · exact .refl job
      · exact sameTrigger_endDispatchFields now outcome job
    exact keepsTrigger_modify rfl hwrite

lemma keepsTrigger_deleteJob (cronJobId : String) (s : CronJobStore) :
    KeepsTrigger env jobId s (deleteJob cronJobId s) := by
  intro job' h
  unfold deleteJob at h
  rw [get?_erase] at h
  split at h
  · simp at h
  · exact ⟨job', h, .refl job'⟩

/-- A new job has another identifier, and an update of the job keeps its schedule. -/
lemma keepsTrigger_of_inMinute {s : CronJobStore} {op : DateTime × CronOp}
    (hscope : InMinute env policy jobId minute s op) (hop : op.2.takesFields = true) :
    KeepsTrigger env jobId s (scheduler env policy s op).1 := by
  intro job' hjob'
  cases jobSource hjob' with
  | same _ hjob => exact ⟨job', hjob, .refl job'⟩
  | kept _ _ hother _ _ => simp [hop] at hother
  | created payload normalized hcreate _ _ => exact absurd rfl (hscope.fresh jobId payload hcreate)
  | updated cronJobId payload current normalized hupdate hid hcurrent _ hnormalized _ =>
    refine ⟨current, hcurrent, sameTrigger_of_get? ?_ ?_⟩
    · exact hscope.update cronJobId payload current _ hupdate hcurrent hjob' _ (by decide)
    · have hn := normalizes_of_ok hnormalized
      rw [get?_updated current normalized op.1 (by decide), hn.other _ (by decide)]
      simp

/-- A manual run of the job comes before its scheduled run, and is not counted. -/
lemma remembers_runNow {n : ℕ} {s s' : CronJobStore} {items : List RunItem} {now : DateTime}
    {cronJobId reason runId : String} (h : Remembers env jobId minute n s)
    (hscope : InMinute env policy jobId minute s (now, .runNow cronJobId reason runId))
    (hmanual : NoManualAfterScheduled env jobId minute s (now, .runNow cronJobId reason runId))
    (hrun : runNow env policy cronJobId reason runId now s = .ok (s', items)) :
    Remembers env jobId minute (n + (items.filter (isScheduled jobId)).length) s' := by
  unfold runNow at hrun
  dsimp only at hrun
  split at hrun
  · obtain ⟨rfl, rfl⟩ := Prod.mk.inj (Except.ok.inj hrun)
    exact h
  · rename_i job hjob
    split at hrun
    · obtain ⟨rfl, rfl⟩ := Prod.mk.inj (Except.ok.inj hrun)
      exact h
    · split at hrun
      · simp at hrun
      · obtain ⟨rfl, rfl⟩ := Prod.mk.inj (Except.ok.inj hrun)
        by_cases hid : strip cronJobId = jobId
        · have hreason := hscope.manual cronJobId reason runId rfl hid
          have hn : n ≠ 1 := fun hn => by
            rw [hid] at hjob
            exact hmanual cronJobId reason runId job rfl hid hjob (h.2 hn job hjob).2
          have hcount : ([(⟨runId, strip cronJobId, iso now, sliceTo (orElse reason "manual") 40⟩ :
              RunItem)].filter (isScheduled jobId)).length = 0 := by simp [isScheduled, hreason]
          rw [hcount]
          exact ⟨h.1, fun h1 => absurd h1 hn⟩
        · have hcount : ([(⟨runId, strip cronJobId, iso now, sliceTo (orElse reason "manual") 40⟩ :
              RunItem)].filter (isScheduled jobId)).length = 0 := by simp [isScheduled, hid]
          rw [hcount]
          exact h.of_keeps (keepsTrigger_of_get? (get?_modifyJob_of_ne hid _))

/-- One operation within the minute. -/
theorem remembers_step {n : ℕ} {s : CronJobStore} {op : DateTime × CronOp}
    (h : Remembers env jobId minute n s) (hscope : InMinute env policy jobId minute s op)
    (hmanual : NoManualAfterScheduled env jobId minute s op) :
    Remembers env jobId minute
      (n + ((scheduler env policy s op).2.filter (isScheduled jobId)).length)
      (scheduler env policy s op).1 := by
  obtain ⟨now, op⟩ := op
  cases op with
  | create newId payload => exact h.of_keeps (keepsTrigger_of_inMinute hscope rfl)
  | update cronJobId payload => exact h.of_keeps (keepsTrigger_of_inMinute hscope rfl)
  | delete cronJobId => exact h.of_keeps (keepsTrigger_deleteJob cronJobId s)
  | runNow cronJobId reason runId =>
    cases hrun : runNow env policy cronJobId reason runId now s with
    | error e =>
      have hstep : scheduler env policy s (now, .runNow cronJobId reason runId) = (s, []) := by
        simp only [scheduler, hrun]
      rw [hstep]
      exact h
    | ok result =>
      have hstep : scheduler env policy s (now, .runNow cronJobId reason runId) = result := by
        simp only [scheduler, hrun]
      rw [hstep]
      exact remembers_runNow h hscope hmanual hrun
  | tick runIds =>
    exact remembers_tickJobs h fun job m hjob hm => hscope.tick runIds job m rfl hjob hm
  | beginDispatch => exact h.of_keeps (keepsTrigger_beginDispatch now s)
  | endDispatch runId outcome => exact h.of_keeps (keepsTrigger_endDispatch now runId outcome s)

/-! ### Runs -/

/-- Within one minute, if no manual run of the job comes after its scheduled run, the job gets
at most one scheduled run. -/
theorem once_per_minute (env : CronRuntime) (policy : Policy) (jobId : String) (minute : WallTime)
    (s : CronJobStore) (ops : List (DateTime × CronOp))
    (hscope : (scheduler env policy).Always (InMinute env policy jobId minute) s ops)
    (hmanual : (scheduler env policy).Always (NoManualAfterScheduled env jobId minute) s ops) :
    scheduledRuns jobId ((scheduler env policy).answers s ops) ≤ 1 := by
  have hrun := System.answers_invariant
    (I := fun answers s => Remembers env jobId minute (scheduledRuns jobId answers) s)
    (fun answers s op h hop => by
      have hstep := remembers_step h hop.1 hop.2
      unfold scheduledRuns at hstep ⊢
      rwa [List.flatten_append, List.filter_append, List.length_append, List.flatten_singleton])
    (hscope.and hmanual) ⟨Nat.zero_le 1, fun h => absurd (show 0 = 1 from h) (by decide)⟩
  exact hrun.1

/-! ### A manual run after the scheduled one -/

/-- The fields of a new job that runs every minute. -/
def everyMinutePayload : PyDict :=
  [("name", .str "digest"), ("objective", .str "write the digest"), ("conversation_id", .str "c"),
    ("cron", .str "* * * * *"), ("job_note_md", .str "")]

/-- The store with one job that runs every minute. -/
def everyMinuteStore : CronJobStore :=
  (scheduler .ascii minutePolicy).after {} [(noon, .create "job" everyMinutePayload)]

/-- The minute of the example runs. -/
def noonMinute : WallTime := ⟨2026, 3, 2, 12, 0⟩

private lemma localMinute_noon {job : Job} {m : WallTime}
    (h : localMinute .ascii job noon = some m) : m = noonMinute := by
  obtain ⟨zone, hzone, rfl⟩ := Option.map_eq_some_iff.mp h
  change (if _ = "UTC" then some _ else none) = some zone at hzone
  split at hzone
  · obtain rfl := Option.some.inj hzone
    rfl
  · simp at hzone

/-- An operation at noon that takes no fields. -/
private lemma inMinute_noon {s : CronJobStore} {op : CronOp} (hop : op.takesFields = false)
    (hmanual : ∀ id reason runId, op = .runNow id reason runId →
      sliceTo (orElse reason "manual") 40 ≠ "schedule") :
    InMinute .ascii minutePolicy "job" noonMinute s (noon, op) where
  tick _ _ _ _ _ hm := localMinute_noon hm
  update _ _ _ _ h := by
    obtain rfl : op = _ := h
    simp [CronOp.takesFields] at hop
  manual id reason runId h _ := hmanual id reason runId h
  fresh _ _ h := by
    obtain rfl : op = _ := h
    simp [CronOp.takesFields] at hop

theorem once_per_minute_noon :
    scheduledRuns "job" ((scheduler .ascii minutePolicy).answers everyMinuteStore
        [(noon, .runNow "job" "" "r1"), (noon, .tick fun _ => "r2")]) = 1 ∧
      scheduledRuns "job" ((scheduler .ascii minutePolicy).answers everyMinuteStore
        [(noon, .runNow "job" "" "r1"), (noon, .tick fun _ => "r2")]) ≤ 1 := by
  refine ⟨by decide +kernel, once_per_minute .ascii minutePolicy "job" noonMinute _ _ ?_ ?_⟩
  · refine ⟨inMinute_noon rfl ?_, inMinute_noon rfl (fun _ _ _ h => nomatch h), trivial⟩
    rintro _ _ _ ⟨⟩
    decide
  · refine ⟨?_, (fun _ _ _ _ h => nomatch h), trivial⟩
    rintro _ _ _ job ⟨⟩ - hjob
    have hkey : (get? everyMinuteStore.jobs "job").map
        (fun job => strField .ascii job "last_trigger_key" "") = some "" := by decide +kernel
    rw [hjob] at hkey
    have hblank : strField .ascii job "last_trigger_key" "" = "" := Option.some.inj hkey
    rw [hblank]
    decide

/-- The job runs, is run by hand, and is scheduled again in the same minute. -/
theorem twice_per_minute :
    ¬ ∀ ops, (scheduler .ascii minutePolicy).Always
        (InMinute .ascii minutePolicy "job" noonMinute) everyMinuteStore ops →
      scheduledRuns "job" ((scheduler .ascii minutePolicy).answers everyMinuteStore ops) ≤ 1 := by
  intro h
  have hle := h [(noon, .tick fun _ => "r1"), (noon, .beginDispatch),
    (noon, .endDispatch "r1" (.submitted "a1")), (noon, .runNow "job" "" "r2"),
    (noon, .tick fun _ => "r3")] ?_
  · exact absurd hle (by decide +kernel)
  · refine ⟨inMinute_noon rfl (fun _ _ _ h => nomatch h), inMinute_noon rfl
      (fun _ _ _ h => nomatch h), inMinute_noon rfl (fun _ _ _ h => nomatch h),
      inMinute_noon rfl ?_, inMinute_noon rfl (fun _ _ _ h => nomatch h), trivial⟩
    rintro _ _ _ ⟨⟩
    decide

end Trion.Cron
