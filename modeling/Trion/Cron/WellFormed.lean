import Trion.Cron.StoredJobs

/-!
# Well-formed jobs

A job the scheduler can interpret has a name, an objective and a conversation, a loop limit
between 1 and 200, and by its mode a cron expression that is accepted or a time that is read
back.  Creating and updating keep this with one exception: a one-shot job may be stored
without a cron expression, and an update that only switches its mode makes it a recurring job
that no tick can interpret.  Without such an update every job that is ever stored is
well-formed.
-/

namespace Trion.Cron

open Trion.Python OrderedDict OperationRun

variable (env : CronRuntime)

/-- The field holds a text that is not empty. -/
def HasText (job : Job) (key : String) : Prop := ∃ text, get? job key = some (.str text) ∧ text ≠ ""

/-- A job the scheduler can interpret. -/
structure WellFormedJob (job : Job) : Prop where
  name : HasText job "name"
  objective : HasText job "objective"
  conversationId : HasText job "conversation_id"
  maxLoops : ∃ n : ℤ, get? job "max_loops" = some (.int n) ∧ 1 ≤ n ∧ n ≤ 200
  recurring : isOneShot env job = false → ∃ cron parsed, get? job "cron" = some (.str cron) ∧
    parseCronExpression env.toPyRuntime cron = .ok parsed
  oneShot : isOneShot env job = true → ∃ text runAt, get? job "run_at" = some (.str text) ∧
    parseIsoDatetime env text = some runAt

/-- The value is the normalised text of an accepted cron expression. -/
def IsCron (value : PyVal) : Prop :=
  ∃ expr parsed, parseCronExpression env.toPyRuntime expr = .ok parsed ∧ value = .str parsed.expr

/-- What holds of every stored job, whatever the updates. -/
structure SoundJob (job : Job) : Prop where
  mode : get? job "schedule_mode" = some (.str "recurring") ∨
    get? job "schedule_mode" = some (.str "one_shot")
  name : HasText job "name"
  objective : HasText job "objective"
  conversationId : HasText job "conversation_id"
  timezone : ∃ name zone, get? job "timezone" = some (.str name) ∧ env.zoneInfo name = some zone
  maxLoops : ∃ n : ℤ, get? job "max_loops" = some (.int n) ∧ 1 ≤ n ∧ n ≤ 200
  cron : ∀ value, get? job "cron" = some value → IsCron env value
  oneShot : get? job "schedule_mode" = some (.str "one_shot") →
    ∃ runAt : DateTime, get? job "run_at" = some (.str (iso runAt))

/-- A recurring job has a cron expression. -/
def HasExpression (job : Job) : Prop :=
  get? job "schedule_mode" = some (.str "recurring") → has job "cron" = true

/-- The fields well-formedness is read from. -/
def scheduleFields : List String :=
  ["schedule_mode", "name", "objective", "conversation_id", "timezone", "max_loops", "cron",
    "run_at"]

variable {env}

/-- Only these fields matter. -/
lemma SoundJob.congr {job job' : Job} (hsame : ∀ key ∈ scheduleFields, get? job' key = get? job key)
    (h : SoundJob env job) : SoundJob env job' := by
  have hget : ∀ key, key ∈ scheduleFields → get? job' key = get? job key := hsame
  constructor
  · rw [hget _ (by decide)]
    exact h.mode
  · unfold HasText
    rw [hget _ (by decide)]
    exact h.name
  · unfold HasText
    rw [hget _ (by decide)]
    exact h.objective
  · unfold HasText
    rw [hget _ (by decide)]
    exact h.conversationId
  · rw [hget _ (by decide)]
    exact h.timezone
  · rw [hget _ (by decide)]
    exact h.maxLoops
  · rw [hget _ (by decide)]
    exact h.cron
  · rw [hget _ (by decide), hget _ (by decide)]
    exact h.oneShot

lemma HasExpression.congr {job job' : Job}
    (hsame : ∀ key ∈ scheduleFields, get? job' key = get? job key) (h : HasExpression job) :
    HasExpression job' := by
  unfold HasExpression
  rw [has_iff, hsame _ (by decide), hsame _ (by decide), ← has_iff]
  exact h

/-! ### Modes -/

lemma lower_recurring : env.lower (strip "recurring") = "recurring" :=
  (congrArg env.lower (show strip "recurring" = "recurring" by decide)).trans
    (lower_eq_self_of_ascii env.lower_ascii (by decide))

lemma lower_one_shot : env.lower (strip "one_shot") = "one_shot" :=
  (congrArg env.lower (show strip "one_shot" = "one_shot" by decide)).trans
    (lower_eq_self_of_ascii env.lower_ascii (by decide))

lemma lower_strField_recurring {job : Job}
    (h : get? job "schedule_mode" = some (.str "recurring")) :
    env.lower (strip (strField env job "schedule_mode" "recurring")) = "recurring" := by
  unfold strField
  rw [h]
  exact lower_recurring

lemma lower_strField_one_shot {job : Job}
    (h : get? job "schedule_mode" = some (.str "one_shot")) :
    env.lower (strip (strField env job "schedule_mode" "recurring")) = "one_shot" := by
  unfold strField
  rw [h]
  exact lower_one_shot

lemma isOneShot_of_recurring {job : Job} (h : get? job "schedule_mode" = some (.str "recurring")) :
    isOneShot env job = false := by
  unfold isOneShot
  rw [lower_strField_recurring h]
  decide

lemma isOneShot_of_one_shot {job : Job} (h : get? job "schedule_mode" = some (.str "one_shot")) :
    isOneShot env job = true := by
  unfold isOneShot
  rw [lower_strField_one_shot h]
  decide

/-- A sound job that has its expression is well-formed. -/
theorem SoundJob.wellFormed {job : Job} (h : SoundJob env job) (hexpr : HasExpression job) :
    WellFormedJob env job where
  name := h.name
  objective := h.objective
  conversationId := h.conversationId
  maxLoops := h.maxLoops
  recurring hrec := by
    have hmode : get? job "schedule_mode" = some (.str "recurring") :=
      h.mode.resolve_right fun hone => by simp [isOneShot_of_one_shot hone] at hrec
    obtain ⟨value, hvalue⟩ := Option.isSome_iff_exists.mp (has_iff.mp (hexpr hmode))
    obtain ⟨expr, parsed, hparsed, rfl⟩ := h.cron value hvalue
    exact ⟨parsed.expr, parsed, hvalue, parseCronExpression_expr hparsed⟩
  oneShot hone := by
    have hmode : get? job "schedule_mode" = some (.str "one_shot") :=
      h.mode.resolve_left fun hrec => by simp [isOneShot_of_recurring hrec] at hone
    obtain ⟨runAt, hrunAt⟩ := h.oneShot hmode
    exact ⟨iso runAt, runAt, hrunAt, parseIsoDatetime_iso env runAt⟩

/-! ### The fields of a normalised job -/

section Fields

variable {payload : PyDict} {existing : Option Job} {now : DateTime} {out : Job}

lemma isGiven_none (key : String) : isGiven payload none key = true := by
  unfold isGiven isFresh
  simp

lemma hasText_of_normalized {key : String} {limit : ℕ} {value : Option PyVal} (hlimit : 0 < limit)
    (h : normalizeRequiredText env payload existing key limit = .ok value)
    (hout : get? out key = value.or (get? (existing.getD []) key))
    (hprev : ∀ current, existing = some current → HasText current key) : HasText out key := by
  unfold normalizeRequiredText at h
  split at h
  · dsimp only at h
    split at h
    · simp [valueError] at h
    · rename_i htext
      obtain rfl := Except.ok.inj h
      exact ⟨_, by simpa using hout, sliceTo_ne_empty htext hlimit⟩
  · rename_i hgiven
    obtain rfl := Except.ok.inj h
    cases existing with
    | none => exact absurd (isGiven_none key) hgiven
    | some current =>
      obtain ⟨text, htext, hne⟩ := hprev current rfl
      exact ⟨text, by simpa [htext] using hout, hne⟩

lemma timezone_of_normalized {value : Option PyVal}
    (h : normalizeTimezone env payload existing = .ok value)
    (hout : get? out "timezone" = value.or (get? (existing.getD []) "timezone"))
    (hprev : ∀ current, existing = some current →
      ∃ name zone, get? current "timezone" = some (.str name) ∧ env.zoneInfo name = some zone) :
    ∃ name zone, get? out "timezone" = some (.str name) ∧ env.zoneInfo name = some zone := by
  unfold normalizeTimezone at h
  split at h
  · dsimp only at h
    split at h
    · simp [valueError] at h
    · rename_i zone hzone
      obtain rfl := Except.ok.inj h
      exact ⟨_, zone, by simpa using hout, hzone⟩
  · rename_i hgiven
    obtain rfl := Except.ok.inj h
    cases existing with
    | none => exact absurd (isGiven_none _) hgiven
    | some current =>
      obtain ⟨name, zone, hname, hzone⟩ := hprev current rfl
      exact ⟨name, zone, by simpa [hname] using hout, hzone⟩

lemma maxLoops_of_normalized {value : Option PyVal}
    (h : normalizeMaxLoops env payload existing = .ok value)
    (hout : get? out "max_loops" = value.or (get? (existing.getD []) "max_loops"))
    (hprev : ∀ current, existing = some current →
      ∃ n : ℤ, get? current "max_loops" = some (.int n) ∧ 1 ≤ n ∧ n ≤ 200) :
    ∃ n : ℤ, get? out "max_loops" = some (.int n) ∧ 1 ≤ n ∧ n ≤ 200 := by
  unfold normalizeMaxLoops at h
  split at h
  · split at h
    · simp [valueError] at h
    · rename_i n hn
      split at h
      · simp [valueError] at h
      · rename_i hrange
        obtain rfl := Except.ok.inj h
        exact ⟨n, by simpa using hout, by omega, by omega⟩
  · rename_i hgiven
    obtain rfl := Except.ok.inj h
    cases existing with
    | none => exact absurd (isGiven_none _) hgiven
    | some current =>
      obtain ⟨n, hn, hrange⟩ := hprev current rfl
      exact ⟨n, by simpa [hn] using hout, hrange⟩

lemma isCron_of_validated {expr normalized : String}
    (h : validateCronExpression env.toPyRuntime expr = .ok normalized) :
    IsCron env (.str normalized) := by
  obtain ⟨parsed, hparsed, rfl⟩ := ok_of_map h
  exact ⟨expr, parsed, hparsed, rfl⟩

/-- The expression a new one-shot job gets is accepted. -/
lemma isCron_default : IsCron env (.str "*/15 * * * *") := by
  have hascii : "15".toList.all (·.toNat < 128) = true := by decide
  have h15 : env.parseInt "15" = some 15 :=
    (env.parseInt_eq "15").trans ((DecimalDigits.int?_of_ascii fun c hc =>
      of_decide_eq_true (List.all_eq_true.mp hascii c hc)).trans (by decide))
  have hstep : parseIntBetween env.toPyRuntime "15" 1 60 "minute step" = .ok 15 := by
    unfold parseIntBetween
    rw [h15]
    rfl
  have hsegment : expandSegment env.toPyRuntime "*/15" 0 59 "minute" =
      .ok (stepRange 0 59 15) := by
    unfold expandSegment
    rw [show strip "*/15" = "*/15" by decide]
    rw [if_neg (by decide), if_pos (by decide), show afterFirst '/' "*/15" = "15" by decide,
      show beforeFirst '/' "*/15" = "*" by decide]
    change (parseIntBetween env.toPyRuntime "15" 1 60 "minute step" >>= _) = _
    rw [hstep]
    rfl
  have hfield : parseField env.toPyRuntime "*/15" 0 59 "minute" false =
      .ok ⟨stepRange 0 59 15, false⟩ := by
    unfold parseField
    rw [show strip "*/15" = "*/15" by decide]
    dsimp only
    rw [show splitOn ',' "*/15" = ["*/15"] by decide, if_neg (by decide), List.mapM_cons, hsegment]
    rfl
  refine ⟨"*/15 * * * *", ⟨"*/15 * * * *", ⟨stepRange 0 59 15, false⟩, ⟨stepRange 0 23 1, true⟩,
    ⟨stepRange 1 31 1, true⟩, ⟨stepRange 1 12 1, true⟩, ⟨stepRange 0 7 1, true⟩⟩, ?_, rfl⟩
  unfold parseCronExpression
  rw [show strSplit (strip "*/15 * * * *") = ["*/15", "*", "*", "*", "*"] by decide]
  dsimp only
  rw [hfield]
  rfl

lemma isCron_of_recurring {fields : Option PyVal × Option PyVal} {value : PyVal}
    (h : normalizeRecurring env payload existing = .ok fields) (hvalue : fields.1 = some value) :
    IsCron env value := by
  unfold normalizeRecurring at h
  split at h
  · dsimp only at h
    split at h
    · simp [valueError] at h
    · obtain ⟨normalized, hvalid, rfl⟩ := ok_of_map h
      obtain rfl := Option.some.inj hvalue
      exact isCron_of_validated hvalid
  · obtain rfl := Except.ok.inj h
    simp at hvalue

lemma isCron_of_oneShot {value : PyVal}
    (h : normalizeOneShotCron env payload existing = .ok (some value)) : IsCron env value := by
  unfold normalizeOneShotCron at h
  split at h
  · dsimp only at h
    split at h
    · simp at h
    · obtain ⟨normalized, hvalid, hvalue⟩ := ok_of_map h
      obtain rfl := Option.some.inj hvalue
      exact isCron_of_validated hvalid
  · split at h
    · obtain rfl := Option.some.inj (Except.ok.inj h)
      exact isCron_default
    · simp at h

/-- The update carries a mode, and it is `recurring`. -/
def SwitchesToRecurring (env : CronRuntime) (payload : PyDict) : Prop :=
  has payload "schedule_mode" = true ∧
    env.lower (strip ((PyDict.get payload "schedule_mode").strOr env.toPyRuntime "recurring"))
      = "recurring"

/-- The mode of a normalised job: one of the two, and the one that decided about the schedule. -/
lemma mode_of_normalized {mode : String} {value : Option PyVal}
    (h : normalizeScheduleMode env payload existing = .ok (mode, value))
    (hout : get? out "schedule_mode" = value.or (get? (existing.getD []) "schedule_mode"))
    (hprev : ∀ current, existing = some current →
      get? current "schedule_mode" = some (.str "recurring") ∨
        get? current "schedule_mode" = some (.str "one_shot")) :
    (mode = "recurring" ∨ mode = "one_shot") ∧ get? out "schedule_mode" = some (.str mode) ∧
      ∀ current, existing = some current → current ≠ [] → mode = "recurring" →
        SwitchesToRecurring env payload ∨
          get? current "schedule_mode" = some (.str "recurring") := by
  unfold normalizeScheduleMode at h
  split at h
  · rename_i hgiven
    dsimp only at h
    split at h
    · simp [valueError] at h
    · rename_i hmodes
      obtain ⟨rfl, rfl⟩ := Prod.mk.inj (Except.ok.inj h)
      refine ⟨by tauto, by simpa using hout, ?_⟩
      rintro current rfl hne hrec
      have hfresh : isFresh (some current) = false := by simp [isFresh, hne]
      have hhas : has payload "schedule_mode" = true := by simpa [isGiven, hfresh] using hgiven
      refine .inl ⟨hhas, ?_⟩
      simpa [given, hhas] using hrec
  · rename_i hgiven
    obtain ⟨hmode, rfl⟩ := Prod.mk.inj (Except.ok.inj h)
    cases existing with
    | none => exact absurd (isGiven_none _) hgiven
    | some current =>
      simp only [Option.getD_some, Option.none_or] at hmode hout
      rcases hprev current rfl with hrec | hone
      · rw [lower_strField_recurring hrec] at hmode
        have hm : mode = "recurring" := hmode.symm.trans (by decide)
        refine ⟨.inl hm, by rw [hout, hrec, hm], ?_⟩
        rintro _ ⟨⟩ - -
        exact .inr hrec
      · rw [lower_strField_one_shot hone] at hmode
        have hm : mode = "one_shot" := hmode.symm.trans (by decide)
        refine ⟨.inr hm, by rw [hout, hone, hm], ?_⟩
        rintro _ ⟨⟩ - hrec
        exact absurd (hm.symm.trans hrec) (by decide)

/-- Normalising keeps jobs sound. -/
theorem SoundJob.of_normalizes (h : Normalizes env payload existing now out)
    (hprev : ∀ current, existing = some current → SoundJob env current) : SoundJob env out := by
  obtain ⟨mode, value, hmode, houtMode, hschedule⟩ := h.schedule
  obtain ⟨hmodes, hout, -⟩ := mode_of_normalized hmode houtMode fun c hc => (hprev c hc).mode
  have hcronPrev : ∀ v, get? (existing.getD []) "cron" = some v → IsCron env v := by
    intro v hv
    cases existing with
    | none => simp at hv
    | some current => exact (hprev current rfl).cron v hv
  obtain ⟨name, hname, houtName⟩ := h.name
  obtain ⟨objective, hobjective, houtObjective⟩ := h.objective
  obtain ⟨conversationId, hconversationId, houtConversationId⟩ := h.conversationId
  obtain ⟨timezone, htimezone, houtTimezone⟩ := h.timezone
  obtain ⟨maxLoops, hmaxLoops, houtMaxLoops⟩ := h.maxLoops
  constructor
  case mode =>
    rcases hmodes with rfl | rfl
    · exact .inl hout
    · exact .inr hout
  case name =>
    exact hasText_of_normalized (by decide) hname houtName fun c hc => (hprev c hc).name
  case objective =>
    exact hasText_of_normalized (by decide) hobjective houtObjective fun c hc =>
      (hprev c hc).objective
  case conversationId =>
    exact hasText_of_normalized (by decide) hconversationId houtConversationId fun c hc =>
      (hprev c hc).conversationId
  case timezone =>
    exact timezone_of_normalized htimezone houtTimezone fun c hc => (hprev c hc).timezone
  case maxLoops =>
    exact maxLoops_of_normalized hmaxLoops houtMaxLoops fun c hc => (hprev c hc).maxLoops
  case cron =>
    intro v hv
    rcases hschedule with ⟨-, fields, hfields, hcron⟩ | ⟨-, cron, runAt, hcron, -, houtCron, -⟩
    · rw [hcron] at hv
      rcases Option.or_eq_some_iff.mp hv with hnew | ⟨-, hold⟩
      · exact isCron_of_recurring hfields hnew
      · exact hcronPrev v hold
    · rw [houtCron] at hv
      rcases Option.or_eq_some_iff.mp hv with rfl | ⟨-, hold⟩
      · exact isCron_of_oneShot hcron
      · exact hcronPrev v hold
  case oneShot =>
    intro hone
    have hm : mode = "one_shot" := by simpa using hout.symm.trans hone
    rcases hschedule with ⟨hrec, -⟩ | ⟨-, cron, runAt, -, hrunAt, -, houtRunAt⟩
    · exact absurd (hm.symm.trans hrec) (by decide)
    · unfold normalizeRunAt at hrunAt
      dsimp only at hrunAt
      split at hrunAt
      · simp [valueError] at hrunAt
      · rename_i moment hmoment
        split at hrunAt
        · simp [valueError] at hrunAt
        · obtain rfl := Except.ok.inj hrunAt
          exact ⟨moment, houtRunAt⟩

/-- A recurring job has its expression, unless an update has switched a job without one. -/
theorem HasExpression.of_normalizes (h : Normalizes env payload existing now out)
    (hprev : ∀ current, existing = some current →
      current ≠ [] ∧ SoundJob env current ∧ HasExpression current)
    (hswitch : ∀ current, existing = some current → SwitchesToRecurring env payload →
      has payload "cron" = true ∨ has current "cron" = true) : HasExpression out := by
  intro hrec
  obtain ⟨mode, value, hmode, houtMode, hschedule⟩ := h.schedule
  obtain ⟨-, hout, hfrom⟩ := mode_of_normalized hmode houtMode fun c hc => (hprev c hc).2.1.mode
  have hm : mode = "recurring" := by simpa using hout.symm.trans hrec
  rcases hschedule with ⟨-, fields, hfields, hcron⟩ | ⟨hne, -⟩
  · rw [has_iff, hcron]
    unfold normalizeRecurring at hfields
    split at hfields
    · dsimp only at hfields
      split at hfields
      · simp [valueError] at hfields
      · obtain ⟨normalized, -, rfl⟩ := ok_of_map hfields
        rfl
    · rename_i hgiven
      obtain rfl := Except.ok.inj hfields
      cases existing with
      | none => exact absurd (isGiven_none _) hgiven
      | some current =>
        simp only [isGiven, Bool.or_eq_true, not_or, Bool.not_eq_true] at hgiven
        obtain ⟨hnone, -⟩ := hgiven
        obtain ⟨hne, -, hexpr⟩ := hprev current rfl
        have hcurrent : has current "cron" = true := by
          rcases hfrom current rfl hne hm with hsw | hcur
          · exact (hswitch current rfl hsw).resolve_left (by simp [hnone])
          · exact hexpr hcur
        simpa using has_iff.mp hcurrent
  · exact absurd hm hne

end Fields

/-! ### Runs -/

/-- An update that switches a job without a cron expression to recurring carries one. -/
def KeepsExpression (env : CronRuntime) (s : CronJobStore) (op : DateTime × CronOp) : Prop :=
  ∀ cronJobId payload current, op.2 = .update cronJobId payload →
    get? s.jobs (strip cronJobId) = some current → SwitchesToRecurring env payload →
      has payload "cron" = true ∨ has current "cron" = true

variable {policy : Policy}

lemma runtimeWrite_scheduleFields {job job' : Job} (h : RuntimeWrite job job') :
    ∀ key ∈ scheduleFields, get? job' key = get? job key := by
  have hdisjoint : ∀ key ∈ scheduleFields, key ∉ runtimeFields := by decide
  exact fun key hkey => h key (hdisjoint key hkey)

lemma newJob_scheduleFields (jobId : String) (normalized : Job) (now : DateTime) :
    ∀ key ∈ scheduleFields, get? (newJob jobId normalized now) key = get? normalized key := by
  have hdisjoint : ∀ key ∈ scheduleFields, key ∉ "id" :: "created_at" :: runtimeFields := by decide
  exact fun key hkey => get?_newJob jobId normalized now (hdisjoint key hkey)

/-- An update leaves what has been normalised. -/
lemma updated_get? {payload : PyDict} {current normalized : Job} {now : DateTime}
    (h : Normalizes env payload (some current) now normalized) {key : String}
    (hkey : key ≠ "updated_at") :
    get? (merge current (insert normalized "updated_at" (.str (iso now)))) key =
      get? normalized key := by
  rw [get?_updated current normalized now hkey]
  cases hnormalized : get? normalized key with
  | some value => rfl
  | none =>
    have hnone : get? current key = none := by
      by_contra hsome
      have hkept := h.keeps key (Option.isSome_iff_ne_none.mpr hsome)
      simp [hnormalized] at hkept
    simp [hnone]

lemma updated_scheduleFields {payload : PyDict} {current normalized : Job} {now : DateTime}
    (h : Normalizes env payload (some current) now normalized) :
    ∀ key ∈ scheduleFields,
      get? (merge current (insert normalized "updated_at" (.str (iso now)))) key =
        get? normalized key := by
  have hdisjoint : ∀ key ∈ scheduleFields, key ≠ "updated_at" := by decide
  exact fun key hkey => updated_get? h (hdisjoint key hkey)

/-- Every stored job is sound. -/
def SoundJobs (env : CronRuntime) (s : CronJobStore) : Prop :=
  ∀ jobId job, get? s.jobs jobId = some job → SoundJob env job

lemma soundJobs_empty : SoundJobs env {} := fun _ _ h => nomatch h

/-- One operation keeps the jobs sound. -/
theorem soundJobs_step {s : CronJobStore} (h : SoundJobs env s) (op : DateTime × CronOp) :
    SoundJobs env (scheduler env policy s op).1 := by
  intro jobId job hjob
  cases jobSource hjob with
  | same _ hjob₀ => exact h jobId job hjob₀
  | kept job₀ _ _ hjob₀ hwrite =>
    exact (h jobId job₀ hjob₀).congr (runtimeWrite_scheduleFields hwrite)
  | created payload normalized _ hnormalized _ =>
    exact (SoundJob.of_normalizes (normalizes_of_ok hnormalized) fun _ hc => nomatch hc).congr
      (newJob_scheduleFields jobId normalized op.1)
  | updated cronJobId payload current normalized _ _ hcurrent _ hnormalized _ =>
    have hn := normalizes_of_ok hnormalized
    refine (SoundJob.of_normalizes hn ?_).congr (updated_scheduleFields hn)
    rintro _ ⟨⟩
    exact h jobId current hcurrent

/-- One operation that `KeepsExpression` allows leaves every recurring job with its expression. -/
theorem hasExpression_step {s : CronJobStore} {op : DateTime × CronOp} (hsound : SoundJobs env s)
    (h : ∀ jobId job, get? s.jobs jobId = some job → HasExpression job)
    (hop : KeepsExpression env s op) :
    ∀ jobId job, get? (scheduler env policy s op).1.jobs jobId = some job → HasExpression job := by
  intro jobId job hjob
  cases jobSource hjob with
  | same _ hjob₀ => exact h jobId job hjob₀
  | kept job₀ _ _ hjob₀ hwrite =>
    exact (h jobId job₀ hjob₀).congr (runtimeWrite_scheduleFields hwrite)
  | created payload normalized _ hnormalized _ =>
    have hn := normalizes_of_ok hnormalized
    exact (HasExpression.of_normalizes hn (fun _ hc => nomatch hc) fun _ hc => nomatch hc).congr
      (newJob_scheduleFields jobId normalized op.1)
  | updated cronJobId payload current normalized hupdate hid hcurrent hne hnormalized _ =>
    have hn := normalizes_of_ok hnormalized
    refine (HasExpression.of_normalizes hn ?_ ?_).congr (updated_scheduleFields hn)
    · rintro _ ⟨⟩
      exact ⟨hne, hsound jobId current hcurrent, h jobId current hcurrent⟩
    · rintro _ ⟨⟩ hswitch
      exact hop cronJobId payload current hupdate (hid ▸ hcurrent) hswitch

/-- The tick can interpret a well-formed job in a known time zone. -/
lemma tickFinding_ne_invalid {job : Job} (hsound : SoundJob env job) (hexpr : HasExpression job)
    (now : DateTime) (error : String) : tickFinding env job now ≠ .invalid error := by
  have hwf := hsound.wellFormed hexpr
  unfold tickFinding
  split
  · exact TickFinding.noConfusion
  · split
    · rename_i hone
      obtain ⟨text, runAt, htext, hrunAt⟩ := hwf.oneShot hone
      have hfield : strField env job "run_at" "" = text := by simp [strField, htext, PyVal.toStr]
      unfold oneShotFinding
      rw [hfield, hrunAt]
      dsimp only
      split
      · exact TickFinding.noConfusion
      · split <;> exact TickFinding.noConfusion
    · rename_i hone
      have hmode : get? job "schedule_mode" = some (.str "recurring") :=
        hsound.mode.resolve_right fun h => hone (isOneShot_of_one_shot h)
      obtain ⟨value, hvalue⟩ := Option.isSome_iff_exists.mp (has_iff.mp (hexpr hmode))
      obtain ⟨expr, parsed, hparsed, rfl⟩ := hsound.cron value hvalue
      have hfield : strField env job "cron" "" = parsed.expr := by
        simp [strField, hvalue, PyVal.toStr]
      obtain ⟨name, zone, hname, hzone⟩ := hsound.timezone
      have hminute : localMinute env job now = some (zone now) := by
        simp [localMinute, strField, hname, PyVal.toStr, hzone]
      unfold recurringFinding parsedExpr
      rw [hfield, strip_expr hparsed, parseCronExpression_expr hparsed, hminute]
      dsimp only
      split
      · exact TickFinding.noConfusion
      · split <;> exact TickFinding.noConfusion

/-- In every run from an empty store whose updates give a job that they switch to recurring an
expression, every stored job is well-formed, and no tick meets a job it cannot interpret. -/
theorem jobs_wellFormed (env : CronRuntime) (policy : Policy) (ops : List (DateTime × CronOp))
    (hall : (scheduler env policy).Always (KeepsExpression env) {} ops) :
    ∀ jobId job, get? ((scheduler env policy).after {} ops).jobs jobId = some job →
      WellFormedJob env job ∧ ∀ now error, tickFinding env job now ≠ .invalid error := by
  have hrun : SoundJobs env ((scheduler env policy).after {} ops) ∧
      ∀ jobId job, get? ((scheduler env policy).after {} ops).jobs jobId = some job →
        HasExpression job := by
    refine System.invariant (I := fun s => SoundJobs env s ∧
      ∀ jobId job, get? s.jobs jobId = some job → HasExpression job) ?_ hall ?_
    · intro s op hs hop
      exact ⟨soundJobs_step hs.1 op, hasExpression_step hs.1 hs.2 hop⟩
    · exact ⟨soundJobs_empty, (fun _ _ h => nomatch h)⟩
  intro jobId job hjob
  have hsound := hrun.1 jobId job hjob
  have hexpr := hrun.2 jobId job hjob
  exact ⟨hsound.wellFormed hexpr, tickFinding_ne_invalid hsound hexpr⟩

/-! ### A job without an expression -/

/-- A moment at which the example runs take place. -/
def noon : DateTime := ⟨2026, 3, 2, 12, 0, 0, 0, by decide⟩

/-- The smallest interval the scheduler lets one choose. -/
def minutePolicy : Policy := { Policy.default with minIntervalS := 60 }

/-- The fields of a new one-shot job with the given cron expression. -/
def oneShotPayload (cron : String) : PyDict :=
  [("name", .str "digest"), ("objective", .str "write the digest"), ("conversation_id", .str "c"),
    ("schedule_mode", .str "one_shot"), ("cron", .str cron),
    ("run_at", .str "2030-01-01T00:00:00+00:00"), ("job_note_md", .str "")]

/-- A one-shot job with a blank cron expression is switched to recurring. -/
def switchRun (fields : PyDict) : List (DateTime × CronOp) :=
  [(noon, .create "job" (oneShotPayload "")),
    (noon, .update "job" (("schedule_mode", .str "recurring") :: fields))]

theorem jobs_wellFormed_switchRun :
    has ((scheduler .ascii minutePolicy).after {} (switchRun [("cron", .str "* * * * *")])).jobs
        "job" = true ∧
      ∀ jobId job, get? ((scheduler .ascii minutePolicy).after {}
          (switchRun [("cron", .str "* * * * *")])).jobs jobId = some job →
        WellFormedJob .ascii job ∧ ∀ now error, tickFinding .ascii job now ≠ .invalid error := by
  refine ⟨by decide +kernel, jobs_wellFormed .ascii minutePolicy _ ⟨?_, ?_, trivial⟩⟩
  · rintro _ _ _ ⟨⟩
  · rintro _ _ _ ⟨⟩ - -
    exact .inl (by decide)

/-- A switch to recurring that carries no expression leaves a recurring job without one. -/
theorem jobs_not_wellFormed :
    ¬ ∀ jobId job,
      get? ((scheduler .ascii .default).after {} (switchRun [])).jobs jobId = some job →
        WellFormedJob .ascii job := by
  intro h
  have hrun : (get? ((scheduler .ascii .default).after {} (switchRun [])).jobs "job").map
      (fun job => (isOneShot .ascii job, has job "cron")) = some (false, false) := by
    decide +kernel
  obtain ⟨job, hjob, hpair⟩ := Option.map_eq_some_iff.mp hrun
  obtain ⟨hmode, hcron⟩ := Prod.mk.inj hpair
  obtain ⟨cron, parsed, hsome, -⟩ := (h "job" job hjob).recurring hmode
  have hnone := has_eq_false_iff.mp hcron
  simp [hnone] at hsome

end Trion.Cron
