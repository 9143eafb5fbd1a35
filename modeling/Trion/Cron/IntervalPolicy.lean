import Trion.Cron.WellFormed

/-!
# The interval policy of stored jobs

The smallest interval of a cron expression is checked when a recurring job is made and when an
update changes its expression.  An update that only switches a one-shot job to recurring does
not change the expression, so it is not checked then, and it never was before: every other
stored recurring job has passed the check.
-/

namespace Trion.Cron

open Trion.Python OrderedDict OperationRun

variable (env : CronRuntime) (policy : Policy)

/-- The stored expression passes the interval policy. -/
def PassesInterval (job : Job) : Prop :=
  ∃ parsed, parseCronExpression env.toPyRuntime (strField env job "cron" "") = .ok parsed ∧
    policy.minIntervalS ≤ estimateMinIntervalSeconds parsed

/-- The update carries another cron expression than the stored one. -/
def ChangesCron (payload : PyDict) (current : Job) : Prop :=
  has payload "cron" = true ∧
    ∀ expr, validateCronExpression env.toPyRuntime
        (strip ((PyDict.get payload "cron").toStr env.toPyRuntime)) = .ok expr →
      expr ≠ strField env current "cron" ""

/-- An update that switches a one-shot job to recurring changes its cron expression, or the stored
one passes the interval policy. -/
def ChecksSwitch (s : CronJobStore) (op : DateTime × CronOp) : Prop :=
  ∀ cronJobId payload current, op.2 = .update cronJobId payload →
    get? s.jobs (strip cronJobId) = some current → isOneShot env current = true →
      SwitchesToRecurring env payload →
        ChangesCron env payload current ∨ PassesInterval env policy current

variable {env policy}

/-! ### Stored expressions -/

lemma strField_cron_congr {job job' : Job}
    (hsame : ∀ key ∈ scheduleFields, get? job' key = get? job key) :
    strField env job' "cron" "" = strField env job "cron" "" := by
  unfold strField
  rw [hsame _ (by decide)]

lemma isOneShot_congr {job job' : Job}
    (hsame : ∀ key ∈ scheduleFields, get? job' key = get? job key) :
    isOneShot env job' = isOneShot env job := by
  unfold isOneShot strField
  rw [hsame _ (by decide)]

lemma PassesInterval.congr {job job' : Job}
    (hsame : strField env job' "cron" "" = strField env job "cron" "")
    (h : PassesInterval env policy job) : PassesInterval env policy job' := by
  unfold PassesInterval
  rw [hsame]
  exact h

/-- A stored expression has no white space around it. -/
lemma SoundJob.strip_cron {job : Job} (h : SoundJob env job) :
    strip (strField env job "cron" "") = strField env job "cron" "" := by
  unfold strField
  cases hcron : get? job "cron" with
  | none => exact show strip "" = "" by decide
  | some value =>
    obtain ⟨expr, parsed, hparsed, rfl⟩ := h.cron value hcron
    exact strip_expr hparsed

/-- The policy judges a recurring job as a recurring job. -/
lemma policyMode_ne {normalized : Job} {existing : Option Job} {value : PyVal}
    (hmode : get? normalized "schedule_mode" = some value)
    (h : isOneShot env normalized = false) : policyMode env normalized existing ≠ "one_shot" := by
  unfold isOneShot strField at h
  unfold policyMode
  rw [hmode] at h ⊢
  simp only [Option.getD_some, beq_eq_false_iff_ne] at h ⊢
  unfold orElse
  split
  · decide
  · exact h

/-! ### One operation -/

/-- A recurring job whose expression is new to the policy passes. -/
lemma passesInterval_of_enforced {jobs : List (String × Job)} {normalized : Job}
    {existing : Option Job} {jobId : String} (hsound : SoundJob env normalized)
    (henforce : enforceJobPolicy env policy jobs normalized existing jobId = .ok ())
    (hrec : isOneShot env normalized = false)
    (hnew : existing.isNone ∨ strip (strField env normalized "cron" "") ≠
      strip (strField env (existing.getD []) "cron" "")) : PassesInterval env policy normalized := by
  unfold enforceJobPolicy at henforce
  obtain ⟨-, -, henforce⟩ := ok_of_bind henforce
  obtain ⟨-, -, henforce⟩ := ok_of_bind henforce
  obtain ⟨interval, hinterval, -⟩ := ok_of_bind henforce
  have hmode : policyMode env normalized existing ≠ "one_shot" := by
    rcases hsound.mode with h | h
    · exact policyMode_ne h hrec
    · exact policyMode_ne h hrec
  obtain ⟨parsed, hparsed, hle⟩ := interval_of_checkInterval hinterval hmode hnew
  unfold parsedExpr at hparsed
  rw [hsound.strip_cron, hsound.strip_cron] at hparsed
  exact ⟨parsed, hparsed, hle⟩

/-- A recurring job stores the expression the update carries. -/
lemma validated_of_carried {payload : PyDict} {current normalized : Job} {now : DateTime}
    (h : Normalizes env payload (some current) now normalized) (hsound : SoundJob env current)
    (hrec : isOneShot env normalized = false) (hcarried : has payload "cron" = true) :
    validateCronExpression env.toPyRuntime
      (strip ((PyDict.get payload "cron").toStr env.toPyRuntime)) =
        .ok (strField env normalized "cron" "") := by
  obtain ⟨mode, value, hmode, houtMode, hschedule⟩ := h.schedule
  obtain ⟨hmodes, hout, -⟩ := mode_of_normalized hmode houtMode (by
    rintro _ ⟨⟩
    exact hsound.mode)
  rcases hschedule with ⟨-, fields, hfields, hcron⟩ | ⟨hne, -⟩
  · unfold normalizeRecurring at hfields
    rw [if_pos (by simp [isGiven, hcarried])] at hfields
    dsimp only at hfields
    split at hfields
    · simp [valueError] at hfields
    · obtain ⟨expr, hvalid, rfl⟩ := ok_of_map hfields
      have hstored : strField env normalized "cron" "" = expr := by
        simp [strField, hcron, PyVal.toStr]
      rw [hstored]
      simpa [given, hcarried] using hvalid
  · have hone := hmodes.resolve_left hne
    rw [hone] at hout
    simp [isOneShot_of_one_shot hout] at hrec

/-- Every recurring job passes the interval policy. -/
def IntervalsPass (env : CronRuntime) (policy : Policy) (s : CronJobStore) : Prop :=
  ∀ jobId job, get? s.jobs jobId = some job → isOneShot env job = false →
    PassesInterval env policy job

/-- One operation that `ChecksSwitch` allows. -/
theorem intervalsPass_step {s : CronJobStore} {op : DateTime × CronOp} (hsound : SoundJobs env s)
    (h : IntervalsPass env policy s) (hop : ChecksSwitch env policy s op) :
    IntervalsPass env policy (scheduler env policy s op).1 := by
  intro jobId job hjob hrec
  cases jobSource hjob with
  | same _ hjob₀ => exact h jobId job hjob₀ hrec
  | kept job₀ _ _ hjob₀ hwrite =>
    have hsame := runtimeWrite_scheduleFields hwrite
    rw [isOneShot_congr hsame] at hrec
    exact (h jobId job₀ hjob₀ hrec).congr (strField_cron_congr hsame)
  | created payload normalized _ hnormalized henforce =>
    have hsame := newJob_scheduleFields jobId normalized op.1
    rw [isOneShot_congr hsame] at hrec
    have hnew : SoundJob env normalized :=
      .of_normalizes (normalizes_of_ok hnormalized) fun _ hc => nomatch hc
    exact (passesInterval_of_enforced hnew henforce hrec (.inl rfl)).congr
      (strField_cron_congr hsame)
  | updated cronJobId payload current normalized hupdate hid hcurrent hne hnormalized henforce =>
    have hn := normalizes_of_ok hnormalized
    have hsame := updated_scheduleFields hn
    rw [isOneShot_congr hsame] at hrec
    refine PassesInterval.congr (strField_cron_congr hsame) ?_
    have hcur : SoundJob env current := hsound jobId current hcurrent
    have hnew : SoundJob env normalized := .of_normalizes hn (by
      rintro _ ⟨⟩
      exact hcur)
    by_cases hsamecron : strip (strField env normalized "cron" "") =
        strip (strField env current "cron" "")
    · -- the expression is the stored one, and was checked with the stored job or not at all
      rw [hnew.strip_cron, hcur.strip_cron] at hsamecron
      refine PassesInterval.congr hsamecron ?_
      cases hone : isOneShot env current with
      | false => exact h jobId current hcurrent hone
      | true =>
        have hswitch : SwitchesToRecurring env payload := by
          obtain ⟨mode, value, hmode, houtMode, -⟩ := hn.schedule
          obtain ⟨hmodes, hout, hfrom⟩ := mode_of_normalized hmode houtMode (by
            rintro _ ⟨⟩
            exact hcur.mode)
          have hm : mode = "recurring" := hmodes.resolve_right fun h1 => by
            rw [h1] at hout
            simp [isOneShot_of_one_shot hout] at hrec
          refine (hfrom current rfl hne hm).resolve_right fun h2 => ?_
          simp [isOneShot_of_recurring h2] at hone
        rcases hop cronJobId payload current hupdate (hid ▸ hcurrent) hone hswitch with
          ⟨hcarried, hchanged⟩ | hpasses
        · exact absurd hsamecron
            (hchanged _ (validated_of_carried hn hcur hrec hcarried))
        · exact hpasses
    · exact passesInterval_of_enforced hnew henforce hrec (.inr hsamecron)

/-! ### Runs -/

/-- In every run from an empty store in which an update that switches a one-shot job to recurring
changes its expression, or finds one that passes, every recurring job passes the interval
policy. -/
theorem intervals_checked (env : CronRuntime) (policy : Policy) (ops : List (DateTime × CronOp))
    (hall : (scheduler env policy).Always (ChecksSwitch env policy) {} ops) :
    IntervalsPass env policy ((scheduler env policy).after {} ops) := by
  have hrun : SoundJobs env ((scheduler env policy).after {} ops) ∧
      IntervalsPass env policy ((scheduler env policy).after {} ops) := by
    refine System.invariant (I := fun s => SoundJobs env s ∧ IntervalsPass env policy s) ?_ hall ?_
    · intro s op hs hop
      exact ⟨soundJobs_step hs.1 op, intervalsPass_step hs.1 hs.2 hop⟩
    · exact ⟨soundJobs_empty, (fun _ _ h => nomatch h)⟩
  exact hrun.2

theorem intervals_checked_switchRun :
    has ((scheduler .ascii minutePolicy).after {} (switchRun [("cron", .str "* * * * *")])).jobs
        "job" = true ∧
      IntervalsPass .ascii minutePolicy
        ((scheduler .ascii minutePolicy).after {} (switchRun [("cron", .str "* * * * *")])) := by
  refine ⟨by decide +kernel, intervals_checked .ascii minutePolicy _ ⟨?_, ?_, trivial⟩⟩
  · rintro _ _ _ ⟨⟩
  · rintro _ _ current ⟨⟩ hcurrent - -
    refine .inl ⟨by decide, ?_⟩
    have hstored : (get? (scheduler .ascii minutePolicy {} (noon, .create "job"
        (oneShotPayload ""))).1.jobs (strip "job")).map
          (fun job => strField .ascii job "cron" "") = some "" := by decide +kernel
    rw [hcurrent] at hstored
    have hblank : strField .ascii current "cron" "" = "" := Option.some.inj hstored
    intro expr hexpr
    obtain ⟨parsed, hparsed, rfl⟩ := ok_of_map hexpr
    rw [hblank]
    rintro hempty
    have hself := parseCronExpression_expr hparsed
    rw [hempty] at hself
    exact absurd hself (by simp [parseCronExpression, show strSplit (strip "") = [] by decide])

/-- A one-shot job whose expression fires every minute is switched to recurring. -/
theorem intervals_not_checked :
    ¬ IntervalsPass .ascii .default ((scheduler .ascii .default).after {}
      [(noon, .create "job" (oneShotPayload "* * * * *")),
        (noon, .update "job" [("schedule_mode", .str "recurring")])]) := by
  intro h
  have hrun : (get? ((scheduler .ascii .default).after {}
      [(noon, .create "job" (oneShotPayload "* * * * *")),
        (noon, .update "job" [("schedule_mode", .str "recurring")])]).jobs "job").map
      (fun job => (isOneShot .ascii job, strField .ascii job "cron" "")) =
        some (false, "* * * * *") := by
    decide +kernel
  obtain ⟨job, hjob, hpair⟩ := Option.map_eq_some_iff.mp hrun
  obtain ⟨hmode, hcron⟩ := Prod.mk.inj hpair
  obtain ⟨parsed, hparsed, hle⟩ := h "job" job hjob hmode
  have hestimate : (parseCronExpression CronRuntime.ascii.toPyRuntime "* * * * *").toOption.map
      estimateMinIntervalSeconds = some 60 := by decide +kernel
  rw [hcron] at hparsed
  rw [hparsed] at hestimate
  have h60 : estimateMinIntervalSeconds parsed = 60 := Option.some.inj hestimate
  rw [h60] at hle
  exact absurd hle (by decide)

end Trion.Cron
