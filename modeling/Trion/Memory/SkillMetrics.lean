import Mathlib.Algebra.BigOperators.Group.List.Basic
import Mathlib.Algebra.Order.Ring.Rat
import Mathlib.Logic.Relation
import Mathlib.Tactic.FieldSimp
import Mathlib.Tactic.Ring
import Trion.Library.Slots

/-!
# The metrics of a skill

`upsert_skill_metric` reads the row of a skill and writes it back with another report in it.  The
reading is a statement of its own, so calls can come between it and the writing.  Where no call
does, the counts and the average are those of the reports; otherwise a first report can fail and
an average can miss reports.
-/

namespace Trion.Memory

open Slots

/-! ### Calls -/

/-- The arguments of a call for the skill. -/
structure Report where
  success : Bool
  execTimeMs : ℚ
  error : Option String := none
  version : String := "1.0"
deriving DecidableEq, Repr

/-- The row of the skill in `skill_metrics`. -/
structure SkillMetric where
  id : ℤ
  version : String
  successCount : ℕ
  failureCount : ℕ
  avgExecTimeMs : ℚ
  lastError : Option String
  createdAt : String
  updatedAt : String
deriving DecidableEq, Repr

/-- How far a call has come: it has read the row or the lack of one, and it has written or the
database has refused a second row of the skill. -/
inductive CallPhase where
  | waiting
  | read (row : Option SkillMetric)
  | returned (id : ℤ)
  | raised
deriving DecidableEq, Repr

structure Call where
  report : Report
  phase : CallPhase := .waiting
deriving DecidableEq, Repr

/-- The row of the skill, the last identifier that has been given away, and the calls. -/
structure MetricsState where
  row : Option SkillMetric := none
  lastId : ℤ := 0
  calls : List Call
deriving DecidableEq, Repr

/-- `new_avg`. -/
def newAverage (old : SkillMetric) (execTimeMs : ℚ) : ℚ :=
  let total : ℕ := old.successCount + old.failureCount
  if 0 < total then (old.avgExecTimeMs * total + execTimeMs) / (total + 1) else execTimeMs

/-- The `UPDATE` of a call that has read the old row. -/
def updated (report : Report) (old : SkillMetric) (now : String) (row : SkillMetric) :
    SkillMetric :=
  if report.success then
    { row with
      successCount := row.successCount + 1
      avgExecTimeMs := newAverage old report.execTimeMs
      version := report.version, updatedAt := now }
  else
    { row with
      failureCount := row.failureCount + 1
      avgExecTimeMs := newAverage old report.execTimeMs
      lastError := report.error, version := report.version, updatedAt := now }

/-- The row that a call inserts. -/
def inserted (report : Report) (id : ℤ) (now : String) : SkillMetric :=
  { id, version := report.version
    successCount := if report.success then 1 else 0
    failureCount := if report.success then 0 else 1
    avgExecTimeMs := report.execTimeMs, lastError := report.error
    createdAt := now, updatedAt := now }

namespace MetricsState

/-- The first statement of a call. -/
def select (s : MetricsState) (i : ℕ) (report : Report) : MetricsState :=
  { s with calls := s.calls.set i ⟨report, .read s.row⟩ }

/-- The second statement of a call, with its commit. -/
def write (s : MetricsState) (i : ℕ) (report : Report) (seen : Option SkillMetric)
    (now : String) : MetricsState :=
  match seen with
  | some old =>
    { s with
      row := s.row.map (updated report old now)
      calls := s.calls.set i ⟨report, .returned old.id⟩ }
  | none =>
    match s.row with
    | some _ => { s with calls := s.calls.set i ⟨report, .raised⟩ }
    | none =>
      { row := some (inserted report (s.lastId + 1) now)
        lastId := s.lastId + 1
        calls := s.calls.set i ⟨report, .returned (s.lastId + 1)⟩ }

end MetricsState

/-- The next statement of one of the calls. -/
inductive MetricStep : MetricsState → MetricsState → Prop where
  | select {s : MetricsState} {i : ℕ} {report : Report}
      (hcall : s.calls[i]? = some ⟨report, .waiting⟩) : MetricStep s (s.select i report)
  | write {s : MetricsState} {i : ℕ} {report : Report} {seen : Option SkillMetric} {now : String}
      (hcall : s.calls[i]? = some ⟨report, .read seen⟩) :
      MetricStep s (s.write i report seen now)

/-- The next statement of one of the calls, where no other call has written the row since the
call has read it. -/
inductive UndisturbedStep : MetricsState → MetricsState → Prop where
  | select {s : MetricsState} {i : ℕ} {report : Report}
      (hcall : s.calls[i]? = some ⟨report, .waiting⟩) : UndisturbedStep s (s.select i report)
  | write {s : MetricsState} {i : ℕ} {report : Report} {seen : Option SkillMetric} {now : String}
      (hcall : s.calls[i]? = some ⟨report, .read seen⟩) (hseen : seen = s.row) :
      UndisturbedStep s (s.write i report seen now)

/-- The calls before they begin. -/
def MetricsState.start (reports : List Report) : MetricsState :=
  { calls := reports.map fun report => ⟨report, .waiting⟩ }

/-! ### Exact metrics -/

/-- The report of a call that has returned. -/
def Call.done (call : Call) : List Report :=
  match call.phase with
  | .returned _ => [call.report]
  | _ => []

/-- The reports of the calls that have returned. -/
def MetricsState.done (s : MetricsState) : List Report := s.calls.flatMap Call.done

/-- The row tells what the reports tell. -/
structure SkillMetric.Tells (row : SkillMetric) (reports : List Report) : Prop where
  successes : row.successCount = reports.countP fun report => report.success
  failures : row.failureCount = reports.countP fun report => !report.success
  mean : row.avgExecTimeMs = (reports.map Report.execTimeMs).sum / reports.length

/-- No call has raised, and the row tells the reports of the calls that have returned; there is
none only as long as no call has. -/
structure MetricsState.IsExact (s : MetricsState) : Prop where
  noneRaised : ∀ call ∈ s.calls, call.phase ≠ .raised
  noRow : s.row = none → s.done = []
  tells : ∀ row, s.row = some row → s.done ≠ [] ∧ row.Tells s.done

/-- All calls have returned or raised. -/
def MetricsState.Finished (s : MetricsState) : Prop :=
  ∀ call ∈ s.calls, call.phase = .raised ∨ ∃ id, call.phase = .returned id

/-- After all calls, the row tells all reports. -/
structure MetricsState.LosesNothing (s : MetricsState) (reports : List Report) : Prop where
  noneRaised : ∀ call ∈ s.calls, call.phase ≠ .raised
  tells : reports ≠ [] → ∃ row, s.row = some row ∧ row.Tells reports

/-! ### One statement -/

section Step

variable {s s' : MetricsState} {i : ℕ} {report : Report} {row old : SkillMetric} {now : String}
  {reports : List Report} {phase : CallPhase} {seen : Option SkillMetric}

lemma SkillMetric.Tells.perm {others : List Report} (h : row.Tells reports)
    (hperm : reports.Perm others) : row.Tells others where
  successes := h.successes.trans (hperm.countP_eq _)
  failures := h.failures.trans (hperm.countP_eq _)
  mean := by rw [h.mean, (hperm.map _).sum_eq, hperm.length_eq]

lemma SkillMetric.Tells.total (h : row.Tells reports) :
    row.successCount + row.failureCount = reports.length := by
  rw [h.successes, h.failures, List.length_eq_countP_add_countP fun report => report.success]
  congr 1
  exact List.countP_congr fun report _ => by simp

lemma tells_inserted (id : ℤ) : (inserted report id now).Tells [report] := by
  cases hsuccess : report.success <;> constructor <;> simp [inserted, hsuccess]

/-- Another report goes into the row that has been read. -/
lemma SkillMetric.Tells.updated (h : row.Tells reports) (hne : reports ≠ []) :
    (updated report row now row).Tells (reports ++ [report]) := by
  have hpos : 0 < reports.length := List.length_pos_iff.mpr hne
  have hmean : newAverage row report.execTimeMs =
      ((reports ++ [report]).map Report.execTimeMs).sum / (reports ++ [report]).length := by
    have hlen : (reports.length : ℚ) ≠ 0 := Nat.cast_ne_zero.mpr hpos.ne'
    unfold newAverage
    rw [h.total, if_pos hpos, h.mean, div_mul_cancel₀ _ hlen]
    simp
  unfold Memory.updated
  cases hsuccess : report.success <;>
    constructor <;> simp [hsuccess, h.successes, h.failures, hmean]

/-- What a call that moves on does to the reports of the calls that have returned. -/
lemma perm_done_set (call : Call) (hcall : s.calls[i]? = some ⟨report, phase⟩)
    (hphase : ∀ id, phase ≠ .returned id) :
    ((s.calls.set i call).flatMap Call.done).Perm (s.done ++ call.done) := by
  have hnone : Call.done ⟨report, phase⟩ = [] := by
    cases phase with
    | returned id => exact absurd rfl (hphase id)
    | _ => rfl
  have hperm := perm_flatMap_set hcall Call.done call
  rwa [hnone, List.append_nil] at hperm

lemma noneRaised_set (h : ∀ call ∈ s.calls, call.phase ≠ .raised) {call : Call}
    (hcall : call.phase ≠ .raised) : ∀ other ∈ s.calls.set i call, other.phase ≠ .raised := by
  intro other hother
  rcases List.mem_or_eq_of_mem_set hother with hold | rfl
  · exact h other hold
  · exact hcall

/-- A call that moves on without returning leaves the rest as it is. -/
lemma MetricsState.IsExact.of_open (h : s.IsExact) (hcall : s.calls[i]? = some ⟨report, phase⟩)
    (hphase : ∀ id, phase ≠ .returned id) {call : Call} (hdone : call.done = [])
    (hraised : call.phase ≠ .raised) : IsExact { s with calls := s.calls.set i call } := by
  have hperm := perm_done_set call hcall hphase
  rw [hdone, List.append_nil] at hperm
  refine ⟨noneRaised_set h.noneRaised hraised, fun hrow => ?_, fun row hrow => ?_⟩
  · exact (hperm.trans (h.noRow hrow ▸ List.Perm.refl _)).eq_nil
  · obtain ⟨hne, htells⟩ := h.tells row hrow
    exact ⟨fun hnil => hne (hperm.symm.trans (hnil ▸ List.Perm.refl _)).eq_nil,
      htells.perm hperm.symm⟩

/-- A call that returns adds its report. -/
lemma MetricsState.IsExact.of_returned (h : s.IsExact)
    (hcall : s.calls[i]? = some ⟨report, phase⟩) (hphase : ∀ id, phase ≠ .returned id)
    {id lastId : ℤ}
    (htells : row.Tells (s.done ++ [report])) :
    IsExact ⟨some row, lastId, s.calls.set i ⟨report, .returned id⟩⟩ := by
  have hperm := perm_done_set ⟨report, .returned id⟩ hcall hphase
  refine ⟨noneRaised_set h.noneRaised nofun, nofun, ?_⟩
  rintro _ ⟨rfl⟩
  refine ⟨fun hnil => ?_, htells.perm hperm.symm⟩
  exact absurd (hperm.symm.trans (hnil ▸ List.Perm.refl _)).eq_nil (by simp [Call.done])

/-- A statement that no other call has disturbed keeps the metrics exact. -/
lemma MetricsState.IsExact.step (h : s.IsExact) (hstep : UndisturbedStep s s') : s'.IsExact := by
  cases hstep with
  | select hcall => exact h.of_open hcall nofun rfl nofun
  | @write i report seen now hcall hseen =>
    subst hseen
    unfold MetricsState.write
    cases hrow : s.row with
    | none =>
      refine h.of_returned hcall nofun ?_
      rw [h.noRow hrow]
      exact tells_inserted _
    | some row =>
      obtain ⟨hne, htells⟩ := h.tells row hrow
      exact h.of_returned hcall nofun (htells.updated hne)

lemma reports_step (hstep : UndisturbedStep s s') :
    s'.calls.map Call.report = s.calls.map Call.report := by
  have hset : ∀ {i : ℕ} {report : Report} {phase other : CallPhase},
      s.calls[i]? = some ⟨report, phase⟩ →
        (s.calls.set i ⟨report, other⟩).map Call.report = s.calls.map Call.report := by
    intro i report phase other hcall
    obtain ⟨hlt, hget⟩ := List.getElem?_eq_some_iff.mp hcall
    have hself := List.set_getElem_self
      (show i < (s.calls.map Call.report).length by simpa using hlt)
    rw [List.getElem_map, hget] at hself
    rw [List.map_set]
    exact hself
  cases hstep with
  | select hcall => exact hset hcall
  | @write i report seen now hcall hseen =>
    unfold MetricsState.write
    split
    · exact hset hcall
    · split <;> exact hset hcall

end Step

/-! ### All statements -/

section Run

variable {s : MetricsState} {reports : List Report}

lemma isExact_start : (MetricsState.start reports).IsExact where
  noneRaised call hcall := by
    obtain ⟨report, -, rfl⟩ := List.mem_map.mp hcall
    exact nofun
  noRow _ := List.flatMap_eq_nil_iff.mpr fun call hcall => by
    obtain ⟨report, -, rfl⟩ := List.mem_map.mp hcall
    rfl
  tells _ hrow := nomatch hrow

lemma reports_run (h : Relation.ReflTransGen UndisturbedStep (MetricsState.start reports) s) :
    s.calls.map Call.report = reports := by
  induction h with
  | refl => simp [MetricsState.start, Function.comp_def]
  | tail _ hstep ih => exact (reports_step hstep).trans ih

lemma isExact_run (h : Relation.ReflTransGen UndisturbedStep (MetricsState.start reports) s) :
    s.IsExact := by
  induction h with
  | refl => exact isExact_start
  | tail _ hstep ih => exact ih.step hstep

/-- Where all calls have returned, all reports are counted. -/
lemma done_of_finished (hraised : ∀ call ∈ s.calls, call.phase ≠ .raised) (h : s.Finished) :
    s.done = s.calls.map Call.report := by
  unfold MetricsState.done
  rw [List.map_eq_flatMap]
  refine List.flatMap_congr fun call hcall => ?_
  obtain ⟨id, hid⟩ := (h call hcall).resolve_left (hraised call hcall)
  rw [Call.done, hid]

/-- Where no call writes between the two statements of another one, the row tells the reports of
the calls that have returned in every state of the run, and all reports in the end. -/
theorem losesNothing_of_undisturbed (reports : List Report) (s : MetricsState)
    (h : Relation.ReflTransGen UndisturbedStep (MetricsState.start reports) s) :
    s.IsExact ∧ (s.Finished → s.LosesNothing reports) := by
  have hexact := isExact_run h
  refine ⟨hexact, fun hfinished => ⟨hexact.noneRaised, fun hne => ?_⟩⟩
  have hdone : s.done = reports :=
    (done_of_finished hexact.noneRaised hfinished).trans (reports_run h)
  cases hrow : s.row with
  | none => exact absurd (hdone.symm.trans (hexact.noRow hrow)) hne
  | some row => exact ⟨row, rfl, hdone ▸ (hexact.tells row hrow).2⟩

end Run

/-! ### Two reports -/

/-- A success and a failure. -/
def twoReports : List Report := [⟨true, 10, none, "1.0"⟩, ⟨false, 30, some "timeout", "1.0"⟩]

/-- The second of two calls begins after the first has ended. -/
def oneAfterTheOther : MetricsState :=
  ((((MetricsState.start twoReports).select 0 ⟨true, 10, none, "1.0"⟩).write 0
    ⟨true, 10, none, "1.0"⟩ none "2026-01-01T12:00:00Z").select 1
      ⟨false, 30, some "timeout", "1.0"⟩).write 1 ⟨false, 30, some "timeout", "1.0"⟩
        (some (inserted ⟨true, 10, none, "1.0"⟩ 1 "2026-01-01T12:00:00Z")) "2026-01-01T12:00:01Z"

theorem losesNothing_of_undisturbed_oneAfterTheOther :
    oneAfterTheOther.IsExact ∧
      (oneAfterTheOther.Finished → oneAfterTheOther.LosesNothing twoReports) :=
  losesNothing_of_undisturbed twoReports oneAfterTheOther
    ((((Relation.ReflTransGen.single (.select rfl)).tail (.write rfl rfl)).tail (.select rfl)).tail
      (.write rfl rfl))

/-- Both calls find no row, and the database refuses the row of the second. -/
theorem not_losesNothing :
    ¬∀ (reports : List Report) (s : MetricsState),
      Relation.ReflTransGen MetricStep (MetricsState.start reports) s → s.Finished →
        s.LosesNothing reports := by
  intro h
  have hlost := h twoReports
    ((((((MetricsState.start twoReports).select 0 ⟨true, 10, none, "1.0"⟩).select 1
      ⟨false, 30, some "timeout", "1.0"⟩).write 0 ⟨true, 10, none, "1.0"⟩ none
        "2026-01-01T12:00:00Z").write 1 ⟨false, 30, some "timeout", "1.0"⟩ none
          "2026-01-01T12:00:00Z"))
    ((((Relation.ReflTransGen.single (.select rfl)).tail (.select rfl)).tail (.write rfl)).tail
      (.write rfl))
    (by
      intro call hcall
      simp only [MetricsState.write, MetricsState.select, MetricsState.start, twoReports,
        List.map_cons, List.map_nil, List.set_cons_zero, List.set_cons_succ, List.mem_cons,
        List.not_mem_nil, or_false] at hcall
      rcases hcall with rfl | rfl
      · exact .inr ⟨1, rfl⟩
      · exact .inl rfl)
  exact hlost.noneRaised ⟨⟨false, 30, some "timeout", "1.0"⟩, .raised⟩ (by decide) rfl

end Trion.Memory
