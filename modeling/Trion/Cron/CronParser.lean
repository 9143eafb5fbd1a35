import Trion.Cron.Contracts

/-!
# Cron expressions

Parsing a cron expression into the sets of values of its five fields, matching a wall-clock
time against them, and the estimate of the smallest interval between two matches.  The main
result is that the normalised text of an accepted expression is accepted with the same
fields, and has no white space around it.
-/

namespace Trion.Cron

open Trion.Python

variable (rt : PyRuntime)

/-! ### Parsing -/

/-- `_CronField`. -/
structure CronField where
  values : List ℤ
  any : Bool
deriving DecidableEq, Repr

/-- `range(start, stop + 1, step)` for a positive step. -/
def stepRange (start stop step : ℤ) : List ℤ :=
  (List.range ((stop - start) / step + 1).toNat).map fun k => start + step * k

/-- `_parse_int`. -/
def parseIntBetween (token : String) (lo hi : ℤ) (label : String) : Except CronError ℤ :=
  match rt.parseInt token with
  | none => .error (.parse s!"{label}: invalid int '{token}'")
  | some value =>
    if value < lo || value > hi then
      .error (.parse s!"{label}: {value} out of range [{lo},{hi}]")
    else .ok value

/-- `_expand_segment`. -/
def expandSegment (segment : String) (lo hi : ℤ) (label : String) :
    Except CronError (List ℤ) := do
  let seg := strip segment
  if seg = "" then .error (.parse s!"{label}: empty segment")
  let (base, step) ←
    if '/' ∈ seg.toList then do
      let step ← parseIntBetween rt (afterFirst '/' seg) 1 (hi - lo + 1) s!"{label} step"
      .ok (beforeFirst '/' seg, step)
    else .ok (seg, 1)
  let (start, stop) ←
    if base = "*" ∨ base = "" then .ok (lo, hi)
    else if '-' ∈ base.toList then do
      let start ← parseIntBetween rt (beforeFirst '-' base) lo hi s!"{label} start"
      let stop ← parseIntBetween rt (afterFirst '-' base) lo hi s!"{label} end"
      if stop < start then .error (.parse s!"{label}: range end < start")
      .ok (start, stop)
    else do
      let value ← parseIntBetween rt base lo hi label
      .ok (value, value)
  return stepRange start stop step

/-- `_parse_field`. -/
def parseField (raw : String) (lo hi : ℤ) (label : String) (normalize7To0 : Bool) :
    Except CronError CronField := do
  let token := strip raw
  if token = "*" then return { values := stepRange lo hi 1, any := true }
  let expanded ← (splitOn ',' token).mapM fun part => expandSegment rt part lo hi label
  let values := expanded.flatten.map fun x => if normalize7To0 && x == 7 then 0 else x
  if values = [] then .error (.parse s!"{label}: no values parsed")
  return { values := values, any := false }

/-- A parsed cron expression. -/
structure ParsedCron where
  expr : String
  minute : CronField
  hour : CronField
  dayOfMonth : CronField
  month : CronField
  dayOfWeek : CronField
deriving DecidableEq, Repr

/-- `parse_cron_expression`. -/
def parseCronExpression (expr : String) : Except CronError ParsedCron :=
  match strSplit (strip expr) with
  | [minute, hour, dayOfMonth, month, dayOfWeek] => do
    return {
      expr := joinWords [minute, hour, dayOfMonth, month, dayOfWeek]
      minute := ← parseField rt minute 0 59 "minute" false
      hour := ← parseField rt hour 0 23 "hour" false
      dayOfMonth := ← parseField rt dayOfMonth 1 31 "day_of_month" false
      month := ← parseField rt month 1 12 "month" false
      dayOfWeek := ← parseField rt dayOfWeek 0 7 "day_of_week" true }
  | _ => .error (.parse "cron expression must have 5 fields: min hour dom month dow")

/-- `validate_cron_expression(expr)["normalized"]`. -/
def validateCronExpression (expr : String) : Except CronError String :=
  (parseCronExpression rt expr).map ParsedCron.expr

variable {rt}

private lemma parseCronExpression_shape {expr : String} {parsed : ParsedCron}
    (h : parseCronExpression rt expr = .ok parsed) :
    ∃ words, (∀ w ∈ words, IsWord w) ∧ words ≠ [] ∧ parsed.expr = joinWords words ∧
      ∀ expr', strSplit (strip expr') = words → parseCronExpression rt expr' = .ok parsed := by
  unfold parseCronExpression at h
  split at h
  · rename_i minute hour dayOfMonth month dayOfWeek hwords
    refine ⟨[minute, hour, dayOfMonth, month, dayOfWeek], ?_, by simp, ?_, ?_⟩
    · intro w hw
      exact isWord_of_mem_strSplit (hwords ▸ hw)
    · simp only [bind, Except.bind] at h
      repeat' split at h
      all_goals first
        | exact absurd h (by simp)
        | (obtain rfl : _ = parsed := by simpa [pure, Except.pure] using h
           rfl)
    · intro expr' hexpr
      unfold parseCronExpression
      rw [hexpr]
      exact h
  · simp at h

/-- The normalised text of an accepted expression is accepted, with the same fields. -/
theorem parseCronExpression_expr {expr : String} {parsed : ParsedCron}
    (h : parseCronExpression rt expr = .ok parsed) :
    parseCronExpression rt parsed.expr = .ok parsed := by
  obtain ⟨words, hwords, -, hexpr, hall⟩ := parseCronExpression_shape h
  apply hall
  rw [hexpr, strip_joinWords hwords, strSplit_joinWords hwords]

/-- The normalised text of an accepted expression has no white space around it. -/
theorem strip_expr {expr : String} {parsed : ParsedCron}
    (h : parseCronExpression rt expr = .ok parsed) : strip parsed.expr = parsed.expr := by
  obtain ⟨words, hwords, -, hexpr, -⟩ := parseCronExpression_shape h
  rw [hexpr, strip_joinWords hwords]

/-! ### Matching -/

/-- `cron_matches`. -/
def cronMatches (parsed : ParsedCron) (t : WallTime) : Bool :=
  let domMatch := parsed.dayOfMonth.values.contains (t.day : ℤ)
  let dowMatch := parsed.dayOfWeek.values.contains (((t.weekday + 1) % 7 : ℕ) : ℤ)
  parsed.minute.values.contains (t.minute : ℤ) && parsed.hour.values.contains (t.hour : ℤ) &&
    parsed.month.values.contains (t.month : ℤ) &&
    if parsed.dayOfMonth.any && parsed.dayOfWeek.any then true
    else if parsed.dayOfMonth.any then dowMatch
    else if parsed.dayOfWeek.any then domMatch
    else domMatch || dowMatch

/-! ### The smallest interval -/

/-- The loop of `estimate_min_interval_seconds` from minute `i` on, over at most `fuel` minutes:
`prev` is the minute of the last hit. -/
def scanIntervals (hit : ℕ → Bool) (maxHits : ℕ) :
    ℕ → ℕ → Option ℕ → Option ℕ → ℕ → Option ℕ
  | 0, _, _, minDelta, _ => minDelta
  | fuel + 1, i, prev, minDelta, hits =>
    if hit i then
      let minDelta' := match prev with
        | none => minDelta
        | some p =>
          let delta := max 60 ((i - p) * 60)
          some (match minDelta with
            | none => delta
            | some m => min m delta)
      -- no interval is shorter than a minute
      if prev.isSome && minDelta'.any (· ≤ 60) then minDelta'
      else if hits + 1 ≥ maxHits && minDelta'.isSome then minDelta'
      else scanIntervals hit maxHits fuel (i + 1) (some i) minDelta' (hits + 1)
    else scanIntervals hit maxHits fuel (i + 1) prev minDelta hits

/-- `estimate_min_interval_seconds`: the minutes of the 35 days from 1 January 2026 on. -/
def estimateMinIntervalSeconds (parsed : ParsedCron) : ℤ :=
  let base := toordinal 2026 1 1
  let hit i := cronMatches parsed (WallTime.ofOrdinal base i)
  ((scanIntervals hit 40 (35 * 24 * 60 + 1) 0 none none 0).getD (366 * 24 * 60 * 60) : ℕ)

end Trion.Cron
