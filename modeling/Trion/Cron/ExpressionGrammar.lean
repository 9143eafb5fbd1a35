import Mathlib.Data.List.Forall2
import Trion.Cron.CronParser

/-!
# The grammar of cron expressions

The expressions that are accepted, and the sets their fields hold.  Numbers are what `int` reads
(a sign, decimal digits of any script, underscores between them), a base may be left out in front
of a step, and a step is at most the number of values of its field.  The grammar is given for any
such choice, and the one with ASCII digits, without missing bases and with steps of any size is
another instance of it.
-/

namespace Trion.Cron

open Trion.Python

/-! ### The grammar -/

/-- What is open in the grammar of cron expressions. -/
structure CronGrammar where
  number : String → Option ℤ
  /-- The base of a segment may be left out in front of a step. -/
  missingBase : Bool
  /-- A step is at most the number of values of its field. -/
  boundedStep : Bool

variable (g : CronGrammar) (lo hi : ℤ)

/-- The base of a segment, with the first and the last value. -/
inductive BaseReads : String → ℤ → ℤ → Prop
  | all : BaseReads "*" lo hi
  | missing (h : g.missingBase = true) : BaseReads "" lo hi
  | single {base : String} {n : ℤ} (hstar : base ≠ "*") (hempty : base ≠ "")
      (hdash : '-' ∉ base.toList) (hn : g.number base = some n) (hlo : lo ≤ n) (hhi : n ≤ hi) :
      BaseReads base n n
  | range {base : String} {m n : ℤ} (hdash : '-' ∈ base.toList)
      (hm : g.number (beforeFirst '-' base) = some m)
      (hn : g.number (afterFirst '-' base) = some n) (hlo : lo ≤ m) (hle : m ≤ n) (hhi : n ≤ hi) :
      BaseReads base m n

/-- A segment, with the first and the last value and the step. -/
inductive SegmentReads : String → ℤ → ℤ → ℤ → Prop
  | plain {segment : String} {start stop : ℤ} (hempty : segment ≠ "")
      (hslash : '/' ∉ segment.toList) (hbase : BaseReads g lo hi segment start stop) :
      SegmentReads segment start stop 1
  | stepped {segment : String} {start stop step : ℤ} (hslash : '/' ∈ segment.toList)
      (hbase : BaseReads g lo hi (beforeFirst '/' segment) start stop)
      (hstep : g.number (afterFirst '/' segment) = some step) (hpos : 1 ≤ step)
      (hbound : g.boundedStep = true → step ≤ hi - lo + 1) :
      SegmentReads segment start stop step

/-- A field is a list of segments. -/
def FieldReads (raw : String) : Prop :=
  ∀ segment ∈ splitOn ',' raw, ∃ start stop step, SegmentReads g lo hi segment start stop step

/-- The values of a field: those of its segments. -/
def FieldDenotes (raw : String) (x : ℤ) : Prop :=
  ∃ segment ∈ splitOn ',' raw, ∃ start stop step, SegmentReads g lo hi segment start stop step ∧
    ∃ k : ℕ, x = start + step * k ∧ x ≤ stop

/-- An expression has five fields. -/
def IsCronExpression (expr : String) : Prop :=
  ∃ minute hour dayOfMonth month dayOfWeek,
    strSplit expr = [minute, hour, dayOfMonth, month, dayOfWeek] ∧
    FieldReads g 0 59 minute ∧ FieldReads g 0 23 hour ∧ FieldReads g 1 31 dayOfMonth ∧
    FieldReads g 1 12 month ∧ FieldReads g 0 7 dayOfWeek

/-- The fields of an expression hold what they denote, where `readsWeekday raw x` says that the
field of the weekday `raw` holds `x`. -/
def HoldsUnions (readsWeekday : String → ℤ → Prop) (expr : String) (parsed : ParsedCron) : Prop :=
  ∃ minute hour dayOfMonth month dayOfWeek,
    strSplit expr = [minute, hour, dayOfMonth, month, dayOfWeek] ∧
    (∀ x, x ∈ parsed.minute.values ↔ FieldDenotes g 0 59 minute x) ∧
    (∀ x, x ∈ parsed.hour.values ↔ FieldDenotes g 0 23 hour x) ∧
    (∀ x, x ∈ parsed.dayOfMonth.values ↔ FieldDenotes g 1 31 dayOfMonth x) ∧
    (∀ x, x ∈ parsed.month.values ↔ FieldDenotes g 1 12 month x) ∧
    ∀ x, x ∈ parsed.dayOfWeek.values ↔ readsWeekday dayOfWeek x

/-- The weekdays of a field, with 7 read as 0. -/
def WeekdayDenotes (raw : String) (x : ℤ) : Prop :=
  ∃ y, FieldDenotes g 0 7 raw y ∧ x = if y = 7 then 0 else y

/-- The grammar of the parser. -/
def parserGrammar (rt : PyRuntime) : CronGrammar where
  number := rt.parseInt
  missingBase := true
  boundedStep := true

/-- The grammar of the parser, with what `int` reads. -/
def intGrammar (table : DecimalDigits) : CronGrammar where
  number := table.int?
  missingBase := true
  boundedStep := true

/-- The grammar with ASCII digits only, in which a base is never missing. -/
def decimalGrammar : CronGrammar where
  number s := if s = "" then none else (digits? s.toList).map Nat.cast
  missingBase := false
  boundedStep := false

/-- The weekdays that the parser holds: the field `*` is taken as it is. -/
def parserWeekdays (raw : String) (x : ℤ) : Prop :=
  if raw = "*" then 0 ≤ x ∧ x ≤ 7 else WeekdayDenotes g raw x

/-- An expression is accepted exactly if the grammar has it, and then its fields hold the unions
of what their segments denote. -/
def Obeys (readsWeekday : String → ℤ → Prop) (rt : PyRuntime) (expr : String) : Prop :=
  ((∃ parsed, parseCronExpression rt expr = .ok parsed) ↔ IsCronExpression g expr) ∧
    ∀ parsed, parseCronExpression rt expr = .ok parsed → HoldsUnions g readsWeekday expr parsed

lemma parserGrammar_eq (env : CronRuntime) :
    parserGrammar env.toPyRuntime = intGrammar env.digits := by
  have hnumber : env.parseInt = env.digits.int? := funext env.parseInt_eq
  rw [parserGrammar, hnumber, intGrammar]

/-! ### Segments -/

variable {rt : PyRuntime} {lo hi} {label : String}

lemma parseIntBetween_eq_ok_iff {token : String} {n : ℤ} :
    parseIntBetween rt token lo hi label = .ok n ↔ rt.parseInt token = some n ∧ lo ≤ n ∧ n ≤ hi := by
  unfold parseIntBetween
  split
  · rename_i hnone
    simp [hnone]
  · rename_i value hvalue
    split
    · rename_i hout
      simp only [Bool.or_eq_true, decide_eq_true_eq] at hout
      simp only [hvalue, reduceCtorEq, Option.some.injEq, false_iff, not_and]
      rintro rfl
      omega
    · rename_i hin
      simp only [Bool.or_eq_true, decide_eq_true_eq, not_or] at hin
      rw [hvalue, Except.ok.injEq, Option.some.injEq]
      constructor
      · rintro rfl
        exact ⟨rfl, by omega⟩
      · exact fun h => h.1

/-- The values from `start` to `stop` in steps. -/
lemma mem_stepRange {start stop step x : ℤ} (hstep : 1 ≤ step) :
    x ∈ stepRange start stop step ↔ ∃ k : ℕ, x = start + step * k ∧ x ≤ stop := by
  have hcount (k : ℕ) : k < ((stop - start) / step + 1).toNat ↔ start + step * k ≤ stop := by
    have hdiv := Int.le_ediv_iff_mul_le (a := k) (b := stop - start) (c := step) (by omega)
    rw [Int.mul_comm (k : ℤ) step] at hdiv
    omega
  have hmem : x ∈ stepRange start stop step ↔
      ∃ k : ℕ, k < ((stop - start) / step + 1).toNat ∧ start + step * k = x := by
    simp [stepRange]
  rw [hmem]
  constructor
  · rintro ⟨k, hk, rfl⟩
    exact ⟨k, rfl, (hcount k).mp hk⟩
  · rintro ⟨k, rfl, hle⟩
    exact ⟨k, (hcount k).mpr hle, rfl⟩

/-- The part of `_expand_segment` that reads the base. -/
def readBase (rt : PyRuntime) (base : String) (lo hi : ℤ) (label : String) :
    Except CronError (ℤ × ℤ) :=
  if base = "*" ∨ base = "" then .ok (lo, hi)
  else if '-' ∈ base.toList then do
    let start ← parseIntBetween rt (beforeFirst '-' base) lo hi s!"{label} start"
    let stop ← parseIntBetween rt (afterFirst '-' base) lo hi s!"{label} end"
    if stop < start then .error (.parse s!"{label}: range end < start")
    .ok (start, stop)
  else do
    let value ← parseIntBetween rt base lo hi label
    .ok (value, value)

/-- The part of `_expand_segment` that reads the step. -/
def readStep (rt : PyRuntime) (seg : String) (lo hi : ℤ) (label : String) :
    Except CronError (String × ℤ) :=
  if '/' ∈ seg.toList then do
    let step ← parseIntBetween rt (afterFirst '/' seg) 1 (hi - lo + 1) s!"{label} step"
    .ok (beforeFirst '/' seg, step)
  else .ok (seg, 1)

private lemma ite_bind {α β : Type} {c : Prop} [Decidable c] (x y : Except CronError α)
    (f : α → Except CronError β) : (if c then x else y) >>= f = if c then x >>= f else y >>= f := by
  split <;> rfl

lemma expandSegment_eq {segment : String} (hstrip : strip segment = segment)
    (hempty : segment ≠ "") : expandSegment rt segment lo hi label =
      (readStep rt segment lo hi label >>= fun p => readBase rt p.1 lo hi label >>= fun q =>
        .ok (stepRange q.1 q.2 p.2)) := by
  unfold expandSegment
  simp only [hstrip, if_neg hempty, readStep, readBase, ite_bind, bind_ok, bind_assoc]
  rfl

lemma readBase_eq_ok_iff {base : String} {start stop : ℤ} :
    readBase rt base lo hi label = .ok (start, stop) ↔
      BaseReads (parserGrammar rt) lo hi base start stop := by
  unfold readBase
  split
  · rename_i hopen
    rw [Except.ok.injEq, Prod.mk.injEq]
    constructor
    · rintro ⟨rfl, rfl⟩
      rcases hopen with rfl | rfl
      · exact .all
      · exact .missing rfl
    · intro h
      cases h with
      | all | missing => exact ⟨rfl, rfl⟩
      | single hstar hempty => exact absurd hopen (not_or.mpr ⟨hstar, hempty⟩)
      | range hdash =>
        rcases hopen with rfl | rfl
        · exact absurd hdash (by decide)
        · exact absurd hdash (by decide)
  · rename_i hclosed
    obtain ⟨hstar, hempty⟩ := not_or.mp hclosed
    split
    · rename_i hdash
      constructor
      · intro h
        obtain ⟨m, hm, h⟩ := ok_of_bind h
        obtain ⟨n, hn, h⟩ := ok_of_bind h
        split at h
        · simp [bind, Except.bind] at h
        · rename_i hle
          obtain ⟨rfl, rfl⟩ := Prod.mk.inj (Except.ok.inj h)
          obtain ⟨hm, hlo, -⟩ := parseIntBetween_eq_ok_iff.mp hm
          obtain ⟨hn, -, hhi⟩ := parseIntBetween_eq_ok_iff.mp hn
          exact .range hdash hm hn hlo (by omega) hhi
      · intro h
        cases h with
        | all => exact absurd rfl hstar
        | missing => exact absurd rfl hempty
        | single _ _ hno => exact absurd hdash hno
        | range _ hm hn hlo hle hhi =>
          rw [parseIntBetween_eq_ok_iff.mpr ⟨hm, hlo, by omega⟩, bind_ok,
            parseIntBetween_eq_ok_iff.mpr ⟨hn, by omega, hhi⟩, bind_ok, if_neg (by omega)]
    · rename_i hdash
      constructor
      · intro h
        obtain ⟨n, hn, h⟩ := ok_of_bind h
        obtain ⟨rfl, rfl⟩ := Prod.mk.inj (Except.ok.inj h)
        obtain ⟨hn, hlo, hhi⟩ := parseIntBetween_eq_ok_iff.mp hn
        exact .single hstar hempty hdash hn hlo hhi
      · intro h
        cases h with
        | all => exact absurd rfl hstar
        | missing => exact absurd rfl hempty
        | single _ _ _ hn hlo hhi =>
          rw [parseIntBetween_eq_ok_iff.mpr ⟨hn, hlo, hhi⟩, bind_ok]
        | range hyes => exact absurd hyes hdash

/-- What a segment is expanded to. -/
lemma expandSegment_eq_ok_iff {segment : String} (hstrip : strip segment = segment)
    {values : List ℤ} : expandSegment rt segment lo hi label = .ok values ↔
      ∃ start stop step, SegmentReads (parserGrammar rt) lo hi segment start stop step ∧
        values = stepRange start stop step := by
  by_cases hempty : segment = ""
  · subst hempty
    constructor
    · intro h
      unfold expandSegment at h
      rw [hstrip] at h
      simp [bind, Except.bind] at h
    · rintro ⟨start, stop, step, h, -⟩
      cases h with
      | plain hne => exact absurd rfl hne
      | stepped hslash => exact absurd hslash (by decide)
  · rw [expandSegment_eq hstrip hempty]
    constructor
    · intro h
      obtain ⟨⟨base, step⟩, hstep, h⟩ := ok_of_bind h
      obtain ⟨⟨start, stop⟩, hbase, h⟩ := ok_of_bind h
      obtain rfl := Except.ok.inj h
      rw [readBase_eq_ok_iff] at hbase
      refine ⟨start, stop, step, ?_, rfl⟩
      unfold readStep at hstep
      split at hstep
      · rename_i hslash
        obtain ⟨n, hn, hstep⟩ := ok_of_bind hstep
        obtain ⟨rfl, rfl⟩ := Prod.mk.inj (Except.ok.inj hstep)
        obtain ⟨hn, hpos, hbound⟩ := parseIntBetween_eq_ok_iff.mp hn
        exact .stepped hslash hbase hn hpos fun _ => hbound
      · rename_i hslash
        obtain ⟨rfl, rfl⟩ := Prod.mk.inj (Except.ok.inj hstep)
        exact .plain hempty hslash hbase
    · rintro ⟨start, stop, step, h, rfl⟩
      cases h with
      | plain _ hslash hbase =>
        rw [readStep, if_neg hslash, bind_ok, readBase_eq_ok_iff.mpr hbase, bind_ok]
      | stepped hslash hbase hstep hpos hbound =>
        rw [readStep, if_pos hslash, parseIntBetween_eq_ok_iff.mpr ⟨hstep, hpos, hbound rfl⟩,
          bind_ok, bind_ok, readBase_eq_ok_iff.mpr hbase, bind_ok]

lemma SegmentReads.step_pos {g : CronGrammar} {segment : String} {start stop step : ℤ}
    (h : SegmentReads g lo hi segment start stop step) : 1 ≤ step := by
  cases h with
  | plain => exact Int.le_refl 1
  | stepped _ _ _ hpos => exact hpos

/-- A segment has a value. -/
lemma SegmentReads.start_le {g : CronGrammar} {segment : String} {start stop step : ℤ}
    (h : SegmentReads g lo hi segment start stop step) (hrange : lo ≤ hi) : start ≤ stop := by
  have hbase : ∀ {base : String}, BaseReads g lo hi base start stop → start ≤ stop := by
    intro base hbase
    cases hbase with
    | all | missing => exact hrange
    | single => exact Int.le_refl _
    | range _ _ _ _ hle _ => exact hle
  cases h with
  | plain _ _ h => exact hbase h
  | stepped _ h => exact hbase h

/-- The readings of a segment have the same values. -/
lemma SegmentReads.values_eq {segment : String} (hstrip : strip segment = segment)
    {start stop step start' stop' step' : ℤ}
    (h : SegmentReads (parserGrammar rt) lo hi segment start stop step)
    (h' : SegmentReads (parserGrammar rt) lo hi segment start' stop' step') :
    stepRange start stop step = stepRange start' stop' step' := by
  have hleft := (@expandSegment_eq_ok_iff lo hi rt "" _ hstrip _).mpr ⟨start, stop, step, h, rfl⟩
  have hright := (@expandSegment_eq_ok_iff lo hi rt "" _ hstrip _).mpr ⟨start', stop', step', h', rfl⟩
  exact Except.ok.inj (hleft.symm.trans hright)

/-! ### Fields -/

/-- The value a field holds for one that is denoted. -/
def weekdayValue (normalize7To0 : Bool) (x : ℤ) : ℤ := if normalize7To0 && x == 7 then 0 else x

lemma segmentReads_star (g : CronGrammar) (lo hi : ℤ) : SegmentReads g lo hi "*" lo hi 1 :=
  .plain (by decide) (by decide) .all

/-- The segments of a field in the order in which they are expanded. -/
lemma mapM_expandSegment_iff {raw : String} (hraw : IsWord raw) {expanded : List (List ℤ)} :
    ((splitOn ',' raw).mapM fun part => expandSegment rt part lo hi label) = .ok expanded ↔
      List.Forall₂ (fun segment values => ∃ start stop step,
        SegmentReads (parserGrammar rt) lo hi segment start stop step ∧
          values = stepRange start stop step) (splitOn ',' raw) expanded := by
  rw [mapM_eq_ok_iff]
  have hparts : ∀ part ∈ splitOn ',' raw, strip part = part := fun part =>
    strip_of_mem_splitOn hraw
  generalize splitOn ',' raw = parts at hparts
  constructor
  · intro h
    induction h with
    | nil => exact .nil
    | cons hx _ ih =>
      exact .cons ((expandSegment_eq_ok_iff (hparts _ List.mem_cons_self)).mp hx)
        (ih fun part hpart => hparts part (List.mem_cons_of_mem _ hpart))
  · intro h
    induction h with
    | nil => exact .nil
    | cons hx _ ih =>
      exact .cons ((expandSegment_eq_ok_iff (hparts _ List.mem_cons_self)).mpr hx)
        (ih fun part hpart => hparts part (List.mem_cons_of_mem _ hpart))

/-- A field other than `*` that is accepted. -/
lemma parseField_eq_ok {raw : String} (hraw : IsWord raw) (hstar : raw ≠ "*")
    {normalize7To0 : Bool} {field : CronField}
    (h : parseField rt raw lo hi label normalize7To0 = .ok field) :
    ∃ expanded, ((splitOn ',' raw).mapM fun part => expandSegment rt part lo hi label) =
      .ok expanded ∧ field.values = expanded.flatten.map (weekdayValue normalize7To0) := by
  unfold parseField at h
  simp only [strip_of_isWord hraw, if_neg hstar] at h
  obtain ⟨expanded, hexpanded, h⟩ := ok_of_bind h
  refine ⟨expanded, hexpanded, ?_⟩
  split at h
  · simp [bind, Except.bind] at h
  · obtain rfl := Except.ok.inj h
    rfl

/-- Exactly the lists of segments are accepted. -/
lemma parseField_ok_iff {raw : String} (hraw : IsWord raw) (hrange : lo ≤ hi)
    {normalize7To0 : Bool} : (∃ field, parseField rt raw lo hi label normalize7To0 = .ok field) ↔
      FieldReads (parserGrammar rt) lo hi raw := by
  by_cases hstar : raw = "*"
  · subst hstar
    constructor
    · intro _ segment hsegment
      obtain rfl : segment = "*" := by
        have hsplit : splitOn ',' "*" = ["*"] := by decide
        simpa [hsplit] using hsegment
      exact ⟨lo, hi, 1, segmentReads_star _ lo hi⟩
    · intro _
      refine ⟨⟨stepRange lo hi 1, true⟩, ?_⟩
      unfold parseField
      rw [strip_of_isWord hraw]
      rfl
  · constructor
    · rintro ⟨field, h⟩ segment hsegment
      obtain ⟨expanded, hexpanded, -⟩ := parseField_eq_ok hraw hstar h
      rw [mapM_expandSegment_iff hraw] at hexpanded
      obtain ⟨values, -, hvalues⟩ := exists_of_mem_forall₂ hexpanded.flip hsegment
      obtain ⟨start, stop, step, hreads, -⟩ := hvalues
      exact ⟨start, stop, step, hreads⟩
    · intro h
      obtain ⟨expanded, hexpanded⟩ : ∃ expanded, List.Forall₂ (fun segment values =>
          ∃ start stop step, SegmentReads (parserGrammar rt) lo hi segment start stop step ∧
            values = stepRange start stop step) (splitOn ',' raw) expanded := by
        unfold FieldReads at h
        generalize splitOn ',' raw = parts at h
        induction parts with
        | nil => exact ⟨[], .nil⟩
        | cons part parts ih =>
          obtain ⟨start, stop, step, hreads⟩ := h part List.mem_cons_self
          obtain ⟨expanded, hrest⟩ := ih fun p hp => h p (List.mem_cons_of_mem _ hp)
          exact ⟨_, .cons ⟨start, stop, step, hreads, rfl⟩ hrest⟩
      have hvalues : expanded.flatten.map (weekdayValue normalize7To0) ≠ [] := by
        obtain ⟨part, hpart⟩ : ∃ part, part ∈ splitOn ',' raw := by
          obtain ⟨cs, hcs⟩ := List.exists_mem_of_ne_nil _
            (List.splitOnP_ne_nil (· == ',') raw.toList)
          exact ⟨String.ofList cs, List.mem_map_of_mem hcs⟩
        obtain ⟨values, hmem, start, stop, step, hreads, rfl⟩ :=
          exists_of_mem_forall₂ hexpanded.flip hpart
        have hstart : start ∈ stepRange start stop step :=
          (mem_stepRange hreads.step_pos).mpr ⟨0, by simp, hreads.start_le hrange⟩
        exact List.ne_nil_of_mem (List.mem_map_of_mem (List.mem_flatten_of_mem hmem hstart))
      refine ⟨⟨expanded.flatten.map (weekdayValue normalize7To0), false⟩, ?_⟩
      unfold parseField
      simp only [strip_of_isWord hraw, if_neg hstar]
      rw [(mapM_expandSegment_iff hraw).mpr hexpanded, bind_ok]
      exact if_neg hvalues

/-- An accepted field holds what it denotes. -/
lemma mem_parseField {raw : String} (hraw : IsWord raw) {normalize7To0 : Bool} {field : CronField}
    (h : parseField rt raw lo hi label normalize7To0 = .ok field) (x : ℤ) :
    x ∈ field.values ↔ if raw = "*" then lo ≤ x ∧ x ≤ hi
      else ∃ y, FieldDenotes (parserGrammar rt) lo hi raw y ∧ x = weekdayValue normalize7To0 y := by
  split
  · rename_i hstar
    subst hstar
    unfold parseField at h
    simp only [strip_of_isWord hraw] at h
    obtain rfl := Except.ok.inj h
    rw [mem_stepRange (Int.le_refl 1)]
    constructor
    · rintro ⟨k, rfl, hle⟩
      omega
    · rintro ⟨hlo, hhi⟩
      exact ⟨(x - lo).toNat, by omega, hhi⟩
  · rename_i hstar
    obtain ⟨expanded, hexpanded, hvalues⟩ := parseField_eq_ok hraw hstar h
    rw [mapM_expandSegment_iff hraw] at hexpanded
    rw [hvalues, List.mem_map]
    constructor
    · rintro ⟨y, hy, rfl⟩
      obtain ⟨values, hmem, hy⟩ := List.mem_flatten.mp hy
      obtain ⟨segment, hsegment, start, stop, step, hreads, rfl⟩ :=
        exists_of_mem_forall₂ hexpanded hmem
      exact ⟨y, ⟨segment, hsegment, start, stop, step, hreads,
        (mem_stepRange hreads.step_pos).mp hy⟩, rfl⟩
    · rintro ⟨y, ⟨segment, hsegment, start, stop, step, hreads, hy⟩, rfl⟩
      obtain ⟨values, hmem, start', stop', step', hreads', rfl⟩ :=
        exists_of_mem_forall₂ hexpanded.flip hsegment
      refine ⟨y, List.mem_flatten_of_mem hmem ?_, rfl⟩
      rw [hreads'.values_eq (strip_of_mem_splitOn hraw hsegment) hreads]
      exact (mem_stepRange hreads.step_pos).mpr hy

lemma weekdayValue_false (x : ℤ) : weekdayValue false x = x := rfl

/-- The values of a field other than the one of the weekday. -/
lemma mem_parseField_plain {raw : String} (hraw : IsWord raw) {field : CronField}
    (h : parseField rt raw lo hi label false = .ok field) (x : ℤ) :
    x ∈ field.values ↔ FieldDenotes (parserGrammar rt) lo hi raw x := by
  rw [mem_parseField hraw h]
  split
  · rename_i hstar
    subst hstar
    have hsplit : splitOn ',' "*" = ["*"] := by decide
    unfold FieldDenotes
    rw [hsplit]
    constructor
    · rintro ⟨hlo, hhi⟩
      exact ⟨"*", List.mem_singleton_self _, lo, hi, 1, segmentReads_star _ lo hi,
        (x - lo).toNat, by omega, hhi⟩
    · rintro ⟨segment, hsegment, start, stop, step, hreads, hx⟩
      obtain rfl := List.mem_singleton.mp hsegment
      have hvalues := hreads.values_eq (by decide) (segmentReads_star _ lo hi)
      have hmem := (mem_stepRange hreads.step_pos).mpr hx
      rw [hvalues, mem_stepRange (Int.le_refl 1)] at hmem
      omega
  · simp only [weekdayValue_false, exists_eq_right']

/-! ### Expressions -/

/-- The fields of an accepted expression. -/
lemma parseCronExpression_eq_ok {expr : String} {parsed : ParsedCron}
    (h : parseCronExpression rt expr = .ok parsed) :
    ∃ minute hour dayOfMonth month dayOfWeek,
      strSplit expr = [minute, hour, dayOfMonth, month, dayOfWeek] ∧
      parseField rt minute 0 59 "minute" false = .ok parsed.minute ∧
      parseField rt hour 0 23 "hour" false = .ok parsed.hour ∧
      parseField rt dayOfMonth 1 31 "day_of_month" false = .ok parsed.dayOfMonth ∧
      parseField rt month 1 12 "month" false = .ok parsed.month ∧
      parseField rt dayOfWeek 0 7 "day_of_week" true = .ok parsed.dayOfWeek := by
  unfold parseCronExpression at h
  rw [strSplit_strip] at h
  split at h
  · rename_i minute hour dayOfMonth month dayOfWeek hwords
    obtain ⟨minuteField, hminute, h⟩ := ok_of_bind h
    obtain ⟨hourField, hhour, h⟩ := ok_of_bind h
    obtain ⟨domField, hdom, h⟩ := ok_of_bind h
    obtain ⟨monthField, hmonth, h⟩ := ok_of_bind h
    obtain ⟨dowField, hdow, h⟩ := ok_of_bind h
    obtain rfl := Except.ok.inj h
    exact ⟨minute, hour, dayOfMonth, month, dayOfWeek, hwords, hminute, hhour, hdom, hmonth, hdow⟩
  · simp at h

/-- The parser obeys its grammar. -/
lemma obeys_parserGrammar (rt : PyRuntime) (expr : String) :
    Obeys (parserGrammar rt) (parserWeekdays (parserGrammar rt)) rt expr := by
  have hwords : ∀ w ∈ strSplit expr, IsWord w := fun w => isWord_of_mem_strSplit
  refine ⟨⟨?_, ?_⟩, ?_⟩
  · rintro ⟨parsed, h⟩
    obtain ⟨minute, hour, dayOfMonth, month, dayOfWeek, hsplit, hminute, hhour, hdom, hmonth,
      hdow⟩ := parseCronExpression_eq_ok h
    simp only [hsplit, List.forall_mem_cons] at hwords
    obtain ⟨wminute, whour, wdom, wmonth, wdow, -⟩ := hwords
    exact ⟨minute, hour, dayOfMonth, month, dayOfWeek, hsplit,
      (parseField_ok_iff wminute (by decide)).mp ⟨_, hminute⟩,
      (parseField_ok_iff whour (by decide)).mp ⟨_, hhour⟩,
      (parseField_ok_iff wdom (by decide)).mp ⟨_, hdom⟩,
      (parseField_ok_iff wmonth (by decide)).mp ⟨_, hmonth⟩,
      (parseField_ok_iff wdow (by decide)).mp ⟨_, hdow⟩⟩
  · rintro ⟨minute, hour, dayOfMonth, month, dayOfWeek, hsplit, hminute, hhour, hdom, hmonth,
      hdow⟩
    simp only [hsplit, List.forall_mem_cons] at hwords
    obtain ⟨wminute, whour, wdom, wmonth, wdow, -⟩ := hwords
    have hfield {raw : String} (hraw : IsWord raw) {lo hi : ℤ} (hrange : lo ≤ hi) (label : String)
        (normalize7To0 : Bool) (h : FieldReads (parserGrammar rt) lo hi raw) :
        ∃ field, parseField rt raw lo hi label normalize7To0 = .ok field :=
      (parseField_ok_iff hraw hrange).mpr h
    obtain ⟨minuteField, hminute⟩ := hfield wminute (by decide) "minute" false hminute
    obtain ⟨hourField, hhour⟩ := hfield whour (by decide) "hour" false hhour
    obtain ⟨domField, hdom⟩ := hfield wdom (by decide) "day_of_month" false hdom
    obtain ⟨monthField, hmonth⟩ := hfield wmonth (by decide) "month" false hmonth
    obtain ⟨dowField, hdow⟩ := hfield wdow (by decide) "day_of_week" true hdow
    unfold parseCronExpression
    rw [strSplit_strip, hsplit]
    simp only [hminute, hhour, hdom, hmonth, hdow, bind_ok]
    exact ⟨_, rfl⟩
  · intro parsed h
    obtain ⟨minute, hour, dayOfMonth, month, dayOfWeek, hsplit, hminute, hhour, hdom, hmonth,
      hdow⟩ := parseCronExpression_eq_ok h
    simp only [hsplit, List.forall_mem_cons] at hwords
    obtain ⟨wminute, whour, wdom, wmonth, wdow, -⟩ := hwords
    refine ⟨minute, hour, dayOfMonth, month, dayOfWeek, hsplit, mem_parseField_plain wminute hminute,
      mem_parseField_plain whour hhour, mem_parseField_plain wdom hdom,
      mem_parseField_plain wmonth hmonth, fun x => ?_⟩
    rw [mem_parseField wdow hdow, parserWeekdays]
    split
    · exact Iff.rfl
    · simp [WeekdayDenotes, weekdayValue]

/-- What an accepted expression reads in its first field. -/
lemma minuteReads_of_obeys {g : CronGrammar} {readsWeekday : String → ℤ → Prop} {expr minute : String}
    {rest : List String} (h : Obeys g readsWeekday rt expr)
    (haccepted : (parseCronExpression rt expr).toOption.isSome = true)
    (hsplit : strSplit expr = minute :: rest) : FieldReads g 0 59 minute := by
  have hparsed : ∃ parsed, parseCronExpression rt expr = .ok parsed := by
    cases hparse : parseCronExpression rt expr with
    | error e => simp [hparse, Except.toOption] at haccepted
    | ok parsed => exact ⟨parsed, rfl⟩
  obtain ⟨minute', _, _, _, _, hsplit', hminute, -⟩ := h.1.mp hparsed
  obtain rfl : minute = minute' := (List.cons.inj (hsplit.symm.trans hsplit')).1
  exact hminute

lemma not_segmentReads_missingBase {start stop step : ℤ} :
    ¬ SegmentReads decimalGrammar 0 59 "/5" start stop step := by
  intro h
  cases h with
  | plain _ hslash => exact hslash (by decide)
  | stepped _ hbase =>
    have hbefore : beforeFirst '/' "/5" = "" := by decide
    rw [hbefore] at hbase
    generalize hbase' : "" = base at hbase
    cases hbase with
    | all => exact absurd hbase' (by decide)
    | missing h => exact absurd h (by decide)
    | single _ hempty => exact hempty hbase'.symm
    | range hdash =>
      subst hbase'
      exact absurd hdash (by decide)

lemma not_segmentReads_signed {start stop step : ℤ} :
    ¬ SegmentReads decimalGrammar 0 59 "+5" start stop step := by
  intro h
  cases h with
  | plain _ _ hbase =>
    generalize hbase' : "+5" = base at hbase
    cases hbase with
    | all => exact absurd hbase' (by decide)
    | missing h => exact absurd h (by decide)
    | single _ _ _ hn =>
      subst hbase'
      exact absurd hn (by simp [show decimalGrammar.number "+5" = none by decide])
    | range hdash =>
      subst hbase'
      exact absurd hdash (by decide)
  | stepped hslash => exact absurd hslash (by decide)

end Trion.Cron
