import Trion.Cron.CronParser
import Trion.Library.Gaps

/-!
# The estimated interval

`estimate_min_interval_seconds` looks at the first forty minutes of 35 days at which an expression
matches.  It is a lower bound of the distance of all matches exactly when the closest ones are
among these.
-/

namespace Trion.Cron

open Trion.Python Gaps

/-! ### The loop -/

section Scan

variable {hit : ℕ → Bool} {maxHits : ℕ}

variable {fuel i p hits : ℕ}

lemma scanIntervals_miss {prev minDelta : Option ℕ} (h : ¬hit i = true) :
    scanIntervals hit maxHits (fuel + 1) i prev minDelta hits =
      scanIntervals hit maxHits fuel (i + 1) prev minDelta hits := by
  simp [scanIntervals, h]

lemma scanIntervals_first (h : hit i = true) :
    scanIntervals hit maxHits (fuel + 1) i none none hits =
      scanIntervals hit maxHits fuel (i + 1) (some i) none (hits + 1) := by
  simp [scanIntervals, h]

/-- The distance of a hit to the one before it is taken in, and may be the last one. -/
lemma scanIntervals_hit (h : hit i = true) (hlt : p < i) (d : Option ℕ) :
    scanIntervals hit maxHits (fuel + 1) i (some p) (d.map (· * 60)) hits =
      if d.elim (i - p) (min · (i - p)) * 60 ≤ 60 then
        some (d.elim (i - p) (min · (i - p)) * 60)
      else if maxHits ≤ hits + 1 then some (d.elim (i - p) (min · (i - p)) * 60)
      else
        scanIntervals hit maxHits fuel (i + 1) (some i)
          (some (d.elim (i - p) (min · (i - p)) * 60)) (hits + 1) := by
  have hdelta : max 60 ((i - p) * 60) = (i - p) * 60 := by omega
  rw [scanIntervals, if_pos h]
  cases d with
  | none =>
    simp only [Option.map_none, Option.isSome_some, Bool.true_and, Bool.and_true, Option.any_some,
      decide_eq_true_eq, hdelta, Option.elim_none, ge_iff_le]
    exact if_congr Iff.rfl rfl (if_congr Iff.rfl rfl rfl)
  | some d =>
    simp only [Option.map_some, Option.isSome_some, Bool.true_and, Bool.and_true, Option.any_some,
      decide_eq_true_eq, hdelta, Nat.mul_min_mul_right, Option.elim_some, ge_iff_le]
    exact if_congr Iff.rfl rfl (if_congr Iff.rfl rfl rfl)

/-- After some hits the loop finds the smallest distance of the first `maxHits` of all. -/
lemma scanIntervals_spec (hmax : 2 ≤ maxHits) (fuel : ℕ) {i : ℕ} {seen : List ℕ} {d : Option ℕ}
    (hsorted : seen.Pairwise (· ≤ ·)) (hseen : ∀ x ∈ seen, x < i) (hd : IsSmallest seen d)
    (hlength : seen.length < maxHits) :
    ∃ d', scanIntervals hit maxHits fuel i seen.getLast? (d.map (· * 60)) seen.length =
        d'.map (· * 60) ∧
      IsSmallest ((seen ++ (List.range' i fuel).filter hit).take maxHits) d' := by
  induction fuel generalizing i seen d with
  | zero =>
    refine ⟨d, rfl, ?_⟩
    rw [List.range'_zero, List.filter_nil, List.append_nil,
      List.take_of_length_le (Nat.le_of_lt hlength)]
    exact hd
  | succ fuel ih =>
    rw [List.range'_succ, List.filter_cons]
    split
    · rename_i hhit
      have hsplit : seen ++ i :: (List.range' (i + 1) fuel).filter hit =
          (seen ++ [i]) ++ (List.range' (i + 1) fuel).filter hit := by simp
      have hsorted' : (seen ++ [i]).Pairwise (· ≤ ·) :=
        List.pairwise_append.mpr ⟨hsorted, List.pairwise_singleton _ _, fun x hx y hy =>
          (List.mem_singleton.mp hy) ▸ (hseen x hx).le⟩
      have hseen' : ∀ x ∈ seen ++ [i], x < i + 1 :=
        List.forall_mem_append.mpr ⟨fun x hx => Nat.lt_succ_of_lt (hseen x hx),
          List.forall_mem_singleton.mpr (Nat.lt_succ_self i)⟩
      have hlength' : (seen ++ [i]).length = seen.length + 1 := List.length_append
      rw [hsplit]
      rcases List.eq_nil_or_concat seen with rfl | ⟨before, p, rfl⟩
      · -- The first hit has no hit before it.
        obtain rfl := eq_none_of_isSmallest_nil hd
        obtain ⟨d', hscan, hd'⟩ := ih hsorted' hseen' (isSmallest_singleton i)
          (by rw [hlength']; exact hmax)
        exact ⟨d', (scanIntervals_first hhit).trans hscan, hd'⟩
      · rw [List.concat_eq_append] at *
        have hlt : p < i := hseen p (by simp)
        have hbefore : ∀ x ∈ before, x ≤ p := fun x hx =>
          (List.pairwise_append.mp hsorted).2.2 x hx p List.mem_cons_self
        have hnew := hd.concat hbefore hlt
        rw [List.getLast?_concat, scanIntervals_hit hhit hlt]
        have hstart := List.take_of_length_le (hlength'.trans_le hlength)
        split_ifs with hone hfull
        · refine ⟨some (d.elim (i - p) (min · (i - p))), rfl, ?_⟩
          rw [List.take_append, hstart]
          have hpos := hnew.pos
          have hgap : d.elim (i - p) (min · (i - p)) = 1 := by omega
          rw [hgap] at hnew ⊢
          exact hnew.append_of_one _
        · refine ⟨some (d.elim (i - p) (min · (i - p))), rfl, ?_⟩
          rw [List.take_append, hstart, hlength', Nat.sub_eq_zero_of_le hfull, List.take_zero,
            List.append_nil]
          exact hnew
        · obtain ⟨d', hscan, hd'⟩ := ih hsorted' hseen' hnew (by rw [hlength']; omega)
          refine ⟨d', ?_, hd'⟩
          rw [← hscan, List.getLast?_concat, hlength']
          rfl
    · rename_i hmiss
      rw [scanIntervals_miss hmiss]
      exact ih hsorted (fun x hx => Nat.lt_succ_of_lt (hseen x hx)) hd hlength

end Scan

/-! ### The estimate -/

/-- A minute of the calendar, counted from the midnight before its first day. -/
def IsMinute (n : ℕ) : Prop := 1440 ≤ n ∧ n < (toordinal 9999 12 31 + 1) * 1440

instance (n : ℕ) : Decidable (IsMinute n) := inferInstanceAs (Decidable (_ ∧ _))

/-- The expression matches at the minute. -/
def Fires (parsed : ParsedCron) (n : ℕ) : Prop :=
  IsMinute n ∧ cronMatches parsed (WallTime.ofOrdinal 0 n) = true

/-- The first forty minutes of the 35 days from 1 January 2026 on at which the expression
matches. -/
def sampledMinutes (parsed : ParsedCron) : List ℕ :=
  ((List.range (35 * 24 * 60 + 1)).filter fun n =>
    cronMatches parsed (WallTime.ofOrdinal (toordinal 2026 1 1) n)).take 40

/-- The estimate is the smallest distance in the sample, or 366 days. -/
lemma estimateMinIntervalSeconds_eq (parsed : ParsedCron) :
    ∃ d, IsSmallest (sampledMinutes parsed) d ∧
      estimateMinIntervalSeconds parsed = (d.getD (366 * 24 * 60) : ℤ) * 60 := by
  have hnil : IsSmallest [] none := Nat.zero_lt_two
  obtain ⟨d, hscan, hd⟩ := @scanIntervals_spec
    (fun n => cronMatches parsed (WallTime.ofOrdinal (toordinal 2026 1 1) n)) 40 (by decide)
    (35 * 24 * 60 + 1) 0 [] none List.Pairwise.nil (fun x hx => absurd hx List.not_mem_nil) hnil
    (by decide)
  rw [List.nil_append, ← List.range_eq_range'] at hd
  refine ⟨d, hd, ?_⟩
  unfold estimateMinIntervalSeconds
  dsimp only
  have hscan' : scanIntervals
      (fun n => cronMatches parsed (WallTime.ofOrdinal (toordinal 2026 1 1) n)) 40
      (35 * 24 * 60 + 1) 0 none none 0 = d.map (· * 60) := hscan
  rw [hscan']
  cases d with
  | none => rfl
  | some d => simp

/-- The estimate is at most the distance of any two matches exactly when two of the sampled ones
are as close as any two matches are, or when there are no two sampled ones and no two matches are
less than 366 days apart. -/
theorem estimateMinIntervalSeconds_le_iff (parsed : ParsedCron) :
    (∀ i j, Fires parsed i → Fires parsed j → i < j →
      estimateMinIntervalSeconds parsed ≤ ((j : ℤ) - i) * 60) ↔
    (∃ p ∈ sampledMinutes parsed, ∃ q ∈ sampledMinutes parsed, p < q ∧
      ∀ i j, Fires parsed i → Fires parsed j → i < j → q - p ≤ j - i) ∨
    ((sampledMinutes parsed).length < 2 ∧
      ∀ i j, Fires parsed i → Fires parsed j → i < j → 366 * 24 * 60 ≤ j - i) := by
  obtain ⟨d, hd, hestimate⟩ := estimateMinIntervalSeconds_eq parsed
  rw [hestimate]
  cases d with
  | none =>
    have hshort : (sampledMinutes parsed).length < 2 := hd
    constructor
    · refine fun hbound => .inr ⟨hshort, fun i j hi hj hlt => ?_⟩
      have hle := hbound i j hi hj hlt
      simp only [Option.getD_none] at hle
      omega
    · rintro (⟨p, hp, q, hq, hlt, -⟩ | ⟨-, hfar⟩) i j hi hj hij
      · -- There are no two sampled minutes.
        exact absurd (hd.eq_of_none hp hq) hlt.ne
      · have hle := hfar i j hi hj hij
        simp only [Option.getD_none]
        omega
  | some d =>
    obtain ⟨⟨p₀, hp₀, q₀, hq₀, hlt₀, hgap⟩, hmin⟩ := hd
    simp only [Option.getD_some]
    constructor
    · refine fun hbound => .inl ⟨p₀, hp₀, q₀, hq₀, hlt₀, fun i j hi hj hlt => ?_⟩
      have hle := hbound i j hi hj hlt
      omega
    · rintro (⟨p, hp, q, hq, hlt, hclosest⟩ | ⟨hshort, -⟩) i j hi hj hij
      · have hle := hmin p hp q hq hlt
        have hle' := hclosest i j hi hj hij
        omega
      · exact absurd (IsSmallest.eq_of_none hshort hp₀ hq₀) hlt₀.ne

/-- An expression for the minutes 0, 2, …, 38 and 59 of three hours.  The sample ends before the
first minute of the last hour. -/
def crossingExpr : String := "0-38/2,59 0,2,3 * * *"

/-- The last match of the second hour is a minute before the first one of the third. -/
theorem not_estimateMinIntervalSeconds_le :
    ∃ parsed, parseCronExpression .ascii crossingExpr = .ok parsed ∧
      ¬∀ i j, Fires parsed i → Fires parsed j → i < j →
        estimateMinIntervalSeconds parsed ≤ ((j : ℤ) - i) * 60 := by
  have hrun : (parseCronExpression .ascii crossingExpr).toOption.map (fun parsed =>
      (estimateMinIntervalSeconds parsed,
        cronMatches parsed (WallTime.ofOrdinal 0 (toordinal 2026 1 1 * 1440 + 179)),
        cronMatches parsed (WallTime.ofOrdinal 0 (toordinal 2026 1 1 * 1440 + 180)))) =
      some (120, true, true) := by decide +kernel
  obtain ⟨parsed, hparsed, hvalues⟩ := Option.map_eq_some_iff.mp hrun
  obtain ⟨hestimate, hboth⟩ := Prod.mk.inj hvalues
  obtain ⟨hlast, hfirst⟩ := Prod.mk.inj hboth
  refine ⟨parsed, ?_, fun hbound => ?_⟩
  · cases hparse : parseCronExpression .ascii crossingExpr with
    | error error =>
      rw [hparse] at hparsed
      cases hparsed
    | ok parsed' =>
      rw [hparse] at hparsed
      exact congrArg Except.ok (Option.some.inj hparsed)
  · have hle := hbound _ _ ⟨by decide, hlast⟩ ⟨by decide, hfirst⟩ (Nat.lt_succ_self _)
    rw [hestimate] at hle
    omega

end Trion.Cron
