import Mathlib.Algebra.Order.Ring.Int
import Trion.Cron.CronParser

/-!
# The next run

`next_matching_utc` reads the wall clock of a zone, counts on from there as if the clock never
changed, and takes the first reading that matches.  A tick reads the clock at the minute itself.
Where the two part is told by the changes of the clock between the instant and that reading.
-/

namespace Trion.Cron

open Trion.Python

/-! ### Zones -/

/-- Any two changes lie further apart than the clock jumps at the two of them, by a minute. -/
def Spaced : ℤ → List (ℤ × ℤ) → Prop
  | offset, (change, next) :: (change', next') :: changes =>
    change + (next - offset).natAbs + (next' - next).natAbs + 60 ≤ change' ∧
      Spaced next ((change', next') :: changes)
  | _, _ => True

/-- The rules of a zone: its offset to UTC in seconds, at first and from each change on.  Seconds
are counted from the midnight before the first day of the calendar. -/
structure ZoneRules where
  offset : ℤ
  changes : List (ℤ × ℤ)
  spaced : Spaced offset changes

/-- A change of the clock: its second, and the offsets before and after it. -/
structure Shift where
  second : ℤ
  before : ℤ
  after : ℤ

/-- The changes of a clock. -/
def shifts : ℤ → List (ℤ × ℤ) → List Shift
  | _, [] => []
  | offset, (change, next) :: changes => ⟨change, offset, next⟩ :: shifts next changes

/-- A time of the wall clock that a change shows again. -/
def Shift.Repeats (shift : Shift) (time : ℤ) : Prop :=
  shift.second + shift.after ≤ time ∧ time < shift.second + shift.before

/-- A time of the wall clock that a change leaves out. -/
def Shift.LeavesOut (shift : Shift) (time : ℤ) : Prop :=
  shift.second + shift.before ≤ time ∧ time < shift.second + shift.after

/-- The offset at a second of UTC. -/
def offsetAt (second : ℤ) : ℤ → List (ℤ × ℤ) → ℤ
  | offset, [] => offset
  | offset, (change, next) :: changes =>
    if change ≤ second then offsetAt second next changes else offset

/-- The offset at a second of the wall clock: of a time that is shown twice the first one, and of
one that is left out the one before the change. -/
def wallOffsetAt (second : ℤ) : ℤ → List (ℤ × ℤ) → ℤ
  | offset, [] => offset
  | offset, (change, next) :: changes =>
    if change + max offset next ≤ second then wallOffsetAt second next changes else offset

namespace ZoneRules

variable (zone : ZoneRules)

/-- The changes of the clock of a zone. -/
def shifts : List Shift := Cron.shifts zone.offset zone.changes

/-- The offset at a minute of the wall clock. -/
def wallOffset (minute : ℤ) : ℤ := wallOffsetAt (minute * 60) zone.offset zone.changes

/-- `astimezone(zone)` without seconds: the minute that the wall clock shows. -/
def localMinute (second : ℤ) : ℤ := (second + offsetAt second zone.offset zone.changes) / 60

/-- `astimezone(timezone.utc)` of a minute of the wall clock. -/
def toUtc (minute : ℤ) : ℤ := minute * 60 - zone.wallOffset minute

end ZoneRules

/-- A minute that `datetime` has. -/
def InCalendar (minute : ℤ) : Prop :=
  1440 ≤ minute ∧ minute < ((toordinal 9999 12 31 + 1) * 1440 : ℕ)

instance (minute : ℤ) : Decidable (InCalendar minute) := inferInstanceAs (Decidable (_ ∧ _))

/-- An instant: a second of UTC within the calendar. -/
structure Instant where
  second : ℤ
  inCalendar : InCalendar (second / 60)

/-- The expression matches the reading of a clock. -/
def matchesReading (parsed : ParsedCron) (minute : ℤ) : Bool :=
  cronMatches parsed (WallTime.ofOrdinal 0 minute.toNat)

/-! ### The search -/

/-- The loop of `next_matching_utc` from a reading on, over at most `fuel` readings.  `none` is the
empty text, and a second stands for its text. -/
def searchReadings (zone : ZoneRules) (parsed : ParsedCron) : ℕ → ℤ → Except CronError (Option ℤ)
  | 0, _ => .ok none
  | fuel + 1, minute =>
    if ¬InCalendar minute then .error (.python .overflowError)
    else if matchesReading parsed minute then
      if ¬InCalendar (zone.toUtc minute / 60) then .error (.python .overflowError)
      else .ok (some (zone.toUtc minute))
    else searchReadings zone parsed fuel (minute + 1)

/-- `next_matching_utc` with its default of 35 days. -/
def nextMatchingUtc (parsed : ParsedCron) (zone : ZoneRules) (now : Instant) :
    Except CronError (Option ℤ) :=
  if ¬InCalendar (zone.localMinute now.second) then .error (.python .overflowError)
  else searchReadings zone parsed (35 * 24 * 60) (zone.localMinute now.second + 1)

/-! ### The next match of a tick -/

/-- A reading of the calendar that matches. -/
def Matching (parsed : ParsedCron) (reading : ℤ) : Prop :=
  InCalendar reading ∧ matchesReading parsed reading = true

instance (parsed : ParsedCron) (reading : ℤ) : Decidable (Matching parsed reading) :=
  inferInstanceAs (Decidable (_ ∧ _))

/-- A tick in this minute of UTC finds that the expression matches. -/
def MatchesAt (parsed : ParsedCron) (zone : ZoneRules) (minute : ℤ) : Prop :=
  InCalendar minute ∧ Matching parsed (zone.localMinute (minute * 60))

instance (parsed : ParsedCron) (zone : ZoneRules) (minute : ℤ) :
    Decidable (MatchesAt parsed zone minute) := inferInstanceAs (Decidable (_ ∧ _))

/-- The first whole minute after an instant that matches. -/
structure IsNextMatch (parsed : ParsedCron) (zone : ZoneRules) (now : Instant) (minute : ℤ) :
    Prop where
  after : now.second < minute * 60
  found : MatchesAt parsed zone minute
  first : ∀ earlier, now.second < earlier * 60 → earlier < minute → ¬MatchesAt parsed zone earlier

/-- No minute after an instant matches. -/
def NeverMatches (parsed : ParsedCron) (zone : ZoneRules) (now : Instant) : Prop :=
  ∀ minute, now.second < minute * 60 → ¬MatchesAt parsed zone minute

/-- The answer is the first match, or is empty because there is none. -/
def AnswersNext (parsed : ParsedCron) (zone : ZoneRules) (now : Instant) :
    Except CronError (Option ℤ) → Prop
  | .ok (some second) => ∃ minute, second = minute * 60 ∧ IsNextMatch parsed zone now minute
  | .ok none => NeverMatches parsed zone now
  | .error _ => False

/-! ### The clock between two changes -/

section Clock

variable {offset next change second time : ℤ} {changes : List (ℤ × ℤ)} {shift : Shift}

lemma Spaced.tail (h : Spaced offset ((change, next) :: changes)) : Spaced next changes := by
  cases changes with
  | nil => trivial
  | cons change' changes => exact h.2

/-- The changes after the first come later than it, by the jump and a minute, and on the wall clock
they come after both of its sides. -/
lemma Spaced.later (h : Spaced offset ((change, next) :: changes))
    (hshift : shift ∈ shifts next changes) :
    change + (next - offset).natAbs + 60 ≤ shift.second ∧
      change + max offset next + 60 ≤ shift.second + min shift.before shift.after := by
  induction changes generalizing offset next change with
  | nil => cases hshift
  | cons entry changes ih =>
    obtain ⟨change', next'⟩ := entry
    have hspace := h.1
    rcases List.mem_cons.mp hshift with rfl | hmem
    · dsimp only
      omega
    · have hrest := ih h.2 hmem
      omega

/-- The offset is the first one, or the one after a change that has come. -/
lemma offsetAt_eq_or (second offset : ℤ) (changes : List (ℤ × ℤ)) :
    offsetAt second offset changes = offset ∨
      ∃ shift ∈ shifts offset changes, shift.second ≤ second ∧
        offsetAt second offset changes = shift.after := by
  induction changes generalizing offset with
  | nil => exact .inl rfl
  | cons entry changes ih =>
    obtain ⟨change, next⟩ := entry
    rw [offsetAt]
    split
    · rename_i hcome
      rcases ih next with heq | ⟨shift, hshift, hle, heq⟩
      · exact .inr ⟨_, List.mem_cons_self, hcome, heq⟩
      · exact .inr ⟨shift, List.mem_cons_of_mem _ hshift, hle, heq⟩
    · exact .inl rfl

/-- Before the first change the offset is the first one. -/
lemma offsetAt_of_before (h : ∀ shift ∈ shifts offset changes, second < shift.second) :
    offsetAt second offset changes = offset := by
  rcases offsetAt_eq_or second offset changes with heq | ⟨shift, hshift, hle, -⟩
  · exact heq
  · exact absurd hle (not_le.mpr (h shift hshift))

/-- For the jump and a minute after a change the offset is the one after it. -/
lemma offsetAt_of_shift (h : Spaced offset changes) (hshift : shift ∈ shifts offset changes)
    (hle : shift.second ≤ second)
    (hlt : second < shift.second + (shift.after - shift.before).natAbs + 60) :
    offsetAt second offset changes = shift.after := by
  induction changes generalizing offset with
  | nil => cases hshift
  | cons entry changes ih =>
    obtain ⟨change, next⟩ := entry
    rw [offsetAt]
    rcases List.mem_cons.mp hshift with rfl | hmem
    · rw [if_pos hle]
      refine offsetAt_of_before fun later hlater => ?_
      have hlater := h.later hlater
      dsimp only at hlt
      omega
    · have hlater := h.later hmem
      rw [if_pos (by omega)]
      exact ih h.tail hmem

/-- From one second to a later one the offset stays, or is the one after a change in between. -/
lemma offsetAt_eq_or_between {now : ℤ} (h : Spaced offset changes) (hnow : now ≤ second) :
    offsetAt second offset changes = offsetAt now offset changes ∨
      ∃ shift ∈ shifts offset changes, now < shift.second ∧ shift.second ≤ second ∧
        offsetAt second offset changes = shift.after := by
  induction changes generalizing offset with
  | nil => exact .inl rfl
  | cons entry changes ih =>
    obtain ⟨change, next⟩ := entry
    rw [offsetAt, offsetAt]
    by_cases hcome : change ≤ now
    · rw [if_pos hcome, if_pos (hcome.trans hnow)]
      rcases ih h.tail with heq | ⟨shift, hshift, hlt, hle, heq⟩
      · exact .inl heq
      · exact .inr ⟨shift, List.mem_cons_of_mem _ hshift, hlt, hle, heq⟩
    · rw [if_neg hcome]
      split
      · rename_i hbetween
        rcases offsetAt_eq_or second next changes with heq | ⟨shift, hshift, hle, heq⟩
        · exact .inr ⟨_, List.mem_cons_self, not_le.mp hcome, hbetween, heq⟩
        · have hlater := h.later hshift
          exact .inr ⟨shift, List.mem_cons_of_mem _ hshift, by omega, hle, heq⟩
      · exact .inl rfl

/-- Before a change the clock has not reached the time of the change. -/
lemma clock_lt_of_before (h : Spaced offset changes) (hshift : shift ∈ shifts offset changes)
    (hlt : second < shift.second) :
    second + offsetAt second offset changes < shift.second + shift.before := by
  induction changes generalizing offset with
  | nil => cases hshift
  | cons entry changes ih =>
    obtain ⟨change, next⟩ := entry
    rw [offsetAt]
    rcases List.mem_cons.mp hshift with rfl | hmem
    · rw [if_neg (not_le.mpr hlt)]
      exact Int.add_lt_add_right hlt _
    · split
      · exact ih h.tail hmem
      · have hlater := h.later hmem
        omega

/-- After a change the clock shows no time before that at which the change has put it. -/
lemma le_clock_of_after (h : Spaced offset changes) (hshift : shift ∈ shifts offset changes)
    (hle : shift.second ≤ second) :
    shift.second + shift.after ≤ second + offsetAt second offset changes := by
  induction changes generalizing offset shift with
  | nil => cases hshift
  | cons entry changes ih =>
    obtain ⟨change, next⟩ := entry
    rw [offsetAt]
    rcases List.mem_cons.mp hshift with rfl | hmem
    · rw [if_pos hle]
      rcases offsetAt_eq_or second next changes with heq | ⟨shift, hshift', hle', heq⟩
      · rw [heq]
        exact Int.add_le_add_right hle _
      · have hlater := h.later hshift'
        have hclock := ih h.tail hshift' hle'
        dsimp only
        omega
    · have hlater := h.later hmem
      rw [if_pos (by omega)]
      exact ih h.tail hmem hle

/-- The offset at a time of the wall clock is the first one, or the one after a change behind which
the time lies. -/
lemma wallOffsetAt_eq_or (time offset : ℤ) (changes : List (ℤ × ℤ)) :
    wallOffsetAt time offset changes = offset ∨
      ∃ shift ∈ shifts offset changes, shift.second + max shift.before shift.after ≤ time ∧
        wallOffsetAt time offset changes = shift.after := by
  induction changes generalizing offset with
  | nil => exact .inl rfl
  | cons entry changes ih =>
    obtain ⟨change, next⟩ := entry
    rw [wallOffsetAt]
    split
    · rename_i hcome
      rcases ih next with heq | ⟨shift, hshift, hle, heq⟩
      · exact .inr ⟨_, List.mem_cons_self, hcome, heq⟩
      · exact .inr ⟨shift, List.mem_cons_of_mem _ hshift, hle, heq⟩
    · exact .inl rfl

/-- At a time that a change repeats or leaves out, the offset is the one before the change. -/
lemma wallOffsetAt_of_shift (h : Spaced offset changes) (hshift : shift ∈ shifts offset changes)
    (htime : shift.Repeats time ∨ shift.LeavesOut time) :
    wallOffsetAt time offset changes = shift.before := by
  unfold Shift.Repeats Shift.LeavesOut at htime
  induction changes generalizing offset with
  | nil => cases hshift
  | cons entry changes ih =>
    obtain ⟨change, next⟩ := entry
    rw [wallOffsetAt]
    rcases List.mem_cons.mp hshift with rfl | hmem
    · dsimp only at htime
      rw [if_neg (by omega)]
    · have hlater := h.later hmem
      rw [if_pos (by omega)]
      exact ih h.tail hmem

/-- Before the second of a time the clock has not reached it, unless a change has left it out. -/
lemma clock_lt_of_lt (h : second < time - wallOffsetAt time offset changes) :
    second + offsetAt second offset changes < time ∨
      ∃ shift ∈ shifts offset changes, shift.LeavesOut time ∧ shift.second ≤ second := by
  induction changes generalizing offset with
  | nil =>
    rw [wallOffsetAt] at h
    exact .inl (by rw [offsetAt]; omega)
  | cons entry changes ih =>
    obtain ⟨change, next⟩ := entry
    rw [wallOffsetAt] at h
    rw [offsetAt]
    by_cases hcome : change ≤ second
    · rw [if_pos hcome]
      split at h
      · rcases ih h with hlt | ⟨shift, hshift, hout, hle⟩
        · exact .inl hlt
        · exact .inr ⟨shift, List.mem_cons_of_mem _ hshift, hout, hle⟩
      · exact .inr ⟨_, List.mem_cons_self, ⟨by dsimp only; omega, by dsimp only; omega⟩, hcome⟩
    · rw [if_neg hcome]
      split at h <;> exact .inl (by omega)

/-- At the second of a time that no change leaves out the clock shows the time. -/
lemma offsetAt_of_shown (h : Spaced offset changes)
    (hshown : ∀ shift ∈ shifts offset changes, ¬shift.LeavesOut time) :
    offsetAt (time - wallOffsetAt time offset changes) offset changes =
      wallOffsetAt time offset changes := by
  induction changes generalizing offset with
  | nil => rfl
  | cons entry changes ih =>
    obtain ⟨change, next⟩ := entry
    rw [wallOffsetAt]
    split
    · rename_i hcome
      have hle : change ≤ time - wallOffsetAt time next changes := by
        rcases wallOffsetAt_eq_or time next changes with heq | ⟨shift, hshift, hle, heq⟩
        · omega
        · have hlater := h.later hshift
          omega
      rw [offsetAt, if_pos hle]
      exact ih h.tail fun shift hshift => hshown shift (List.mem_cons_of_mem _ hshift)
    · rename_i hbefore
      have hhead := hshown _ List.mem_cons_self
      unfold Shift.LeavesOut at hhead
      dsimp only at hhead
      rw [offsetAt, if_neg (by omega)]

/-- A time that the clock has not reached comes at a later second, unless a change that has come
repeats it. -/
lemma lt_second_iff {now : ℤ} (h : Spaced offset changes)
    (hclock : now + offsetAt now offset changes < time) :
    now < time - wallOffsetAt time offset changes ↔
      ∀ shift ∈ shifts offset changes, shift.second ≤ now → ¬shift.Repeats time := by
  constructor
  · intro hlt shift hshift hcome hrepeats
    rw [wallOffsetAt_of_shift h hshift (.inl hrepeats)] at hlt
    have hbefore := hrepeats.2
    omega
  · intro hnone
    by_contra hnot
    have hpast := not_lt.mp hnot
    by_cases hout : ∃ shift ∈ shifts offset changes, shift.LeavesOut time
    · obtain ⟨shift, hshift, hleaves⟩ := hout
      rw [wallOffsetAt_of_shift h hshift (.inr hleaves)] at hpast
      have hcome := hleaves.1
      have hbefore := hleaves.2
      have hafter : shift.second + shift.after ≤ now + offsetAt now offset changes :=
        le_clock_of_after h hshift (by omega)
      omega
    · have hshown := offsetAt_of_shown h fun shift hshift hleaves =>
        hout ⟨shift, hshift, hleaves⟩
      rcases offsetAt_eq_or_between h hpast with heq | ⟨shift, hshift, hlt, hle, heq⟩
      · rw [hshown] at heq
        omega
      · have hbefore := clock_lt_of_before h hshift hlt
        have hafter := le_clock_of_after h hshift hle
        rw [hshown] at hbefore
        exact hnone shift hshift hle ⟨by omega, by omega⟩

end Clock

/-! ### The search and the clock -/

/-- The first reading of the next 35 days that matches. -/
structure IsNextReading (parsed : ParsedCron) (zone : ZoneRules) (now : Instant) (reading : ℤ) :
    Prop where
  after : zone.localMinute now.second < reading
  inside : reading ≤ zone.localMinute now.second + 35 * 24 * 60
  found : Matching parsed reading
  first : ∀ earlier, zone.localMinute now.second < earlier → earlier < reading →
    matchesReading parsed earlier = false

/-- What the changes of the clock leave as the search takes it, on the way to a reading. -/
structure Undisturbed (parsed : ParsedCron) (zone : ZoneRules) (now : Instant) (reading : ℤ) :
    Prop where
  calendar : InCalendar (zone.toUtc reading / 60)
  /-- The reading is that of a whole minute. -/
  whole : zone.wallOffset reading % 60 = 0
  /-- The clock is not showing the reading for the second time. -/
  notRepeated : ∀ shift ∈ zone.shifts, shift.second ≤ now.second → ¬shift.Repeats (reading * 60)
  /-- The next minute shows no match that is not after the reading of the instant. -/
  next : zone.localMinute ((now.second / 60 + 1) * 60) ≤ zone.localMinute now.second →
    ¬Matching parsed (zone.localMinute ((now.second / 60 + 1) * 60))
  /-- No change before the reading goes back to a match that is not after the reading of the
  instant. -/
  again : ∀ shift ∈ zone.shifts, now.second < shift.second → shift.second ≤ zone.toUtc reading →
    ∀ shown ≤ zone.localMinute now.second, shift.second ≤ (shown - shift.after / 60) * 60 →
      ¬Matching parsed shown
  /-- A change that leaves the reading out puts the clock to another match, with none before it. -/
  leftOut : ∀ shift ∈ zone.shifts, shift.LeavesOut (reading * 60) →
    Matching parsed (reading - shift.before / 60 + shift.after / 60) ∧
      ∀ shown < reading - shift.before / 60 + shift.after / 60,
        shift.second ≤ (shown - shift.after / 60) * 60 → ¬Matching parsed shown

section Search

variable {zone : ZoneRules} {parsed : ParsedCron} {now : Instant}

/-- How the search ends: at the first reading that matches, at the end of its time, or at the end
of the calendar. -/
inductive SearchEnds (zone : ZoneRules) (parsed : ParsedCron) (fuel : ℕ) (start : ℤ) :
    Except CronError (Option ℤ) → Prop
  | found {reading : ℤ} : start ≤ reading → reading < start + fuel → InCalendar reading →
      matchesReading parsed reading = true →
      (∀ earlier, start ≤ earlier → earlier < reading → matchesReading parsed earlier = false) →
      SearchEnds zone parsed fuel start
        (if ¬InCalendar (zone.toUtc reading / 60) then .error (.python .overflowError)
          else .ok (some (zone.toUtc reading)))
  | none : (∀ reading, start ≤ reading → reading < start + fuel →
      InCalendar reading ∧ matchesReading parsed reading = false) →
      SearchEnds zone parsed fuel start (.ok none)
  | outside {reading : ℤ} : start ≤ reading → reading < start + fuel → ¬InCalendar reading →
      (∀ earlier, start ≤ earlier → earlier < reading → matchesReading parsed earlier = false) →
      SearchEnds zone parsed fuel start (.error (.python .overflowError))

lemma searchEnds (zone : ZoneRules) (parsed : ParsedCron) (fuel : ℕ) (start : ℤ) :
    SearchEnds zone parsed fuel start (searchReadings zone parsed fuel start) := by
  induction fuel generalizing start with
  | zero => exact .none fun reading hle hlt => absurd hlt (by omega)
  | succ fuel ih =>
    rw [searchReadings]
    by_cases hin : InCalendar start
    · rw [if_neg (not_not.mpr hin)]
      by_cases hmatch : matchesReading parsed start = true
      · rw [if_pos hmatch]
        exact .found le_rfl (by omega) hin hmatch fun earlier hle hlt => absurd hlt (by omega)
      · rw [if_neg hmatch]
        have hmiss : matchesReading parsed start = false := by simpa using hmatch
        -- What holds of all readings after the first holds of all.
        have hfrom {P : ℤ → Prop} (hP : P start) {stop : ℤ}
            (hrest : ∀ earlier, start + 1 ≤ earlier → earlier < stop → P earlier) :
            ∀ earlier, start ≤ earlier → earlier < stop → P earlier := by
          intro earlier hle hlt
          by_cases heq : earlier = start
          · exact heq ▸ hP
          · exact hrest earlier (by omega) hlt
        have hends := ih (start + 1)
        generalize searchReadings zone parsed fuel (start + 1) = answer at hends ⊢
        cases hends with
        | found hle hlt hreading hfound hfirst =>
          exact .found (by omega) (by push_cast; omega) hreading hfound (hfrom hmiss hfirst)
        | none hnone =>
          refine .none (hfrom ⟨hin, hmiss⟩ fun reading hle hlt => hnone reading hle ?_)
          push_cast at hlt
          omega
        | outside hle hlt hreading hfirst =>
          exact .outside (by omega) (by push_cast; omega) hreading (hfrom hmiss hfirst)
    · rw [if_pos hin]
      exact .outside le_rfl (by omega) hin fun earlier hle hlt => absurd hlt (by omega)

/-- A reading between two of the calendar is in it. -/
lemma InCalendar.between {start reading stop : ℤ} (hstart : InCalendar start)
    (hstop : InCalendar stop) (hle : start ≤ reading) (hle' : reading ≤ stop) :
    InCalendar reading :=
  ⟨hstart.1.trans hle, hle'.trans_lt hstop.2⟩

lemma IsNextReading.unique {reading reading' : ℤ} (h : IsNextReading parsed zone now reading)
    (h' : IsNextReading parsed zone now reading') : reading = reading' := by
  rcases lt_trichotomy reading reading' with hlt | heq | hlt
  · have hmiss := h'.first reading h.after hlt
    rw [h.found.2] at hmiss
    cases hmiss
  · exact heq
  · have hmiss := h.first reading' h'.after hlt
    rw [h'.found.2] at hmiss
    cases hmiss

/-- The clock has not reached the reading. -/
lemma IsNextReading.clock_lt {reading : ℤ} (h : IsNextReading parsed zone now reading) :
    now.second + offsetAt now.second zone.offset zone.changes < reading * 60 := by
  have hafter := h.after
  unfold ZoneRules.localMinute at hafter
  omega

/-- What the clock shows at the second of the reading. -/
lemma IsNextReading.shown_cases {reading : ℤ} (h : IsNextReading parsed zone now reading)
    (hwhole : zone.wallOffset reading % 60 = 0) :
    ((∀ shift ∈ zone.shifts, ¬shift.LeavesOut (reading * 60)) ∧
        zone.localMinute (zone.toUtc reading) = reading) ∨
      ∃ shift ∈ zone.shifts, shift.LeavesOut (reading * 60) ∧
        zone.wallOffset reading = shift.before ∧ now.second < shift.second ∧
        zone.localMinute (zone.toUtc reading) =
          reading - shift.before / 60 + shift.after / 60 := by
  by_cases hout : ∃ shift ∈ zone.shifts, shift.LeavesOut (reading * 60)
  · obtain ⟨shift, hshift, hleaves⟩ := hout
    have hwall : zone.wallOffset reading = shift.before :=
      wallOffsetAt_of_shift zone.spaced hshift (.inr hleaves)
    have hle := hleaves.1
    have hlt := hleaves.2
    have hoffset : offsetAt (zone.toUtc reading) zone.offset zone.changes = shift.after :=
      offsetAt_of_shift zone.spaced hshift (by rw [ZoneRules.toUtc, hwall]; omega)
        (by rw [ZoneRules.toUtc, hwall]; omega)
    have hnow : now.second < shift.second := by
      by_contra hnot
      have hafter := le_clock_of_after zone.spaced hshift (not_lt.mp hnot)
      have hclock := h.clock_lt
      omega
    refine .inr ⟨shift, hshift, hleaves, hwall, hnow, ?_⟩
    rw [ZoneRules.localMinute, hoffset, ZoneRules.toUtc, hwall]
    rw [hwall] at hwhole
    omega
  · have hshown : ∀ shift ∈ zone.shifts, ¬shift.LeavesOut (reading * 60) :=
      fun shift hshift hleaves => hout ⟨shift, hshift, hleaves⟩
    refine .inl ⟨hshown, ?_⟩
    have hoffset : offsetAt (zone.toUtc reading) zone.offset zone.changes =
        zone.wallOffset reading := offsetAt_of_shown zone.spaced hshown
    rw [ZoneRules.localMinute, hoffset, ZoneRules.toUtc]
    omega

/-- On the way to the reading the clock shows earlier readings, unless a change leaves it out. -/
lemma Undisturbed.first {reading earlier : ℤ} (hr : IsNextReading parsed zone now reading)
    (h : Undisturbed parsed zone now reading) (hafter : now.second < earlier * 60)
    (hbefore : earlier * 60 < zone.toUtc reading) :
    ¬Matching parsed (zone.localMinute (earlier * 60)) := by
  intro hmatch
  have hshows : zone.localMinute (earlier * 60) =
      (earlier * 60 + offsetAt (earlier * 60) zone.offset zone.changes) / 60 := rfl
  have hsecond : earlier * 60 <
      reading * 60 - wallOffsetAt (reading * 60) zone.offset zone.changes := hbefore
  rcases clock_lt_of_lt hsecond with hlt | ⟨shift, hshift, hleaves, hcome⟩
  · by_cases hnew : zone.localMinute now.second < zone.localMinute (earlier * 60)
    · -- A reading that the search has passed.
      have hmiss := hr.first _ hnew (by omega)
      rw [hmatch.2] at hmiss
      cases hmiss
    · have hnow : zone.localMinute now.second =
          (now.second + offsetAt now.second zone.offset zone.changes) / 60 := rfl
      rcases offsetAt_eq_or_between zone.spaced hafter.le with heq | ⟨shift, hshift, hlater, hcome,
        heq⟩
      · rw [heq] at hshows
        have hsame : earlier = now.second / 60 + 1 := by omega
        rw [hsame] at hmatch hnew
        exact h.next (not_lt.mp hnew) hmatch
      · rw [heq] at hshows
        refine h.again shift hshift hlater (hcome.trans hbefore.le) _ (not_lt.mp hnew) ?_ hmatch
        rw [hshows]
        omega
  · have hwall : zone.wallOffset reading = shift.before :=
      wallOffsetAt_of_shift zone.spaced hshift (.inr hleaves)
    have hwhole := h.whole
    rw [ZoneRules.toUtc] at hbefore
    rw [hwall] at hbefore hwhole
    have hlt := hleaves.2
    rw [offsetAt_of_shift zone.spaced hshift hcome (by omega)] at hshows
    exact (h.leftOut shift hshift hleaves).2 _ (by omega) (by omega) hmatch

/-- The time of the reading comes unless a change that has come repeats it. -/
lemma IsNextReading.lt_toUtc_iff {reading : ℤ} (h : IsNextReading parsed zone now reading) :
    now.second < zone.toUtc reading ↔
      ∀ shift ∈ zone.shifts, shift.second ≤ now.second → ¬shift.Repeats (reading * 60) :=
  lt_second_iff zone.spaced h.clock_lt

/-- If the second of the first reading is the first match, the changes of the clock leave it so. -/
lemma IsNextMatch.undisturbed {reading minute : ℤ} (hnext : IsNextMatch parsed zone now minute)
    (hr : IsNextReading parsed zone now reading) (heq : zone.toUtc reading = minute * 60) :
    Undisturbed parsed zone now reading := by
  have hclock := hr.clock_lt
  have hwhole : zone.wallOffset reading % 60 = 0 := by
    rw [ZoneRules.toUtc] at heq
    omega
  have hcases := hr.shown_cases hwhole
  have hfound := hnext.found.2
  rw [← heq] at hfound
  have hreading : reading ≤ zone.localMinute (zone.toUtc reading) := by
    rcases hcases with ⟨-, hshows⟩ | ⟨shift, -, hleaves, -, -, hshows⟩
    · exact hshows.ge
    · have hle := hleaves.1
      have hlt := hleaves.2
      omega
  have hafter := hr.after
  have hmiss (earlier : ℤ) (hearlier : now.second < earlier * 60) (hlt : earlier < minute) :
      ¬Matching parsed (zone.localMinute (earlier * 60)) := by
    refine fun hmatch => hnext.first earlier hearlier hlt ⟨?_, hmatch⟩
    have hstart := now.inCalendar.1
    have hstop := hnext.found.1.2
    exact ⟨by omega, by omega⟩
  refine {
    calendar := ?_
    whole := hwhole
    notRepeated := hr.lt_toUtc_iff.mp (by rw [heq]; exact hnext.after)
    next := fun hold => ?_
    again := fun shift hshift hcome hstop shown hold hshown => ?_
    leftOut := fun shift hshift hleaves => ?_ }
  · rw [heq, Int.mul_ediv_cancel _ (by decide)]
    exact hnext.found.1
  · refine hmiss _ (by omega) ?_
    by_contra hnot
    have hsecond := hnext.after
    obtain rfl : minute = now.second / 60 + 1 := by omega
    rw [← heq] at hold
    omega
  · have hbefore := clock_lt_of_before zone.spaced hshift hcome
    unfold ZoneRules.localMinute at hold
    have hoffset := offsetAt_of_shift zone.spaced hshift hshown (by omega)
    have hshows : zone.localMinute ((shown - shift.after / 60) * 60) = shown := by
      rw [ZoneRules.localMinute, hoffset]
      omega
    have hlt : shown - shift.after / 60 < minute := by
      by_contra hnot
      have hoffset' : offsetAt (zone.toUtc reading) zone.offset zone.changes = shift.after :=
        offsetAt_of_shift zone.spaced hshift hstop (by omega)
      rw [ZoneRules.localMinute, hoffset'] at hreading
      unfold ZoneRules.localMinute at hafter
      omega
    have hmissed := hmiss _ (by omega) hlt
    rwa [hshows] at hmissed
  · rcases hcases with ⟨hshown, -⟩ | ⟨_, -, -, -, -, -⟩
    · exact absurd hleaves (hshown shift hshift)
    · have hwall : zone.wallOffset reading = shift.before :=
        wallOffsetAt_of_shift zone.spaced hshift (.inr hleaves)
      have hle := hleaves.1
      have hlt := hleaves.2
      rw [ZoneRules.toUtc, hwall] at heq
      rw [hwall] at hwhole
      have hnow : now.second < shift.second := by
        by_contra hnot
        have hafter := le_clock_of_after zone.spaced hshift (not_lt.mp hnot)
        omega
      have hshows {earlier : ℤ} (hcome : shift.second ≤ earlier * 60) (hstop : earlier ≤ minute) :
          zone.localMinute (earlier * 60) = earlier + shift.after / 60 := by
        rw [ZoneRules.localMinute, offsetAt_of_shift zone.spaced hshift hcome (by omega)]
        omega
      constructor
      · have hmatch := hnext.found.2
        rw [hshows (by omega) le_rfl] at hmatch
        have hminute : minute = reading - shift.before / 60 := by omega
        rwa [hminute] at hmatch
      · intro shown hbefore hcome
        have hmissed := hmiss (shown - shift.after / 60) (by omega) (by omega)
        rw [hshows hcome (by omega)] at hmissed
        rwa [show shown - shift.after / 60 + shift.after / 60 = shown by omega] at hmissed

/-- If the changes of the clock leave it so, the second of the first reading is the first match. -/
lemma Undisturbed.isNextMatch {reading : ℤ} (h : Undisturbed parsed zone now reading)
    (hr : IsNextReading parsed zone now reading) :
    zone.toUtc reading = zone.toUtc reading / 60 * 60 ∧
      IsNextMatch parsed zone now (zone.toUtc reading / 60) := by
  have hwhole := h.whole
  have hminute : zone.toUtc reading = zone.toUtc reading / 60 * 60 := by
    rw [ZoneRules.toUtc]
    omega
  refine ⟨hminute, ?_⟩
  constructor
  · rw [← hminute]
    exact hr.lt_toUtc_iff.mpr h.notRepeated
  · refine ⟨h.calendar, ?_⟩
    rw [← hminute]
    rcases hr.shown_cases hwhole with ⟨-, hshows⟩ | ⟨shift, hshift, hleaves, -, -, hshows⟩
    · rw [hshows]
      exact hr.found
    · rw [hshows]
      exact (h.leftOut shift hshift hleaves).1
  · intro earlier hafter hbefore hmatch
    exact h.first hr hafter (by omega) hmatch.2

/-- The second of the first reading is the first match exactly when the changes of the clock leave
it so. -/
lemma isNextMatch_iff_undisturbed {reading : ℤ} (hr : IsNextReading parsed zone now reading) :
    (∃ minute, zone.toUtc reading = minute * 60 ∧ IsNextMatch parsed zone now minute) ↔
      Undisturbed parsed zone now reading := by
  constructor
  · rintro ⟨minute, heq, hnext⟩
    exact hnext.undisturbed hr heq
  · exact fun h => ⟨_, h.isNextMatch hr⟩

end Search

/-- The answer is the first match, or empty because there is none, exactly when the changes of the
clock up to the first reading of the next 35 days that matches leave the search as it is; or when
there is no such reading within the calendar, and no minute matches of which the clock shows a
reading that the search does not take. -/
theorem answersNext_nextMatchingUtc_iff (parsed : ParsedCron) (zone : ZoneRules) (now : Instant) :
    AnswersNext parsed zone now (nextMatchingUtc parsed zone now) ↔
      InCalendar (zone.localMinute now.second) ∧
      ((∃ reading, IsNextReading parsed zone now reading ∧ Undisturbed parsed zone now reading) ∨
        ((¬∃ reading, IsNextReading parsed zone now reading) ∧
          InCalendar (zone.localMinute now.second + 35 * 24 * 60) ∧
          ∀ minute, now.second < minute * 60 →
            zone.localMinute (minute * 60) ≤ zone.localMinute now.second ∨
              zone.localMinute now.second + 35 * 24 * 60 < zone.localMinute (minute * 60) →
            ¬MatchesAt parsed zone minute)) := by
  rw [nextMatchingUtc]
  by_cases hstart : InCalendar (zone.localMinute now.second)
  · rw [if_neg (not_not.mpr hstart)]
    have hends := searchEnds zone parsed (35 * 24 * 60) (zone.localMinute now.second + 1)
    generalize searchReadings zone parsed (35 * 24 * 60) (zone.localMinute now.second + 1) = answer
      at hends
    cases hends with
    | @found reading hle hlt hreading hfound hfirst =>
      have hnext : IsNextReading parsed zone now reading :=
        ⟨by omega, by push_cast at hlt; omega, ⟨hreading, hfound⟩,
          fun earlier hearlier => hfirst earlier (by omega)⟩
      have hmatch := isNextMatch_iff_undisturbed hnext
      constructor
      · intro hanswer
        refine ⟨hstart, .inl ⟨reading, hnext, ?_⟩⟩
        by_cases hminute : InCalendar (zone.toUtc reading / 60)
        · rw [if_neg (not_not.mpr hminute)] at hanswer
          exact hmatch.mp hanswer
        · rw [if_pos hminute] at hanswer
          exact hanswer.elim
      · rintro ⟨-, ⟨reading', hnext', hundisturbed⟩ | ⟨hno, -⟩⟩
        · obtain rfl := hnext.unique hnext'
          rw [if_neg (not_not.mpr hundisturbed.calendar)]
          exact hmatch.mpr hundisturbed
        · exact absurd ⟨reading, hnext⟩ hno
    | none hnone =>
      have hno : ¬∃ reading, IsNextReading parsed zone now reading := by
        rintro ⟨reading, hnext⟩
        have hmiss := (hnone reading (by have := hnext.after; omega)
          (by have := hnext.inside; push_cast; omega)).2
        rw [hnext.found.2] at hmiss
        cases hmiss
      constructor
      · exact fun hanswer => ⟨hstart, .inr ⟨hno, (hnone _ (by omega) (by push_cast; omega)).1,
          fun minute hafter _ => hanswer minute hafter⟩⟩
      · rintro ⟨-, ⟨reading, hnext, -⟩ | ⟨-, -, hbeyond⟩⟩ minute hafter hmatch
        · exact hno ⟨reading, hnext⟩
        · by_cases hout : zone.localMinute (minute * 60) ≤ zone.localMinute now.second ∨
              zone.localMinute now.second + 35 * 24 * 60 < zone.localMinute (minute * 60)
          · exact hbeyond minute hafter hout hmatch
          · have hmiss := (hnone (zone.localMinute (minute * 60)) (by omega)
              (by push_cast; omega)).2
            rw [hmatch.2.2] at hmiss
            cases hmiss
    | @outside reading hle hlt hreading hfirst =>
      refine ⟨fun hanswer => hanswer.elim, ?_⟩
      rintro ⟨-, ⟨reading', hnext, -⟩ | ⟨-, hlast, -⟩⟩
      · -- The calendar does not end before a reading of it that matches.
        have hbefore : reading' < reading := by
          by_contra hnot
          exact hreading (hstart.between hnext.found.1 (by omega) (by omega))
        have hmiss := hfirst reading' (by have := hnext.after; omega) hbefore
        rw [hnext.found.2] at hmiss
        cases hmiss
      · exact hreading (hstart.between hlast (by omega) (by push_cast at hlt; omega))
  · rw [if_pos hstart]
    exact ⟨fun h => h.elim, fun h => absurd h.1 hstart⟩

/-- The second of UTC at the full hour of a day. -/
def utcHour (year month day hour : ℕ) : ℤ := (toordinal year month day * 86400 + hour * 3600 : ℕ)

/-- New York in 2026: the clock goes from 2 to 3 on 8 March and back on 1 November. -/
def newYork2026 : ZoneRules where
  offset := -18000
  changes := [(utcHour 2026 3 8 7, -14400), (utcHour 2026 11 1 6, -18000)]
  spaced := ⟨by decide +kernel, trivial⟩

/-- One in the night before the clock goes forward. -/
def beforeChange : Instant := ⟨utcHour 2026 3 8 6, by decide +kernel⟩

/-- Half past two, on the day on which the clock leaves it out: the answer is half past three. -/
theorem not_answersNext_nextMatchingUtc :
    ∃ parsed, parseCronExpression .ascii "30 2 * * *" = .ok parsed ∧
      ¬AnswersNext parsed newYork2026 beforeChange
        (nextMatchingUtc parsed newYork2026 beforeChange) := by
  have hrun : (parseCronExpression .ascii "30 2 * * *").toOption.map (fun parsed =>
      ((nextMatchingUtc parsed newYork2026 beforeChange).toOption,
        decide (MatchesAt parsed newYork2026 ((utcHour 2026 3 8 7 + 1800) / 60)))) =
      some (some (some (utcHour 2026 3 8 7 + 1800)), false) := by decide +kernel
  obtain ⟨parsed, hparsed, hvalues⟩ := Option.map_eq_some_iff.mp hrun
  obtain ⟨hanswer, hmatch⟩ := Prod.mk.inj hvalues
  have hok {ε α : Type} {x : Except ε α} {a : α} (h : x.toOption = some a) : x = .ok a := by
    cases x with
    | error error => cases h
    | ok value => exact congrArg Except.ok (Option.some.inj h)
  refine ⟨parsed, hok hparsed, ?_⟩
  rw [hok hanswer]
  rintro ⟨minute, heq, hnext⟩
  have hminute : minute = (utcHour 2026 3 8 7 + 1800) / 60 := by omega
  rw [← hminute] at hmatch
  exact of_decide_eq_false hmatch hnext.found

end Trion.Cron
