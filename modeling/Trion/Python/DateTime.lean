import Mathlib.Tactic.Common
import Mathlib.Data.Nat.Basic
import Mathlib.Data.Int.Basic
import Mathlib.Algebra.GroupWithZero.Nat

/-!
# `datetime`

The aware UTC datetimes of the source, the text `isoformat` writes for them, and wall-clock
times to the minute.  A `DateTime` carries the proof that its fields are those of a real
moment, so `isoformat` always writes the fixed-width form, and what it writes is read back.

What the program does not define is the field of `Calendar`: the texts `fromisoformat` reads
beyond those `isoformat` writes, and the time-zone database behind `ZoneInfo`.
-/

namespace Trion.Python

/-! ### Dates of the proleptic Gregorian calendar -/

/-- `calendar.isleap`. -/
def isLeap (year : ℕ) : Bool := year % 4 == 0 && (year % 100 != 0 || year % 400 == 0)

/-- The lengths of the months of a year. -/
def monthLengths (year : ℕ) : List ℕ :=
  [31, if isLeap year then 29 else 28, 31, 30, 31, 30, 31, 31, 30, 31, 30, 31]

/-- `date(year, month, day).toordinal()`: 1 January of year 1 is day 1. -/
def toordinal (year month day : ℕ) : ℕ :=
  let before := year - 1
  before * 365 + before / 4 - before / 100 + before / 400
    + ((monthLengths year).take (month - 1)).sum + day

/-- The month and the day of the month of the `n`-th day of a year, counted from 0. -/
def monthDay (month n : ℕ) : List ℕ → ℕ × ℕ
  | [] => (month, n + 1)
  | length :: rest => if n < length then (month, n + 1) else monthDay (month + 1) (n - length) rest

/-- `date.fromordinal(ordinal)` as year, month and day. -/
def fromordinal (ordinal : ℕ) : ℕ × ℕ × ℕ :=
  let n := ordinal - 1
  let n400 := n / 146097
  let n100 := n % 146097 / 36524
  let n4 := n % 146097 % 36524 / 1461
  let n1 := n % 146097 % 36524 % 1461 / 365
  let year := n400 * 400 + n100 * 100 + n4 * 4 + n1 + 1
  -- the last day of a leap year has used up its four or its hundred years
  if n1 == 4 || n100 == 4 then (year - 1, 12, 31)
  else (year, monthDay 1 (n % 146097 % 36524 % 1461 % 365) (monthLengths year))

example : fromordinal (toordinal 2024 2 29) = (2024, 2, 29) := by decide

/-- A wall-clock time to the minute. -/
structure WallTime where
  year : ℕ
  month : ℕ
  day : ℕ
  hour : ℕ
  minute : ℕ
deriving DecidableEq, Repr

/-- `weekday()`: Monday is 0. -/
def WallTime.weekday (t : WallTime) : ℕ := (toordinal t.year t.month t.day + 6) % 7

/-- The wall-clock time some minutes after the midnight that begins the day `ordinal`. -/
def WallTime.ofOrdinal (ordinal minutes : ℕ) : WallTime :=
  let date := fromordinal (ordinal + minutes / 1440)
  { year := date.1, month := date.2.1, day := date.2.2, hour := minutes % 1440 / 60,
    minute := minutes % 60 }

/-! ### Numbers of fixed width -/

/-- The last `width` decimal digits of a number. -/
def padded : ℕ → ℕ → List Char
  | 0, _ => []
  | width + 1, n => padded width (n / 10) ++ [Nat.digitChar (n % 10)]

/-- The number the digits stand for. -/
def digits? (cs : List Char) : Option ℕ :=
  if cs.all Char.isDigit then some (cs.foldl (fun n c => 10 * n + (c.toNat - '0'.toNat)) 0)
  else none

@[simp] lemma length_padded (width n : ℕ) : (padded width n).length = width := by
  induction width generalizing n with
  | zero => rfl
  | succ width ih => simp [padded, ih]

lemma isDigit_digitChar {n : ℕ} (h : n < 10) : (Nat.digitChar n).isDigit = true := by
  have htable : ∀ k : Fin 10, (Nat.digitChar k).isDigit = true := by decide
  exact htable ⟨n, h⟩

lemma toNat_digitChar {n : ℕ} (h : n < 10) : (Nat.digitChar n).toNat - '0'.toNat = n := by
  have htable : ∀ k : Fin 10, (Nat.digitChar k).toNat - '0'.toNat = k := by decide
  exact htable ⟨n, h⟩

lemma isDigit_of_mem_padded {width n : ℕ} {c : Char} (h : c ∈ padded width n) :
    c.isDigit = true := by
  induction width generalizing n with
  | zero => simp [padded] at h
  | succ width ih =>
    rcases List.mem_append.mp h with h | h
    · exact ih h
    · obtain rfl := List.mem_singleton.mp h
      exact isDigit_digitChar (Nat.mod_lt _ (by decide))

/-- Digits of fixed width are read back. -/
lemma digits?_padded {width n : ℕ} (h : n < 10 ^ width) : digits? (padded width n) = some n := by
  have hall : (padded width n).all Char.isDigit = true :=
    List.all_eq_true.mpr fun c hc => isDigit_of_mem_padded hc
  have hvalue : (padded width n).foldl (fun n c => 10 * n + (c.toNat - '0'.toNat)) 0 = n := by
    clear hall
    induction width generalizing n with
    | zero => simpa [padded, eq_comm] using h
    | succ width ih =>
      have hdiv : n / 10 < 10 ^ width := by
        rw [Nat.div_lt_iff_lt_mul (by decide)]
        simpa [Nat.pow_succ] using h
      rw [padded, List.foldl_append, ih hdiv, List.foldl_cons, List.foldl_nil,
        toNat_digitChar (Nat.mod_lt _ (by decide))]
      omega
  unfold digits?
  rw [if_pos hall, hvalue]

/-! ### Moments -/

/-- The fields are those of a moment `datetime` accepts. -/
def IsDateTime (year month day hour minute second microsecond : ℕ) : Prop :=
  (1 ≤ year ∧ year ≤ 9999) ∧ (1 ≤ month ∧ month ≤ 12) ∧
    (1 ≤ day ∧ day ≤ (monthLengths year).getD (month - 1) 0) ∧
    hour < 24 ∧ minute < 60 ∧ second < 60 ∧ microsecond < 1000000

instance (y mo d h mi s us : ℕ) : Decidable (IsDateTime y mo d h mi s us) :=
  inferInstanceAs (Decidable (_ ∧ _))

/-- An aware `datetime` in UTC. -/
structure DateTime where
  year : ℕ
  month : ℕ
  day : ℕ
  hour : ℕ
  minute : ℕ
  second : ℕ
  microsecond : ℕ
  valid : IsDateTime year month day hour minute second microsecond
deriving DecidableEq

namespace DateTime

/-- The microseconds since the beginning of the calendar; moments are compared by them. -/
def ticks (t : DateTime) : ℕ :=
  (((toordinal t.year t.month t.day * 24 + t.hour) * 60 + t.minute) * 60 + t.second) * 1000000
    + t.microsecond

/-- `int((a - b).total_seconds())`. -/
def secondsSince (a b : DateTime) : ℤ := Int.tdiv ((a.ticks : ℤ) - b.ticks) 1000000

/-- The offset `isoformat` writes for UTC. -/
def utcSuffix : List Char := ['+', '0', '0', ':', '0', '0']

/-- `isoformat()`. -/
def isoChars (t : DateTime) : List Char :=
  padded 4 t.year ++ '-' :: (padded 2 t.month ++ '-' :: (padded 2 t.day ++ 'T' ::
    (padded 2 t.hour ++ ':' :: (padded 2 t.minute ++ ':' :: (padded 2 t.second ++
      if t.microsecond = 0 then utcSuffix else '.' :: (padded 6 t.microsecond ++ utcSuffix))))))

/-- `isoformat()`. -/
def isoformat (t : DateTime) : String := String.ofList t.isoChars

/-- The moment with the given fields, if there is one. -/
def ofFields? (year month day hour minute second microsecond : ℕ) : Option DateTime :=
  if h : IsDateTime year month day hour minute second microsecond then
    some ⟨year, month, day, hour, minute, second, microsecond, h⟩
  else none

/-- Reads a number of fixed width and the separator after it. -/
def field? (width : ℕ) (sep : Char) (cs : List Char) : Option (ℕ × List Char) :=
  match cs.drop width with
  | [] => none
  | c :: rest => if c = sep then (digits? (cs.take width)).map (·, rest) else none

/-- Reads the fraction of a second and the offset at the end of what `isoformat` writes. -/
def fraction? (cs : List Char) : Option ℕ :=
  if cs = utcSuffix then some 0
  else match cs with
    | '.' :: rest => if rest.drop 6 = utcSuffix then digits? (rest.take 6) else none
    | _ => none

/-- Reads the texts `isoformat` writes, and no others. -/
def ofIso? (text : String) : Option DateTime := do
  let (year, cs) ← field? 4 '-' text.toList
  let (month, cs) ← field? 2 '-' cs
  let (day, cs) ← field? 2 'T' cs
  let (hour, cs) ← field? 2 ':' cs
  let (minute, cs) ← field? 2 ':' cs
  let second ← digits? (cs.take 2)
  let microsecond ← fraction? (cs.drop 2)
  ofFields? year month day hour minute second microsecond

lemma field?_padded {width n : ℕ} (h : n < 10 ^ width) (sep : Char) (rest : List Char) :
    field? width sep (padded width n ++ sep :: rest) = some (n, rest) := by
  unfold field?
  rw [List.drop_left' (length_padded width n), List.take_left' (length_padded width n),
    digits?_padded h]
  simp

lemma fraction?_isoformat {us : ℕ} (h : us < 1000000) :
    fraction? (if us = 0 then utcSuffix else '.' :: (padded 6 us ++ utcSuffix)) = some us := by
  by_cases h0 : us = 0
  · simp [h0, fraction?]
  · have hne : '.' :: (padded 6 us ++ utcSuffix) ≠ utcSuffix := fun heq => by
      have hhead := congrArg List.head? heq
      simp [utcSuffix] at hhead
    rw [if_neg h0]
    unfold fraction?
    rw [if_neg hne]
    simp only [List.drop_left' (length_padded 6 us), List.take_left' (length_padded 6 us), if_true]
    exact digits?_padded (by simpa using h)

/-- What `isoformat` writes is read back. -/
theorem ofIso?_isoformat (t : DateTime) : ofIso? t.isoformat = some t := by
  obtain ⟨⟨-, hyear⟩, ⟨-, hmonth⟩, ⟨-, hday⟩, hhour, hminute, hsecond, hmicro⟩ := t.valid
  have hlength : (monthLengths t.year).getD (t.month - 1) 0 < 10 ^ 2 := by
    have hall : ∀ n ∈ monthLengths t.year, n < 10 ^ 2 := by
      unfold monthLengths
      split <;> decide
    rw [List.getD_eq_getElem?_getD]
    cases hget : (monthLengths t.year)[t.month - 1]? with
    | none => decide
    | some n => exact hall n (List.mem_of_getElem? hget)
  unfold ofIso? isoformat isoChars
  rw [String.toList_ofList, field?_padded (by omega)]
  simp only [Option.bind_eq_bind, Option.bind_some]
  rw [field?_padded (by omega)]
  simp only [Option.bind_some]
  rw [field?_padded (by omega)]
  simp only [Option.bind_some]
  rw [field?_padded (by omega)]
  simp only [Option.bind_some]
  rw [field?_padded (by omega)]
  simp only [Option.bind_some]
  rw [List.take_left' (length_padded 2 t.second), List.drop_left' (length_padded 2 t.second),
    digits?_padded (by omega), fraction?_isoformat hmicro]
  simp only [Option.bind_some]
  unfold ofFields?
  rw [dif_pos t.valid]

/-- `isoformat` writes digits and the separators of a date. -/
lemma isoformat_chars (t : DateTime) {c : Char} (h : c ∈ t.isoformat.toList) :
    c.isDigit = true ∨ c ∈ ['-', 'T', ':', '.', '+'] := by
  have hsuffix : ∀ c ∈ utcSuffix, c.isDigit = true ∨ c ∈ ['-', 'T', ':', '.', '+'] := by
    simp [utcSuffix]
  unfold isoformat isoChars at h
  rw [String.toList_ofList] at h
  simp only [List.mem_append, List.mem_cons] at h
  rcases h with h | rfl | h | rfl | h | rfl | h | rfl | h | rfl | h | h
  all_goals first
    | exact .inl (isDigit_of_mem_padded h)
    | exact .inr (by decide)
    | skip
  split at h
  · exact hsuffix c h
  · rcases List.mem_cons.mp h with rfl | h
    · exact .inr (by decide)
    · rcases List.mem_append.mp h with h | h
      · exact .inl (isDigit_of_mem_padded h)
      · exact hsuffix c h

end DateTime

/-! ### What the program does not define -/

/-- The texts `fromisoformat` reads and the time-zone database.  -/
structure Calendar where
  /-- `datetime.fromisoformat(text)` in UTC, where a text without an offset is a UTC time; `none`
  where it raises. -/
  fromisoformat : String → Option DateTime
  /-- `ZoneInfo(name)`, `none` where it raises, as the wall clock of the zone. -/
  zoneInfo : String → Option (DateTime → WallTime)
  /-- `fromisoformat` is the inverse of `isoformat`. -/
  fromisoformat_isoformat (t : DateTime) : fromisoformat t.isoformat = some t

/-- A calendar that reads what `isoformat` writes and knows the zone UTC. -/
def Calendar.utc : Calendar where
  fromisoformat := DateTime.ofIso?
  zoneInfo name :=
    if name = "UTC" then some fun t => ⟨t.year, t.month, t.day, t.hour, t.minute⟩ else none
  fromisoformat_isoformat := DateTime.ofIso?_isoformat

end Trion.Python
