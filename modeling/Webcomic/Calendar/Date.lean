/-!
# Days of the calendar

Days of the proleptic Gregorian calendar, year zero included, in a fixed range of years. A day
exists only with the parts that the calendar allows, so every `Date` is a real one. Dates are
ordered as the calendar orders them, through one number, the **rank**, that grows with the year,
then the month, then the day.
-/

namespace Webcomic.Calendar

/-- The first year of the range. -/
def minYear : Int := -262143

/-- The last year of the range. -/
def maxYear : Int := 262142

/-- Leap years: every fourth, except the centuries that 400 does not divide. -/
def isLeapYear (year : Int) : Bool :=
  year % 4 = 0 && (year % 100 ≠ 0 || year % 400 = 0)

/-- The number of days of a month; a month that does not exist has none. -/
def daysInMonth (year : Int) (month : Nat) : Nat :=
  if month = 2 then
    if isLeapYear year then 29 else 28
  else if month = 4 ∨ month = 6 ∨ month = 9 ∨ month = 11 then
    30
  else if 1 ≤ month ∧ month ≤ 12 then
    31
  else
    0

/-- The number of days of a year. -/
def daysInYear (year : Int) : Nat :=
  if isLeapYear year then 366 else 365

theorem daysInMonth_le (year : Int) (month : Nat) : daysInMonth year month ≤ 31 := by
  unfold daysInMonth
  repeat' split
  all_goals decide

/-- Whether the calendar has such a day. -/
def IsDay (year : Int) (month day : Nat) : Prop :=
  (minYear ≤ year ∧ year ≤ maxYear) ∧ (1 ≤ month ∧ month ≤ 12)
    ∧ (1 ≤ day ∧ day ≤ daysInMonth year month)

instance (year : Int) (month day : Nat) : Decidable (IsDay year month day) := by
  unfold IsDay; infer_instance

/-- A day of the calendar. -/
structure Date where
  year : Int
  month : Nat
  day : Nat
  isDay : IsDay year month day
deriving DecidableEq

namespace Date

/-- The day with the given parts, if there is one. -/
def ofParts? (year : Int) (month day : Nat) : Option Date :=
  if h : IsDay year month day then some ⟨year, month, day, h⟩ else none

@[simp] theorem ofParts?_parts (d : Date) : ofParts? d.year d.month d.day = some d := by
  simp [ofParts?, d.isDay]

theorem ofParts?_eq_some_iff {y : Int} {m n : Nat} {d : Date} :
    ofParts? y m n = some d ↔ d.year = y ∧ d.month = m ∧ d.day = n := by
  constructor
  · intro h
    unfold ofParts? at h
    split at h
    · cases h; exact ⟨rfl, rfl, rfl⟩
    · cases h
  · rintro ⟨rfl, rfl, rfl⟩
    exact ofParts?_parts d

/-! ## Order -/

/-- The place of a day in calendar order, on a calendar whose months all have 31 days. -/
def rank (d : Date) : Int :=
  (d.year * 12 + d.month) * 31 + d.day

instance : LE Date := ⟨fun a b => a.rank ≤ b.rank⟩
instance : LT Date := ⟨fun a b => a.rank < b.rank⟩
instance (a b : Date) : Decidable (a ≤ b) := inferInstanceAs (Decidable (a.rank ≤ b.rank))
instance (a b : Date) : Decidable (a < b) := inferInstanceAs (Decidable (a.rank < b.rank))

theorem le_iff_rank {a b : Date} : a ≤ b ↔ a.rank ≤ b.rank := Iff.rfl
theorem lt_iff_rank {a b : Date} : a < b ↔ a.rank < b.rank := Iff.rfl

/-- Different days have different ranks. -/
theorem rank_inj {a b : Date} : a.rank = b.rank ↔ a = b := by
  refine ⟨fun h => ?_, fun h => h ▸ rfl⟩
  obtain ⟨ya, ma, da, ⟨_, _, _, ha⟩⟩ := a
  obtain ⟨yb, mb, db, ⟨_, _, _, hb⟩⟩ := b
  have := daysInMonth_le ya ma
  have := daysInMonth_le yb mb
  simp only [rank] at h
  obtain rfl : ya = yb := by omega
  obtain rfl : ma = mb := by omega
  obtain rfl : da = db := by omega
  rfl

theorem lt_trichotomy (a b : Date) : a < b ∨ a = b ∨ b < a := by
  rw [← rank_inj, lt_iff_rank, lt_iff_rank]
  omega

/-! ## The day before and the day after -/

/-- The day after, unless the range ends. -/
def next? (d : Date) : Option Date :=
  if d.day < daysInMonth d.year d.month then
    ofParts? d.year d.month (d.day + 1)
  else if d.month < 12 then
    ofParts? d.year (d.month + 1) 1
  else
    ofParts? (d.year + 1) 1 1

/-- The day before, unless the range starts. -/
def prev? (d : Date) : Option Date :=
  if 1 < d.day then
    ofParts? d.year d.month (d.day - 1)
  else if 1 < d.month then
    ofParts? d.year (d.month - 1) (daysInMonth d.year (d.month - 1))
  else
    ofParts? (d.year - 1) 12 31

/-- Following `step` a number of times, if every step can be taken. -/
def follow (step : Date → Option Date) : Nat → Date → Option Date
  | 0, d => some d
  | n + 1, d => (step d).bind (follow step n)

/-- The day `n` days later, or earlier for a negative `n`, unless it is out of range. -/
def addDays? (d : Date) (n : Int) : Option Date :=
  if 0 ≤ n then follow next? n.toNat d else follow prev? n.natAbs d

/-! ## Places in the year and in the week -/

/-- The days of the year before the first of the month. -/
def daysBeforeMonth (year : Int) (month : Nat) : Nat :=
  (List.range (month - 1)).foldl (fun days m => days + daysInMonth year (m + 1)) 0

/-- The number of the day in its year, from 1. -/
def ordinal (d : Date) : Nat :=
  daysBeforeMonth d.year d.month + d.day

/-- The days from the start of the year 1 to the start of `year`, negative before. -/
def daysBeforeYear (year : Int) : Int :=
  let y := year - 1
  365 * y + y / 4 - y / 100 + y / 400

/-- The number of the day, counted from the first day of the year 1 as day 1. -/
def dayNumber (d : Date) : Int :=
  daysBeforeYear d.year + d.ordinal

/-- The day of the week, from Monday as 0. The first day of the year 1 was a Monday. -/
def weekday (d : Date) : Nat :=
  ((d.dayNumber - 1) % 7).toNat

/-- The week of the year by the ISO rule: a week belongs to the year that its Thursday is in. The
result is that year and the number of the week in it. -/
def isoWeek (d : Date) : Int × Nat :=
  let thursday : Int := d.ordinal + 3 - d.weekday
  if thursday < 1 then
    (d.year - 1, ((thursday + daysInYear (d.year - 1) + 6) / 7).toNat)
  else if thursday > daysInYear d.year then
    (d.year + 1, ((thursday - daysInYear d.year + 6) / 7).toNat)
  else
    (d.year, ((thursday + 6) / 7).toNat)

/-- The number of the week when weeks start on the day `start`, from Monday as 0; the days before
the first such day are in week 0. -/
def weekFrom (start : Nat) (d : Date) : Nat :=
  (d.ordinal + 6 - (d.weekday + 7 - start) % 7) / 7

end Date

end Webcomic.Calendar
