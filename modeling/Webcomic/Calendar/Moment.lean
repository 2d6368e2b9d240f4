import Webcomic.Calendar.Date

/-!
# Moments

A day and a time of day, to the nanosecond. The second before a minute can be lengthened by a leap
second, which is counted in its nanoseconds. Moving a moment by whole minutes can leave the range
of the calendar.
-/

namespace Webcomic.Calendar

/-- Seconds in a day that no leap second lengthens. -/
def secondsPerDay : Nat := 86400

/-- Nanoseconds in a second. -/
def nanosPerSecond : Nat := 1000000000

/-- Whether the second of the day and the nanosecond in it can stand on a clock. Nanoseconds past
the first second are the leap second after the last second of a minute. -/
def IsTime (second nano : Nat) : Prop :=
  second < secondsPerDay ∧ nano < 2 * nanosPerSecond
    ∧ (nanosPerSecond ≤ nano → second % 60 = 59)

instance (second nano : Nat) : Decidable (IsTime second nano) := by
  unfold IsTime; infer_instance

/-- A day and a time of day. -/
structure Moment where
  date : Date
  /-- The seconds since midnight. -/
  second : Nat
  nano : Nat
  isTime : IsTime second nano
deriving DecidableEq

namespace Moment

/-- The moment with the given parts, if the calendar and the clock have it. -/
def ofParts? (year : Int) (month day hour minute second nano : Nat) : Option Moment := do
  let date ← Date.ofParts? year month day
  if hour < 24 ∧ minute < 60 ∧ second < 60 then
    let total := hour * 3600 + minute * 60 + second
    if h : IsTime total nano then some ⟨date, total, nano, h⟩ else none
  else
    none

/-- The moment a number of seconds after the start of the given day. -/
def afterMidnight? (date : Date) (seconds : Int) (nano : Nat) : Option Moment := do
  let day ← date.addDays? (seconds / secondsPerDay)
  let second := (seconds % secondsPerDay).toNat
  if h : IsTime second nano then some ⟨day, second, nano, h⟩ else none

/-- The moment a number of minutes later, or earlier for a negative number. A leap second is left
as soon as the clock moves: forward it counts as the second it lengthens, backward as the next. -/
def addMinutes? (m : Moment) (minutes : Int) : Option Moment :=
  if m.nano < nanosPerSecond then
    afterMidnight? m.date (m.second + minutes * 60) m.nano
  else if minutes = 0 then
    some m
  else if 0 < minutes then
    afterMidnight? m.date (m.second + minutes * 60) (m.nano - nanosPerSecond)
  else
    afterMidnight? m.date (m.second + 1 + minutes * 60) (m.nano - nanosPerSecond)

end Moment

end Webcomic.Calendar
