import Mathlib.Data.Prod.Lex
import Webcomic.Calendar.Moment
import Webcomic.Proofs.Calendar.DayNumber

/-!
# The clock and the calendar

A clock with a calendar shows a day, a second and a nanosecond (`Moment.reading`), and moments are
compared by what is shown, the day first. The day and the second together are a number of seconds
(`Moment.seconds`), and moving a moment by some minutes is adding to it, whatever ends of days,
months and years are passed (`Moment.addMinutes?_eq_some_iff`).
-/

namespace Webcomic.Calendar

/-- What a clock with a calendar shows: the number of the day, the second of the day and the
nanosecond. An earlier part outweighs those behind it. -/
abbrev Reading := Int ×ₗ Nat ×ₗ Nat

namespace Moment

variable {m m' : Moment} {minutes : Int}

/-- What the clock shows at a moment. -/
def reading (m : Moment) : Reading :=
  toLex (m.date.dayNumber, toLex (m.second, m.nano))

/-- The seconds up to the one that the clock shows, counted from the start of the day 0. -/
def seconds (m : Moment) : Int :=
  m.date.dayNumber * secondsPerDay + m.second

/-- The second that a clock shows is lengthened, and the moment is behind its first part. -/
def IsLeap (m : Moment) : Prop :=
  nanosPerSecond ≤ m.nano

instance (m : Moment) : Decidable m.IsLeap := inferInstanceAs (Decidable (_ ≤ _))

/-- A moment is another, moved by some minutes. A leap second is left as soon as the clock moves:
forward it counts as the second it lengthens, backward as the next. -/
structure MovedBy (m : Moment) (minutes : Int) (m' : Moment) : Prop where
  seconds : m'.seconds = m.seconds + minutes * 60 + if m.IsLeap ∧ minutes < 0 then 1 else 0
  nano : m'.nano = if minutes = 0 then m.nano else m.nano % nanosPerSecond

theorem movedBy_iff :
    m.MovedBy minutes m' ↔
      m'.seconds = m.seconds + minutes * 60 + (if m.IsLeap ∧ minutes < 0 then 1 else 0) ∧
      m'.nano = if minutes = 0 then m.nano else m.nano % nanosPerSecond :=
  ⟨fun h => ⟨h.seconds, h.nano⟩, fun h => ⟨h.1, h.2⟩⟩

theorem second_lt (m : Moment) : m.second < secondsPerDay := m.isTime.1

/-! ## Comparing moments -/

theorem reading_le_iff :
    m.reading ≤ m'.reading ↔
      m.seconds < m'.seconds ∨ m.seconds = m'.seconds ∧ m.nano ≤ m'.nano := by
  have hm := m.second_lt
  have hm' := m'.second_lt
  simp only [reading, Prod.Lex.toLex_le_toLex, seconds, secondsPerDay] at *
  omega

/-- A moment is known by its seconds and its nanosecond. -/
theorem eq_iff : m = m' ↔ m.seconds = m'.seconds ∧ m.nano = m'.nano := by
  constructor
  · rintro rfl
    exact ⟨rfl, rfl⟩
  · rintro ⟨hseconds, hnano⟩
    have hm := m.second_lt
    have hm' := m'.second_lt
    simp only [seconds, secondsPerDay] at *
    obtain ⟨d, s, n, h⟩ := m
    obtain ⟨d', s', n', h'⟩ := m'
    dsimp only at *
    obtain rfl : d = d' := Date.dayNumber_inj.mp (by omega)
    obtain rfl : s = s' := by omega
    obtain rfl : n = n' := hnano
    rfl

/-! ## Moving moments -/

theorem movedBy_zero : m.MovedBy 0 m' ↔ m = m' := by
  simp [movedBy_iff, eq_iff, eq_comm]

/-- A number of seconds is divided into days and what is left of the last. -/
theorem afterMidnight?_eq_some_iff {date : Date} {seconds : Int} {nano : Nat}
    (h : nano < nanosPerSecond) :
    afterMidnight? date seconds nano = some m ↔
      m.seconds = date.dayNumber * secondsPerDay + seconds ∧ m.nano = nano := by
  -- what is left of the last day is a time of day, and no leap second
  have htime : IsTime (seconds % secondsPerDay).toNat nano := by
    refine ⟨?_, by omega, fun hleap => absurd h (by omega)⟩
    rw [secondsPerDay]
    omega
  have hm := m.second_lt
  simp only [afterMidnight?, bind, Option.bind_eq_some_iff, dif_pos htime, Option.some.injEq,
    Date.addDays?_eq_some_iff]
  constructor
  · rintro ⟨day, hday, rfl⟩
    refine ⟨?_, rfl⟩
    simp only [Moment.seconds, hday, secondsPerDay]
    omega
  · rintro ⟨hseconds, rfl⟩
    simp only [Moment.seconds, secondsPerDay] at *
    refine ⟨m.date, by omega, ?_⟩
    rw [eq_iff, Moment.seconds, Moment.seconds]
    dsimp only
    refine ⟨by omega, rfl⟩

/-- **Moving a moment is adding to its seconds.** It fails only where the calendar ends. -/
theorem addMinutes?_eq_some_iff : m.addMinutes? minutes = some m' ↔ m.MovedBy minutes m' := by
  have hnano := m.isTime.2.1
  have hday : ∀ seconds : Int, m.date.dayNumber * secondsPerDay + (m.second + seconds) =
      m.seconds + seconds := fun seconds => (Int.add_assoc _ _ _).symm
  rw [movedBy_iff]
  unfold addMinutes?
  split
  next hplain =>
    rw [afterMidnight?_eq_some_iff hplain, hday, if_neg fun h => hplain.not_ge h.1, Int.add_zero,
      Nat.mod_eq_of_lt hplain, ite_self]
  -- a leap second is read as the second after it, with what is beyond a whole second kept
  next hleap =>
    have hrest : m.nano % nanosPerSecond = m.nano - nanosPerSecond := by
      rw [Nat.mod_eq_sub_mod (by omega), Nat.mod_eq_of_lt (by omega)]
    have hsmall : m.nano - nanosPerSecond < nanosPerSecond := by omega
    rw [hrest]
    split
    next hzero => simp [hzero, eq_iff, eq_comm]
    next hmoved =>
      split
      next hforward =>
        rw [afterMidnight?_eq_some_iff hsmall, hday, if_neg fun h => hforward.not_gt h.2,
          Int.add_zero]
      -- going back from a leap second, the second it stands for has to be counted as well
      next hbackward =>
        have hback : m.IsLeap ∧ minutes < 0 := ⟨not_lt.mp hleap, by omega⟩
        rw [afterMidnight?_eq_some_iff hsmall, Int.add_assoc, hday, if_pos hback, Int.add_comm 1,
          Int.add_assoc]

end Moment

end Webcomic.Calendar
