import Webcomic.Proofs.Calendar.Clock
import Webcomic.Proofs.Text.Numerals
import Webcomic.Site.Config

/-!
# The day in effect

Every comic day goes live at one reading of the clock of the site (`Config.goLive`): at the update
time of that day, or of the day before. The day in effect at a moment is the one that has gone live
while the day after it has not. There is just one such day, and it is found across the ends of
months and years and for time zones on either side of universal time (`Config.today?_gone_live`).
-/

namespace Webcomic.Site.Config

open Calendar Text

variable {c : Config} {m m' : Moment} {offset : Int32} {day : Date} {hour minute update : Nat}

/-! ## What a configuration says -/

/-- The time zone of a site in minutes east of universal time: a sign, hours, and minutes in the
last two digits. -/
def zoneMinutes (c : Config) : Int :=
  match c.tzOffset with
  | none => 0
  | some offset => offset.toInt.sign * (offset.toInt.natAbs / 100 * 60 + offset.toInt.natAbs % 100)

/-- The update time of a site is the text `HHMM` of an hour and a minute. -/
def UpdatesAt (c : Config) (hour minute : Nat) : Prop :=
  hour < 24 ∧ minute < 60 ∧ ∃ hs ms, c.updateTime = String.ofList (hs ++ ms) ∧
    Numeral 2 hour hs ∧ Numeral 2 minute ms

/-- What the clock of the site shows when the day with a number goes live, for an update time. -/
def goLive (c : Config) (hour minute : Nat) (day : Int) : Reading :=
  match c.updateDay with
  | .same => toLex (day, toLex (hour * 3600 + minute * 60, 0))
  | .previous => toLex (day - 1, toLex (hour * 3600 + minute * 60, 0))

theorem updateSecond?_eq_some_iff :
    c.updateSecond? = some update ↔
      ∃ hour minute, c.UpdatesAt hour minute ∧ update = hour * 3600 + minute * 60 := by
  unfold updateSecond?
  dsimp only
  constructor
  · intro h
    split at h
    next htime =>
      obtain ⟨hlen, hdigits, hhour, hminute⟩ := htime
      cases h
      rw [List.all_eq_true] at hdigits
      -- four digits: two for the hour and two for the minute
      refine ⟨_, _, ⟨hhour, hminute, c.updateTime.toList.take 2, c.updateTime.toList.drop 2, ?_,
        numeral_take (by omega) hdigits, numeral_drop hlen hdigits⟩, rfl⟩
      rw [List.take_append_drop, String.ofList_toList]
    · cases h
  · rintro ⟨hour, minute, ⟨hhour, hminute, hs, ms, htext, hhs, hms⟩, rfl⟩
    obtain ⟨hhlen, hhdigits, rfl⟩ := numeral_iff.mp hhs
    obtain ⟨hmlen, hmdigits, rfl⟩ := numeral_iff.mp hms
    rw [htext, String.toList_ofList, List.take_left' hhlen, List.drop_left' hhlen, if_pos]
    rw [List.length_append, hhlen, hmlen, List.all_append, List.all_eq_true.mpr hhdigits,
      List.all_eq_true.mpr hmdigits]
    exact ⟨rfl, rfl, hhour, hminute⟩

/-- A configuration without a flaw has a time zone on the clock, if any, and an update time. -/
theorem flaw?_eq_none_iff :
    c.flaw? = none ↔
      (∀ offset, c.tzOffset = some offset → IsOffset offset) ∧
        ∃ hour minute, c.UpdatesAt hour minute := by
  have hupdate : c.updateSecond?.isNone = false ↔ ∃ hour minute, c.UpdatesAt hour minute := by
    rw [← Option.not_isSome, Bool.not_eq_false', Option.isSome_iff_exists]
    simp only [updateSecond?_eq_some_iff]
    constructor
    · rintro ⟨_, hour, minute, h, -⟩
      exact ⟨hour, minute, h⟩
    · rintro ⟨hour, minute, h⟩
      exact ⟨_, hour, minute, h, rfl⟩
  have hzone : (c.tzOffset.filter fun offset => ¬ IsOffset offset) = none ↔
      ∀ offset, c.tzOffset = some offset → IsOffset offset := by
    rw [Option.filter_eq_none_iff]
    simp
  rw [← hupdate, ← hzone]
  unfold flaw?
  split
  next offset hflawed =>
    constructor
    · intro h
      cases h
    · rintro ⟨hnone, -⟩
      rw [hflawed] at hnone
      cases hnone
  -- the zone is in order, so that only the update time could be at fault
  next hnone =>
    rw [hnone]
    cases c.updateSecond?.isNone <;> simp

theorem toInt_magnitude (h : IsOffset offset) :
    (magnitude offset).toInt = (offset.toInt.natAbs : Int) := by
  obtain ⟨hlow, hhigh, -⟩ := h
  unfold magnitude
  split
  next hneg =>
    rw [Int32.lt_iff_toInt_lt, Int32.toInt_zero] at hneg
    rw [Int32.toInt_neg, Int.bmod_eq_of_le (by omega) (by omega)]
    omega
  next hpos =>
    rw [Int32.lt_iff_toInt_lt, Int32.toInt_zero] at hpos
    omega

/-- The minutes of a time zone do not overflow, on either side of universal time. -/
theorem offsetMinutes_eq (h : IsOffset offset) :
    offsetMinutes offset =
      offset.toInt.sign * (offset.toInt.natAbs / 100 * 60 + offset.toInt.natAbs % 100) := by
  have hmagnitude := toInt_magnitude h
  obtain ⟨hlow, hhigh, -⟩ := h
  have hhundred : (100 : Int32).toInt = 100 := by decide
  have hsixty : (60 : Int32).toInt = 60 := by decide
  have hhours : (magnitude offset / 100).toInt = offset.toInt.natAbs / 100 := by
    rw [Int32.toInt_div_of_ne_right _ _ (by decide), hmagnitude, hhundred,
      Int.tdiv_eq_ediv_of_nonneg (by omega)]
  have hminutes : (magnitude offset % 100).toInt = offset.toInt.natAbs % 100 := by
    rw [Int32.toInt_mod, hmagnitude, hhundred, Int.tmod_eq_emod_of_nonneg (by omega)]
  -- neither the product nor the sum reaches the end of the numbers
  have hproduct : (magnitude offset / 100 * 60).toInt = offset.toInt.natAbs / 100 * 60 := by
    rw [Int32.toInt_mul, hhours, hsixty, Int.bmod_eq_of_le (by omega) (by omega)]
  have hsum : (magnitude offset / 100 * 60 + magnitude offset % 100).toInt =
      offset.toInt.natAbs / 100 * 60 + offset.toInt.natAbs % 100 := by
    rw [Int32.toInt_add, hproduct, hminutes, Int.bmod_eq_of_le (by omega) (by omega)]
  unfold offsetMinutes
  rw [hsum]
  dsimp only
  split
  next hneg =>
    rw [Int32.lt_iff_toInt_lt, Int32.toInt_zero] at hneg
    rw [Int.sign_eq_neg_one_of_neg hneg]
    omega
  next hpos =>
    rw [Int32.lt_iff_toInt_lt, Int32.toInt_zero] at hpos
    rcases (not_lt.mp hpos).eq_or_lt with hzero | hpos
    · rw [← hzero]
      rfl
    · rw [Int.sign_eq_one_of_pos hpos]
      omega

/-- The clock of the site is universal time moved by the time zone. -/
theorem localMoment?_eq_some_iff (h : ∀ offset, c.tzOffset = some offset → IsOffset offset) :
    c.localMoment? m = some m' ↔ m.MovedBy c.zoneMinutes m' := by
  unfold localMoment? zoneMinutes
  cases hzone : c.tzOffset with
  | none => rw [Moment.movedBy_zero, Option.some.injEq]
  | some offset =>
    dsimp only
    rw [← offsetMinutes_eq (h offset hzone), Moment.addMinutes?_eq_some_iff]

/-! ## The day at a moment -/

theorem dayAt_of_same (h : c.updateDay = .same) (m : Moment) :
    c.dayAt m =
      if m.second < c.updateSecond?.getD 0 then m.date.prev?.getD m.date else m.date := by
  unfold dayAt
  rw [h]
  exact apply_ite (Option.getD · m.date) _ _ _

theorem dayAt_of_previous (h : c.updateDay = .previous) (m : Moment) :
    c.dayAt m =
      if c.updateSecond?.getD 0 ≤ m.second then m.date.next?.getD m.date else m.date := by
  unfold dayAt
  rw [h]
  exact apply_ite (Option.getD · m.date) _ _ _

/-- **The day in effect is the one that has gone live while the day after it has not**, away from
the ends of the calendar. -/
theorem dayAt_eq_iff (hupdate : c.updateSecond? = some (hour * 3600 + minute * 60))
    (hfirst : m.date ≠ .first) (hlast : m.date ≠ .last) :
    c.dayAt m = day ↔
      c.goLive hour minute day.dayNumber ≤ m.reading ∧
        m.reading < c.goLive hour minute (day.dayNumber + 1) := by
  rw [goLive, goLive, ← Date.dayNumber_inj]
  -- away from the ends of the calendar the day next to that of the clock is there
  cases hday : c.updateDay with
  | same =>
    obtain ⟨before, hbefore⟩ := Date.exists_prev? ((Date.first_le m.date).lt_of_ne' hfirst)
    have hnumber := Date.dayNumber_of_prev? hbefore
    simp only [dayAt_of_same hday, hupdate, hbefore, Option.getD_some, Moment.reading,
      Prod.Lex.toLex_le_toLex, Prod.Lex.toLex_lt_toLex]
    split <;> omega
  | previous =>
    obtain ⟨after, hafter⟩ := Date.exists_next? ((Date.le_last m.date).lt_of_ne hlast)
    have hnumber := Date.dayNumber_of_next? hafter
    simp only [dayAt_of_previous hday, hupdate, hafter, Option.getD_some, Moment.reading,
      Prod.Lex.toLex_le_toLex, Prod.Lex.toLex_lt_toLex]
    split <;> omega

/-- The day in effect is at most one day away from the day of the clock. -/
theorem dayNumber_dayAt (c : Config) (m : Moment) :
    m.date.dayNumber - 1 ≤ (c.dayAt m).dayNumber ∧
      (c.dayAt m).dayNumber ≤ m.date.dayNumber + 1 := by
  cases hday : c.updateDay with
  | same =>
    have hlow := Date.le_dayNumber_prev?_getD m.date
    have hhigh := Date.dayNumber_le_iff.mpr (Date.prev?_getD_le m.date)
    rw [dayAt_of_same hday]
    split <;> omega
  | previous =>
    have hlow := Date.dayNumber_le_iff.mpr (Date.le_next?_getD m.date)
    have hhigh := Date.dayNumber_next?_getD_le m.date
    rw [dayAt_of_previous hday]
    split <;> omega

/-- **The day in effect never goes back** while the clock of the site goes on. -/
theorem dayAt_mono (h : m.reading ≤ m'.reading) : c.dayAt m ≤ c.dayAt m' := by
  -- a nanosecond makes no difference, so that only the day and the second are compared
  have hclock : m.date < m'.date ∨ m.date = m'.date ∧ m.second ≤ m'.second := by
    simp only [Moment.reading, Prod.Lex.toLex_le_toLex, Date.dayNumber_lt_iff,
      Date.dayNumber_inj] at h
    refine h.imp_right (And.imp_right fun hsecond => ?_)
    omega
  cases hday : c.updateDay with
  | same =>
    rw [dayAt_of_same hday, dayAt_of_same hday]
    rcases hclock with hlt | ⟨heq, hle⟩
    · -- at the latest the day before the later one
      refine le_trans (b := m.date) ?_ ?_
      · split
        · exact Date.prev?_getD_le m.date
        · exact le_rfl
      · split
        · exact Date.le_prev?_getD hlt
        · exact hlt.le
    · rw [heq]
      split
      · split
        · exact le_rfl
        · exact Date.prev?_getD_le _
      next hlate => rw [if_neg (by omega)]
  | previous =>
    rw [dayAt_of_previous hday, dayAt_of_previous hday]
    rcases hclock with hlt | ⟨heq, hle⟩
    · -- at the latest the day after the earlier one
      refine le_trans (b := m'.date) ?_ ?_
      · split
        · exact Date.next?_getD_le hlt
        · exact hlt.le
      · split
        · exact Date.le_next?_getD m'.date
        · exact le_rfl
    · rw [heq]
      split
      next hlate => rw [if_pos (by omega)]
      · split
        · exact Date.le_next?_getD _
        · exact le_rfl

/-! ## The day at a moment of universal time -/

/-- A time zone is at most twelve hours off. -/
theorem zoneMinutes_bounds (h : ∀ offset, c.tzOffset = some offset → IsOffset offset) :
    -720 ≤ c.zoneMinutes ∧ c.zoneMinutes ≤ 720 := by
  unfold zoneMinutes
  split
  · omega
  next offset hzone =>
    obtain ⟨hlow, hhigh, hminutes⟩ := h offset hzone
    rcases lt_trichotomy offset.toInt 0 with hneg | hzero | hpos
    · rw [Int.sign_eq_neg_one_of_neg hneg]
      omega
    · rw [hzero]
      decide
    · rw [Int.sign_eq_one_of_pos hpos]
      omega

/-- The clock of the site shows the day of universal time or one next to it. -/
theorem dayNumber_of_movedBy (h : ∀ offset, c.tzOffset = some offset → IsOffset offset)
    (hmoved : m.MovedBy c.zoneMinutes m') :
    m.date.dayNumber - 1 ≤ m'.date.dayNumber ∧ m'.date.dayNumber ≤ m.date.dayNumber + 1 := by
  have hzone := zoneMinutes_bounds h
  have hseconds := hmoved.seconds
  have hm := m.second_lt
  have hm' := m'.second_lt
  simp only [Moment.seconds, secondsPerDay] at *
  split at hseconds <;> omega

/-- Moments in no leap second stay in their order when they are moved. -/
theorem reading_le_of_movedBy {minutes : Int} {m₁ m₁' : Moment} (hm : ¬ m.IsLeap)
    (hm₁ : ¬ m₁.IsLeap) (hmoved : m.MovedBy minutes m') (hmoved₁ : m₁.MovedBy minutes m₁')
    (h : m.reading ≤ m₁.reading) : m'.reading ≤ m₁'.reading := by
  rw [Moment.reading_le_iff] at h ⊢
  rw [hmoved.seconds, hmoved₁.seconds, hmoved.nano, hmoved₁.nano, if_neg fun h => hm h.1,
    if_neg fun h => hm₁ h.1, Nat.mod_eq_of_lt (not_le.mp hm), Nat.mod_eq_of_lt (not_le.mp hm₁),
    ite_self, ite_self]
  omega

/-- **The day in effect is the one whose go-live moment has passed, and that of the day after it has
not.** For every configuration without a flaw, and every moment at which the clock of the site
stands on a day that is not at an end of the calendar, there is a day in effect, and it is the only
day of that kind. It is at most two days away from the day of universal time. Apart from leap
seconds, it never goes back as time goes on. -/
theorem today?_gone_live (hc : c.flaw? = none) :
    ∃ hour minute, c.UpdatesAt hour minute ∧
      (∀ now clock : Moment, now.MovedBy c.zoneMinutes clock →
        clock.date ≠ .first → clock.date ≠ .last →
        ∃ day, c.today? now = some day ∧
          (∀ d, d = day ↔ c.goLive hour minute d.dayNumber ≤ clock.reading ∧
            clock.reading < c.goLive hour minute (d.dayNumber + 1)) ∧
          |day.dayNumber - now.date.dayNumber| ≤ 2) ∧
      (∀ now later : Moment, ¬ now.IsLeap → ¬ later.IsLeap → now.reading ≤ later.reading →
        ∀ day day', c.today? now = some day → c.today? later = some day' → day ≤ day') := by
  obtain ⟨hzone, hour, minute, htime⟩ := flaw?_eq_none_iff.mp hc
  have hupdate := updateSecond?_eq_some_iff.mpr ⟨hour, minute, htime, rfl⟩
  refine ⟨hour, minute, htime, ?_, ?_⟩
  · intro now clock hmoved hfirst hlast
    have hlocal := (localMoment?_eq_some_iff hzone).mpr hmoved
    refine ⟨c.dayAt clock, by rw [today?, hlocal, Option.map_some], fun d => ?_, ?_⟩
    · rw [← dayAt_eq_iff hupdate hfirst hlast, eq_comm]
    · have hday := dayNumber_dayAt c clock
      -- one day for the zone, and one for the update
      have hclock := dayNumber_of_movedBy hzone hmoved
      rw [abs_le]
      omega
  · intro now later hnow hlater hle day day' hday hday'
    obtain ⟨clock, hclock, rfl⟩ := Option.map_eq_some_iff.mp hday
    obtain ⟨clock', hclock', rfl⟩ := Option.map_eq_some_iff.mp hday'
    rw [localMoment?_eq_some_iff hzone] at hclock hclock'
    exact dayAt_mono (reading_le_of_movedBy hnow hlater hclock hclock' hle)

/-- Five hours and a half west, and live the evening before: three in the morning of the first of
March is the very minute on a leap day in which the next day goes live. -/
theorem today?_gone_live_leap_day :
    ∃ c : Config, c.flaw? = none ∧ c.tzOffset = some (-530) ∧ c.updateDay = .previous ∧
      ∃ hour minute, c.UpdatesAt hour minute ∧ ∃ now clock : Moment,
        now.date = ⟨2024, 3, 1, by decide⟩ ∧ clock.date = ⟨2024, 2, 29, by decide⟩ ∧
        ∃ day, c.today? now = some day ∧ day = ⟨2024, 3, 1, by decide⟩ ∧
          c.goLive hour minute day.dayNumber ≤ clock.reading ∧
          clock.reading < c.goLive hour minute (day.dayNumber + 1) := by
  let c : Config := { updateTime := "2130", updateDay := .previous, tzOffset := some (-530) }
  let now : Moment := ⟨⟨2024, 3, 1, by decide⟩, 10800, 0, by decide⟩
  let clock : Moment := ⟨⟨2024, 2, 29, by decide⟩, 77400, 0, by decide⟩
  have hc : c.flaw? = none := by decide +kernel
  have hmoved : now.MovedBy c.zoneMinutes clock :=
    Moment.addMinutes?_eq_some_iff.mp (by decide +kernel)
  have hlive : c.today? now = some ⟨2024, 3, 1, by decide⟩ := by decide +kernel
  obtain ⟨hour, minute, htime, hday, -⟩ := today?_gone_live hc
  obtain ⟨day, htoday, hunique, -⟩ := hday now clock hmoved (by decide) (by decide)
  obtain ⟨hpassed, hahead⟩ := (hunique day).mp rfl
  exact ⟨c, hc, rfl, rfl, hour, minute, htime, now, clock, rfl, rfl, day, htoday,
    Option.some.inj (htoday.symm.trans hlive), hpassed, hahead⟩

end Webcomic.Site.Config
