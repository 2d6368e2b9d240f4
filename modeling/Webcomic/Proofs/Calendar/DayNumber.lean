import Mathlib.Algebra.Order.Group.Int
import Mathlib.Data.Nat.Init
import Webcomic.Proofs.Calendar.Stamp

/-!
# Days by their numbers

The days of the calendar are numbered without a gap: the number of a day grows with the day
(`Date.dayNumber_lt_iff`), and the day after a day is the one with the next number
(`Date.next?_eq_some_iff`), across the ends of months and years. So moving by a number of days is
adding to the number of the day, and it fails only where the calendar ends
(`Date.addDays?_eq_some_iff`).
-/

namespace Webcomic.Calendar

/-! ## Months and years -/

theorem daysBeforeMonth_succ (year : Int) (month : Nat) (h : 1 ≤ month) :
    Date.daysBeforeMonth year (month + 1) =
      Date.daysBeforeMonth year month + daysInMonth year month := by
  obtain ⟨m, rfl⟩ : ∃ m, month = m + 1 := ⟨month - 1, by omega⟩
  rw [Date.daysBeforeMonth, Nat.add_sub_cancel, List.range_succ, List.foldl_append]
  rfl

/-- The months make up the year. -/
theorem daysBeforeMonth_thirteen (year : Int) : Date.daysBeforeMonth year 13 = daysInYear year := by
  unfold Date.daysBeforeMonth daysInMonth daysInYear
  cases isLeapYear year <;> rfl

/-- A month is over before a later one begins. -/
theorem daysBeforeMonth_add_le (year : Int) {month month' : Nat} (h : 1 ≤ month)
    (hlt : month < month') :
    Date.daysBeforeMonth year month + daysInMonth year month ≤
      Date.daysBeforeMonth year month' := by
  induction month', hlt using Nat.le_induction with
  | base => rw [daysBeforeMonth_succ year month h]
  | succ n hn ih =>
    rw [daysBeforeMonth_succ year n (by omega)]
    omega

theorem daysBeforeYear_succ (year : Int) :
    Date.daysBeforeYear (year + 1) = Date.daysBeforeYear year + daysInYear year := by
  unfold Date.daysBeforeYear daysInYear isLeapYear
  by_cases h4 : year % 4 = 0
  · by_cases h100 : year % 100 = 0
    · by_cases h400 : year % 400 = 0
      · simp [h4, h100, h400]; omega
      · simp [h4, h100, h400]; omega
    · simp [h4, h100]; omega
  · simp [h4]; omega

/-- A year is over before a later one begins. -/
theorem daysBeforeYear_add_le {year year' : Int} (h : year < year') :
    Date.daysBeforeYear year + daysInYear year ≤ Date.daysBeforeYear year' := by
  rw [← daysBeforeYear_succ]
  unfold Date.daysBeforeYear
  dsimp only
  omega

namespace Date

variable {d e : Date} {n : Int}

theorem one_le_ordinal (d : Date) : 1 ≤ d.ordinal := by
  have := d.isDay.2.2.1
  rw [ordinal]
  omega

/-- No day stands behind the end of its year. -/
theorem ordinal_le (d : Date) : d.ordinal ≤ daysInYear d.year := by
  obtain ⟨-, ⟨hmonth, hlast⟩, -, hday⟩ := d.isDay
  have hover := daysBeforeMonth_add_le d.year hmonth (Nat.lt_succ_of_le hlast)
  rw [daysBeforeMonth_thirteen] at hover
  rw [ordinal]
  omega

/-! ## Order -/

/-- Days are in the order of their years, months and days of the month. -/
theorem lt_iff_lex :
    d < e ↔ d.year < e.year ∨
      d.year = e.year ∧ (d.month < e.month ∨ d.month = e.month ∧ d.day < e.day) := by
  obtain ⟨-, ⟨_, _⟩, _, hday⟩ := d.isDay
  obtain ⟨-, ⟨_, _⟩, _, hday'⟩ := e.isDay
  have := daysInMonth_le d.year d.month
  have := daysInMonth_le e.year e.month
  rw [lt_iff_rank, rank, rank]
  omega

/-- Later days have greater numbers, within a year as from one year to the next. -/
theorem dayNumber_lt (h : d < e) : d.dayNumber < e.dayNumber := by
  have hd := d.ordinal_le
  have he := e.one_le_ordinal
  rw [dayNumber, dayNumber]
  rcases lt_iff_lex.mp h with hyear | ⟨hyear, hmonth | ⟨hmonth, hday⟩⟩
  · have hover := daysBeforeYear_add_le hyear
    omega
  · obtain ⟨-, ⟨hfirst, -⟩, -, hlast⟩ := d.isDay
    have hover := daysBeforeMonth_add_le d.year hfirst hmonth
    have hfirst' := e.isDay.2.2.1
    rw [ordinal, ordinal, ← hyear]
    omega
  · rw [ordinal, ordinal, ← hyear, ← hmonth]
    omega

/-- **The number of a day grows with the day.** -/
theorem dayNumber_lt_iff : d.dayNumber < e.dayNumber ↔ d < e := by
  refine ⟨fun h => ?_, dayNumber_lt⟩
  by_contra hnot
  rcases (not_lt.mp hnot).lt_or_eq with hlt | rfl
  · exact absurd h (dayNumber_lt hlt).not_gt
  · exact absurd h (lt_irrefl _)

theorem dayNumber_inj : d.dayNumber = e.dayNumber ↔ d = e := by
  refine ⟨fun h => ?_, fun h => h ▸ rfl⟩
  rcases lt_trichotomy d e with hlt | heq | hgt
  · exact absurd h (dayNumber_lt hlt).ne
  · exact heq
  · exact absurd h (dayNumber_lt hgt).ne'

theorem dayNumber_le_iff : d.dayNumber ≤ e.dayNumber ↔ d ≤ e := by
  rw [← not_lt, dayNumber_lt_iff, not_lt]

/-! ## The day after -/

/-- The day after has the next number, also where a month or a year begins. -/
theorem dayNumber_of_next? (h : d.next? = some e) : e.dayNumber = d.dayNumber + 1 := by
  obtain ⟨-, ⟨hmonth, hlast⟩, hfirst, hday⟩ := d.isDay
  unfold next? at h
  split at h
  · obtain ⟨hy, hm, hd⟩ := ofParts?_eq_some_iff.mp h
    rw [dayNumber, dayNumber, ordinal, ordinal, hy, hm, hd]
    omega
  next hover =>
    -- the month ends here, and perhaps the year
    have hend : d.day = daysInMonth d.year d.month := by omega
    split at h
    · obtain ⟨hy, hm, hd⟩ := ofParts?_eq_some_iff.mp h
      rw [dayNumber, dayNumber, ordinal, ordinal, hy, hm, hd, hend,
        daysBeforeMonth_succ d.year _ hmonth]
      omega
    next hdecember =>
      obtain ⟨hy, hm, hd⟩ := ofParts?_eq_some_iff.mp h
      have hyear := daysBeforeMonth_succ d.year _ hmonth
      rw [show d.month + 1 = 13 by omega, daysBeforeMonth_thirteen] at hyear
      rw [dayNumber, dayNumber, ordinal, ordinal, hy, hm, hd, hend, daysBeforeYear_succ]
      have hjanuary : daysBeforeMonth (d.year + 1) 1 = 0 := rfl
      omega

theorem one_le_daysInMonth (year : Int) {month : Nat} (h : 1 ≤ month) (h' : month ≤ 12) :
    1 ≤ daysInMonth year month := by
  unfold daysInMonth
  repeat' split
  all_goals omega

theorem exists_ofParts? {year : Int} {month day : Nat} (h : IsDay year month day) :
    ∃ d, ofParts? year month day = some d :=
  ⟨_, dif_pos h⟩

/-- A day before another has a day after it. -/
theorem exists_next? (h : d < e) : ∃ d', d.next? = some d' := by
  obtain ⟨⟨hlow, hhigh⟩, ⟨hmonth, hlast⟩, hfirst, hday⟩ := d.isDay
  obtain ⟨⟨-, hhigh'⟩, ⟨-, hlast'⟩, -, hday'⟩ := e.isDay
  unfold next?
  split
  next hinside => exact exists_ofParts? ⟨⟨hlow, hhigh⟩, ⟨hmonth, hlast⟩, by omega, hinside⟩
  next hover =>
    split
    · exact exists_ofParts? ⟨⟨hlow, hhigh⟩, ⟨by omega, by omega⟩, le_rfl,
        one_le_daysInMonth _ (by omega) (by omega)⟩
    next hdecember =>
      -- the other day is in a later year
      have hlong := daysInMonth_le e.year e.month
      have hmonth12 : d.month = 12 := by omega
      have hday31 : d.day = 31 := by
        have : daysInMonth d.year 12 = 31 := rfl
        rw [hmonth12] at hover hday
        omega
      have hyear : d.year < e.year := by
        rcases lt_iff_lex.mp h with hyear | ⟨-, hm | ⟨-, hn⟩⟩
        · exact hyear
        · omega
        · omega
      exact exists_ofParts? ⟨⟨by omega, by omega⟩, ⟨by decide, by decide⟩, le_rfl,
        one_le_daysInMonth _ (by decide) (by decide)⟩

/-- **The day after a day has the next number.** -/
theorem next?_eq_some_iff : d.next? = some e ↔ e.dayNumber = d.dayNumber + 1 := by
  refine ⟨dayNumber_of_next?, fun h => ?_⟩
  obtain ⟨d', hd'⟩ := exists_next? (dayNumber_lt_iff.mp (show d.dayNumber < e.dayNumber by omega))
  rw [hd', dayNumber_inj.mp ((dayNumber_of_next? hd').trans h.symm)]

/-! ## The day before -/

/-- The day before has the number before, also where a month or a year ends. -/
theorem dayNumber_of_prev? (h : d.prev? = some e) : e.dayNumber = d.dayNumber - 1 := by
  obtain ⟨-, ⟨hmonth, hlast⟩, hfirst, hday⟩ := d.isDay
  unfold prev? at h
  split at h
  · obtain ⟨hy, hm, hd⟩ := ofParts?_eq_some_iff.mp h
    rw [dayNumber, dayNumber, ordinal, ordinal, hy, hm, hd]
    omega
  next hstart =>
    split at h
    next hlater =>
      obtain ⟨hy, hm, hd⟩ := ofParts?_eq_some_iff.mp h
      have hmonths := daysBeforeMonth_succ d.year (d.month - 1) (by omega)
      rw [Nat.sub_add_cancel hmonth] at hmonths
      rw [dayNumber, dayNumber, ordinal, ordinal, hy, hm, hd, hmonths]
      omega
    next hjanuary =>
      obtain ⟨hy, hm, hd⟩ := ofParts?_eq_some_iff.mp h
      -- the first of January: the year before ends with the 31 days of its December
      have hyears := daysBeforeYear_succ (d.year - 1)
      rw [Int.sub_add_cancel, ← daysBeforeMonth_thirteen,
        daysBeforeMonth_succ (d.year - 1) 12 (by decide)] at hyears
      have hdecember : daysInMonth (d.year - 1) 12 = 31 := rfl
      have hnone : daysBeforeMonth d.year 1 = 0 := rfl
      rw [dayNumber, dayNumber, ordinal, ordinal, hy, hm, hd, hyears, hdecember,
        show d.month = 1 by omega, hnone]
      omega

/-- A day behind another has a day before it. -/
theorem exists_prev? (h : e < d) : ∃ d', d.prev? = some d' := by
  obtain ⟨⟨hlow, hhigh⟩, ⟨hmonth, hlast⟩, hfirst, hday⟩ := d.isDay
  obtain ⟨⟨hlow', -⟩, ⟨hmonth', -⟩, hfirst', -⟩ := e.isDay
  unfold prev?
  split
  next hinside =>
    exact exists_ofParts? ⟨⟨hlow, hhigh⟩, ⟨hmonth, hlast⟩, by omega, by omega⟩
  next hstart =>
    split
    next hlater =>
      exact exists_ofParts? ⟨⟨hlow, hhigh⟩, ⟨by omega, by omega⟩,
        one_le_daysInMonth _ (by omega) (by omega), le_rfl⟩
    next hjanuary =>
      -- the other day is in an earlier year
      have hyear : e.year < d.year := by
        rcases lt_iff_lex.mp h with hyear | ⟨-, hm | ⟨-, hn⟩⟩
        · exact hyear
        · omega
        · omega
      exact exists_ofParts? ⟨⟨by omega, by omega⟩, ⟨by decide, by decide⟩, by decide, le_rfl⟩

/-- **The day before a day has the number before.** -/
theorem prev?_eq_some_iff : d.prev? = some e ↔ e.dayNumber = d.dayNumber - 1 := by
  refine ⟨dayNumber_of_prev?, fun h => ?_⟩
  obtain ⟨d', hd'⟩ := exists_prev? (dayNumber_lt_iff.mp (show e.dayNumber < d.dayNumber by omega))
  rw [hd', dayNumber_inj.mp ((dayNumber_of_prev? hd').trans h.symm)]

/-! ## The neighbours of a day, or the day itself at the ends of the calendar -/

theorem le_next?_getD (d : Date) : d ≤ d.next?.getD d := by
  cases h : d.next? with
  | none => exact le_rfl
  | some e =>
    have hnumber := dayNumber_of_next? h
    exact dayNumber_le_iff.mp (show d.dayNumber ≤ e.dayNumber by omega)

theorem next?_getD_le (h : d < e) : d.next?.getD d ≤ e := by
  obtain ⟨d', hd'⟩ := exists_next? h
  have hnumber := dayNumber_of_next? hd'
  have hlt := dayNumber_lt h
  rw [hd', Option.getD_some, ← dayNumber_le_iff]
  omega

theorem prev?_getD_le (d : Date) : d.prev?.getD d ≤ d := by
  cases h : d.prev? with
  | none => exact le_rfl
  | some e =>
    have hnumber := dayNumber_of_prev? h
    exact dayNumber_le_iff.mp (show e.dayNumber ≤ d.dayNumber by omega)

theorem le_prev?_getD (h : e < d) : e ≤ d.prev?.getD d := by
  obtain ⟨d', hd'⟩ := exists_prev? h
  have hnumber := dayNumber_of_prev? hd'
  have hlt := dayNumber_lt h
  rw [hd', Option.getD_some, ← dayNumber_le_iff]
  omega

theorem dayNumber_next?_getD_le (d : Date) : (d.next?.getD d).dayNumber ≤ d.dayNumber + 1 := by
  cases h : d.next? with
  | none =>
    rw [Option.getD_none]
    omega
  | some e => exact (dayNumber_of_next? h).le

theorem le_dayNumber_prev?_getD (d : Date) : d.dayNumber - 1 ≤ (d.prev?.getD d).dayNumber := by
  cases h : d.prev? with
  | none =>
    rw [Option.getD_none]
    omega
  | some e => exact (dayNumber_of_prev? h).ge

/-! ## Many days -/

/-- Steps of one day lead to the day whose number is as many away, if the calendar has it. -/
theorem follow_eq_some_iff {step : Date → Option Date} {k : Int} (hk : k = 1 ∨ k = -1)
    (hstep : ∀ d e, step d = some e ↔ e.dayNumber = d.dayNumber + k)
    (hsome : ∀ d e : Date, 0 < k * (e.dayNumber - d.dayNumber) → ∃ d', step d = some d')
    (steps : Nat) : follow step steps d = some e ↔ e.dayNumber = d.dayNumber + k * steps := by
  induction steps generalizing d with
  | zero => simp [follow, ← dayNumber_inj, eq_comm]
  | succ steps ih =>
    rw [follow, Option.bind_eq_some_iff]
    constructor
    · rintro ⟨d', hd', hfollow⟩
      rw [ih.mp hfollow, (hstep d d').mp hd', Int.natCast_add, Int.mul_add]
      omega
    · intro h
      rw [Int.natCast_add, Int.mul_add] at h
      -- there is a further day in the direction of the one that is looked for
      obtain ⟨d', hd'⟩ := hsome d e (by rcases hk with rfl | rfl <;> omega)
      refine ⟨d', hd', ih.mpr ?_⟩
      rw [(hstep d d').mp hd']
      omega

theorem follow_next?_eq_some_iff (steps : Nat) :
    follow next? steps d = some e ↔ e.dayNumber = d.dayNumber + steps := by
  rw [follow_eq_some_iff (k := 1) (.inl rfl) (fun _ _ => next?_eq_some_iff), Int.one_mul]
  exact fun d e h => exists_next? (dayNumber_lt_iff.mp (show d.dayNumber < e.dayNumber by omega))

theorem follow_prev?_eq_some_iff (steps : Nat) :
    follow prev? steps d = some e ↔ e.dayNumber = d.dayNumber - steps := by
  rw [follow_eq_some_iff (k := -1) (.inr rfl) fun _ _ => prev?_eq_some_iff]
  · omega
  · exact fun d e h => exists_prev? (dayNumber_lt_iff.mp (show e.dayNumber < d.dayNumber by omega))

/-- **Moving by days is adding to the number of the day.** It fails only where the calendar ends. -/
theorem addDays?_eq_some_iff : d.addDays? n = some e ↔ e.dayNumber = d.dayNumber + n := by
  unfold addDays?
  split
  · rw [follow_next?_eq_some_iff]
    omega
  · rw [follow_prev?_eq_some_iff]
    omega

/-! ## The ends of the calendar -/

/-- The first day of the calendar. -/
def first : Date := ⟨minYear, 1, 1, by decide⟩

/-- The last day of the calendar. -/
def last : Date := ⟨maxYear, 12, 31, by decide⟩

theorem first_le (d : Date) : first ≤ d := by
  obtain ⟨⟨hlow, -⟩, ⟨hmonth, -⟩, hday, -⟩ := d.isDay
  rw [le_iff_rank, rank, rank, first]
  dsimp only
  omega

theorem le_last (d : Date) : d ≤ last := by
  obtain ⟨⟨-, hhigh⟩, ⟨-, hmonth⟩, -, hday⟩ := d.isDay
  have := daysInMonth_le d.year d.month
  rw [le_iff_rank, rank, rank, last]
  dsimp only
  omega

end Date

end Webcomic.Calendar
