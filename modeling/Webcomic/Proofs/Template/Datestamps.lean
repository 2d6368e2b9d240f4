import Webcomic.Proofs.Text.ByteOrder
import Webcomic.Proofs.Text.Numerals
import Webcomic.Template.Builtin

/-!
# Datestamps as a code for days

A datestamp is three numerals, one behind the other: a year in four digits, a month and a day in two
(`Date.Spells`). Those that name a day of the calendar are read, and nothing else is; a day is
written as the stamp it was read from, both in file names and in messages. Since the numerals have
fixed widths, the stamp as a whole is a numeral too, and so the bytes of stamps are in the order of
their days (`datestamps_faithful`).
-/

namespace Webcomic

open Calendar Text

namespace Text

variable {width width' m n : Nat} {cs ds : List Char}

/-- Numerals one behind the other are a numeral. -/
theorem Numeral.append (h : Numeral width m cs) (h' : Numeral width' n ds) :
    Numeral (width + width') (10 ^ width' * m + n) (cs ++ ds) := by
  obtain ⟨rfl, hcs, rfl⟩ := numeral_iff.mp h
  obtain ⟨rfl, hds, rfl⟩ := numeral_iff.mp h'
  refine numeral_iff.mpr ⟨List.length_append, fun c hc => ?_, (digitsValue_append cs ds).symm⟩
  exact (List.mem_append.mp hc).elim (hcs c) (hds c)

end Text

namespace Calendar.Date

variable {s t : String} {d e : Date} {year month day year' month' day' : Nat}

/-- A text is a year in four digits, a month in two and a day in two, whether or not the calendar
has such a day. -/
def Spells (s : String) (year month day : Nat) : Prop :=
  ∃ ys ms ds, s = String.ofList (ys ++ ms ++ ds) ∧
    Numeral 4 year ys ∧ Numeral 2 month ms ∧ Numeral 2 day ds

/-! ## Reading -/

theorem spells_iff :
    Spells s year month day ↔
      (s.toList.length = 8 ∧ s.toList.all Char.isDigit = true) ∧
      year = digitsValue (s.toList.take 4) ∧ month = digitsValue ((s.toList.drop 4).take 2) ∧
      day = digitsValue (s.toList.drop 6) := by
  constructor
  · rintro ⟨ys, ms, ds, rfl, hy, hm, hd⟩
    obtain ⟨hylen, hydigits, rfl⟩ := numeral_iff.mp hy
    obtain ⟨hmlen, hmdigits, rfl⟩ := numeral_iff.mp hm
    obtain ⟨hdlen, hddigits, rfl⟩ := numeral_iff.mp hd
    -- the stamp is cut where its numbers end
    have hfront : (ys ++ ms).length = 6 := by rw [List.length_append, hylen, hmlen]
    rw [String.toList_ofList, List.drop_left' hfront, List.append_assoc, List.take_left' hylen,
      List.drop_left' hylen, List.take_left' hmlen, List.length_append, List.length_append, hylen,
      hmlen, hdlen, List.all_append, List.all_append, List.all_eq_true.mpr hydigits,
      List.all_eq_true.mpr hmdigits, List.all_eq_true.mpr hddigits]
    exact ⟨⟨rfl, rfl⟩, rfl, rfl, rfl⟩
  · rintro ⟨⟨hlen, hdigits⟩, rfl, rfl, rfl⟩
    rw [List.all_eq_true] at hdigits
    refine ⟨s.toList.take 4, (s.toList.drop 4).take 2, s.toList.drop 6, ?_, ?_, ?_, ?_⟩
    · rw [← List.drop_drop (i := 2) (j := 4), List.append_assoc, List.take_append_drop,
        List.take_append_drop, String.ofList_toList]
    · exact numeral_take (by omega) hdigits
    · refine numeral_take ?_ fun c hc => hdigits c (List.mem_of_mem_drop hc)
      rw [List.length_drop, hlen]
      decide
    · exact numeral_drop hlen hdigits

/-- **What is read are the numbers that the stamp spells.** -/
theorem ofStamp?_eq_some_iff :
    ofStamp? s = some d ↔ ∃ year : Nat, d.year = year ∧ Spells s year d.month d.day := by
  simp only [spells_iff]
  unfold ofStamp?
  dsimp only
  split
  next h =>
    rw [ofParts?_eq_some_iff]
    constructor
    · rintro ⟨hyear, hmonth, hday⟩
      exact ⟨_, hyear, h, rfl, hmonth, hday⟩
    · rintro ⟨_, hyear, -, rfl, hmonth, hday⟩
      exact ⟨hyear, hmonth, hday⟩
  next h =>
    constructor
    · intro hnone
      cases hnone
    · rintro ⟨_, -, hdigits, -⟩
      exact absurd hdigits h

/-- **Just the stamps of days are read.** -/
theorem exists_ofStamp?_iff :
    (∃ d, ofStamp? s = some d) ↔ ∃ year month day : Nat, Spells s year month day ∧
      (1 ≤ month ∧ month ≤ 12) ∧ 1 ≤ day ∧ day ≤ daysInMonth year month := by
  constructor
  · rintro ⟨d, h⟩
    obtain ⟨year, hyear, hspells⟩ := ofStamp?_eq_some_iff.mp h
    obtain ⟨-, hmonth, hday⟩ := d.isDay
    rw [hyear] at hday
    exact ⟨year, d.month, d.day, hspells, hmonth, hday⟩
  · rintro ⟨year, month, day, hspells, hmonth, hday⟩
    have hyear : year < 10 ^ 4 := by
      obtain ⟨_, _, _, -, hyear, -, -⟩ := hspells
      exact hyear.lt
    -- four digits are well inside the calendar
    have hrange : minYear ≤ (year : Int) ∧ (year : Int) ≤ maxYear := by
      rw [minYear, maxYear]
      omega
    exact ⟨⟨year, month, day, hrange, hmonth, hday⟩,
      ofStamp?_eq_some_iff.mpr ⟨year, rfl, hspells⟩⟩

/-! ## Writing -/

/-- Three numbers are spelled in one way. -/
theorem Spells.unique (h : Spells s year month day) (h' : Spells t year month day) : s = t := by
  obtain ⟨_, _, _, rfl, hy, hm, hd⟩ := h
  obtain ⟨_, _, _, rfl, hy', hm', hd'⟩ := h'
  rw [hy.unique hy', hm.unique hm', hd.unique hd']

/-- A day is written in digits that spell it, if four digits hold its year. -/
theorem spells_stamp (hlow : 0 ≤ d.year) (hhigh : d.year ≤ 9999) :
    Spells d.stamp d.year.toNat d.month d.day := by
  obtain ⟨-, ⟨_, hmonth⟩, _, hday⟩ := d.isDay
  have hshort := daysInMonth_le d.year d.month
  refine ⟨_, _, _, ?_, numeral_padded (by decide) (by omega), numeral_padded (by decide) (by omega),
    numeral_padded (by decide) (by omega)⟩
  rw [← toList_stamp hlow hhigh, String.ofList_toList]

/-- **A day is written as the stamp it was read from.** -/
theorem stamp_of_ofStamp? (h : ofStamp? s = some d) : d.stamp = s := by
  obtain ⟨hlow, hhigh⟩ := year_of_ofStamp? h
  obtain ⟨year, hyear, hspells⟩ := ofStamp?_eq_some_iff.mp h
  obtain rfl : d.year.toNat = year := by rw [hyear, Int.toNat_natCast]
  exact (spells_stamp hlow hhigh).unique hspells

/-- A day that four digits do not hold the year of is written with a sign. -/
theorem exists_not_isDigit_of_year (h : ¬ (0 ≤ d.year ∧ d.year ≤ 9999)) :
    ∃ c ∈ d.stamp.toList, c.isDigit = false := by
  have hsign : ∃ c, sign true d.year = [c] ∧ c.isDigit = false := by
    unfold sign
    split
    · exact ⟨'-', rfl, rfl⟩
    · exact ⟨'+', rfl, rfl⟩
  obtain ⟨c, hc, hdigit⟩ := hsign
  refine ⟨c, ?_, hdigit⟩
  simp [stamp, yearText, if_neg h, padded, hc]

/-- **A text of ASCII digits is read as the day it is the datestamp of.** -/
theorem ofStamp?_eq_some_iff_stamp :
    ofStamp? s = some d ↔ (∀ c ∈ s.toList, c.isDigit = true) ∧ d.stamp = s := by
  constructor
  · intro h
    obtain ⟨hlow, hhigh⟩ := year_of_ofStamp? h
    obtain rfl := stamp_of_ofStamp? h
    exact ⟨isDigit_of_mem_stamp hlow hhigh, rfl⟩
  · rintro ⟨hdigits, rfl⟩
    by_cases hyear : 0 ≤ d.year ∧ d.year ≤ 9999
    · exact ofStamp?_stamp hyear.1 hyear.2
    · obtain ⟨c, hc, hdigit⟩ := exists_not_isDigit_of_year hyear
      rw [hdigits c hc] at hdigit
      cases hdigit

theorem length_stamp (hlow : 0 ≤ d.year) (hhigh : d.year ≤ 9999) : d.stamp.toList.length = 8 :=
  (spells_iff.mp (spells_stamp hlow hhigh)).1.1

/-- Messages show a day as file names do, if four digits hold its year. -/
theorem display_eq_stamp (hlow : 0 ≤ d.year) (hhigh : d.year ≤ 9999) : d.display = d.stamp := by
  rw [display, partsText, stamp, yearText, if_pos ⟨hlow, hhigh⟩]
  rfl

/-! ## Order -/

/-- A stamp is a numeral as a whole. -/
theorem Spells.numeral (h : Spells s year month day) :
    Numeral 8 (10000 * year + 100 * month + day) s.toList := by
  obtain ⟨ys, ms, ds, rfl, hy, hm, hd⟩ := h
  have hwhole := (hy.append hm).append hd
  rw [String.toList_ofList]
  convert hwhole using 1
  omega

/-- Days are in the order of their years, months and days. -/
theorem lt_iff_parts (hyear : d.year = year) (hyear' : e.year = year') :
    d < e ↔ 10000 * year + 100 * d.month + d.day < 10000 * year' + 100 * e.month + e.day := by
  obtain ⟨-, ⟨_, _⟩, _, hday⟩ := d.isDay
  obtain ⟨-, ⟨_, _⟩, _, hday'⟩ := e.isDay
  have := daysInMonth_le d.year d.month
  have := daysInMonth_le e.year e.month
  rw [lt_iff_rank, rank, rank, hyear, hyear']
  omega

/-- **Stamps are in the order of their days.** -/
theorem lt_iff_of_ofStamp? (hd : ofStamp? s = some d) (he : ofStamp? t = some e) :
    s < t ↔ d < e := by
  obtain ⟨year, hyear, hspells⟩ := ofStamp?_eq_some_iff.mp hd
  obtain ⟨year', hyear', hspells'⟩ := ofStamp?_eq_some_iff.mp he
  rw [lt_iff_parts hyear hyear', hspells.numeral.lt_iff hspells'.numeral, String.lt_iff_toList_lt]

end Calendar.Date

namespace Template

open Date

variable {s : String} {d : Date}

theorem dateOfStamp_eq_ok_iff : dateOfStamp s = .ok d ↔ ofStamp? s = some d := by
  unfold dateOfStamp
  split
  next h => simp [h]
  next h => simp [h]

theorem dateOfParts_eq_ok_iff {year : Int} {month day : Nat} :
    dateOfParts year month day = .ok d ↔ ofParts? year month day = some d := by
  unfold dateOfParts
  split
  next h => simp [h]
  next h => simp [h]

theorem dateOfStamp_eq_error {error : Error} (h : dateOfStamp s = .error error) :
    error = .invalidDate s := by
  unfold dateOfStamp at h
  split at h
  · cases h
  · cases h
    rfl

/-- **Datestamps are a faithful code for days, and keep their order.** A text is read if it is eight
digits `YYYYMMDD` of a month and a day that the calendar has; the day has just these parts, and is
written and shown as the text again. A day whose year has four digits is read back from what is
written. Stamps are in the order of bytes as their days are in the calendar, and equal stamps are
those of equal days. A text that is not read is named in the error. -/
theorem datestamps_faithful :
    (∀ s, (∃ d, dateOfStamp s = .ok d) ↔ ∃ year month day : Nat, Spells s year month day ∧
      (1 ≤ month ∧ month ≤ 12) ∧ 1 ≤ day ∧ day ≤ daysInMonth year month) ∧
    (∀ s d, dateOfStamp s = .ok d →
      (∃ year : Nat, d.year = year ∧ Spells s year d.month d.day) ∧ d.stamp = s ∧ d.display = s) ∧
    (∀ year month day d, 0 ≤ year → year ≤ 9999 → dateOfParts year month day = .ok d →
      dateOfStamp d.stamp = .ok d) ∧
    (∀ s t d e, dateOfStamp s = .ok d → dateOfStamp t = .ok e →
      (bytes s < bytes t ↔ d < e) ∧ (bytes s = bytes t ↔ d = e)) ∧
    (∀ s error, dateOfStamp s = .error error → error.message =
      "Invalid date: '" ++ s ++ "'. Expected a real date as YYYYMMDD (e.g., 20240115)") := by
  refine ⟨?_, ?_, ?_, ?_, ?_⟩
  · intro s
    simp only [dateOfStamp_eq_ok_iff]
    exact exists_ofStamp?_iff
  · intro s d h
    rw [dateOfStamp_eq_ok_iff] at h
    obtain ⟨hlow, hhigh⟩ := year_of_ofStamp? h
    refine ⟨ofStamp?_eq_some_iff.mp h, stamp_of_ofStamp? h, ?_⟩
    rw [display_eq_stamp hlow hhigh, stamp_of_ofStamp? h]
  · intro year month day d hlow hhigh h
    obtain ⟨hyear, -, -⟩ := ofParts?_eq_some_iff.mp (dateOfParts_eq_ok_iff.mp h)
    rw [dateOfStamp_eq_ok_iff]
    exact ofStamp?_stamp (hyear ▸ hlow) (hyear ▸ hhigh)
  · intro s t d e hs ht
    rw [dateOfStamp_eq_ok_iff] at hs ht
    refine ⟨bytes_lt_bytes_iff.trans (lt_iff_of_ofStamp? hs ht), ?_⟩
    rw [bytes_inj]
    constructor
    · rintro rfl
      exact Option.some.inj (hs.symm.trans ht)
    · rintro rfl
      rw [← stamp_of_ofStamp? hs, stamp_of_ofStamp? ht]
  · intro s error h
    rw [dateOfStamp_eq_error h]
    rfl

/-- The leap day of the year zero against a day of this century, and a leap day that is none. -/
theorem datestamps_faithful_leap_days :
    ∃ d e, dateOfStamp "00000229" = .ok d ∧ dateOfStamp "20240229" = .ok e ∧
      d.stamp = "00000229" ∧ d.display = "00000229" ∧
      (bytes "00000229" < bytes "20240229" ↔ d < e) ∧
      ∃ error, dateOfStamp "21000229" = .error error ∧ error.message =
        "Invalid date: '21000229'. Expected a real date as YYYYMMDD (e.g., 20240115)" := by
  have hd : dateOfStamp "00000229" = .ok ⟨0, 2, 29, by decide⟩ := by decide +kernel
  have he : dateOfStamp "20240229" = .ok ⟨2024, 2, 29, by decide⟩ := by decide +kernel
  have herror : dateOfStamp "21000229" = .error (.invalidDate "21000229") := by decide +kernel
  obtain ⟨-, hread, -, horder, hmessage⟩ := datestamps_faithful
  obtain ⟨-, hstamp, hdisplay⟩ := hread _ _ hd
  exact ⟨_, _, hd, he, hstamp, hdisplay, (horder _ _ _ _ hd he).1, _, herror, hmessage _ _ herror⟩

end Template

end Webcomic
