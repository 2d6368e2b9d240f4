import Mathlib.Algebra.Group.Nat.Defs
import Mathlib.Data.List.Induction
import Mathlib.Order.Defs.LinearOrder
import Webcomic.Calendar.Stamp

/-!
# Datestamps and days

A day of the years 0 to 9999 is read back from its datestamp (`Date.ofStamp?_stamp`), and only such
days are read (`Date.year_of_ofStamp?`). So different days have different stamps.
-/

namespace Webcomic.Text

/-- A number that fits its field fills it with zeros and its digits. -/
theorem padded_zero_natCast (width n : Nat) :
    padded .zero width false n =
      List.replicate (width - (digits n).length) '0' ++ digits n := by
  have hsign : sign false (n : Int) = [] := by
    rw [sign, if_neg (by omega)]
    rfl
  simp only [padded, hsign, Int.natAbs_natCast, List.nil_append, List.length_nil, Nat.zero_add]

theorem length_padded_zero {width n : Nat} (hw : 0 < width) (h : n < 10 ^ width) :
    (padded .zero width false n).length = width := by
  have hlength : (digits n).length ≤ width := (Nat.length_toDigits_le_iff (by omega) hw).mpr h
  rw [padded_zero_natCast, List.length_append, List.length_replicate]
  omega

theorem isDigit_of_mem_padded_zero {width n : Nat} :
    ∀ c ∈ padded .zero width false n, c.isDigit = true := by
  intro c hc
  rw [padded_zero_natCast] at hc
  rcases List.mem_append.mp hc with hc | hc
  · rw [List.eq_of_mem_replicate hc]
    rfl
  · exact Nat.isDigit_of_mem_toDigits (by omega) (by omega) hc

/-- The value of a number that is filled with zeros. -/
theorem digitsValue_padded_zero (width n : Nat) :
    digitsValue (padded .zero width false n) = n := by
  have hzeros : ∀ k, (List.replicate k '0').foldl
      (fun value c => 10 * value + (c.toNat - '0'.toNat)) 0 = 0 := by
    intro k
    induction k with
    | zero => rfl
    | succ k ih => exact ih
  rw [padded_zero_natCast, digitsValue, List.foldl_append, hzeros]
  exact Nat.ofDigitChars_toDigits (by omega) (by omega)

/-- A run of digits stands for less than the power of ten with as many zeros. -/
theorem digitsValue_lt {cs : List Char} (h : ∀ c ∈ cs, c.isDigit = true) :
    digitsValue cs < 10 ^ cs.length := by
  have hdigit : ∀ c ∈ cs, c.toNat - '0'.toNat < 10 := by
    intro c hc
    have hrange := h c hc
    simp only [Char.isDigit, Bool.and_eq_true, decide_eq_true_eq, ge_iff_le, UInt32.le_iff_toNat_le]
      at hrange
    have hnine : c.toNat ≤ 57 := hrange.2
    show c.toNat - 48 < 10
    omega
  rw [digitsValue]
  -- on the last digit, which counts for itself, where the others count tenfold
  induction cs using List.reverseRecOn with
  | nil => simp
  | append_singleton cs c ih =>
    have hcs := ih (fun c hc => h c (List.mem_append_left _ hc))
      (fun c hc => hdigit c (List.mem_append_left _ hc))
    have hc := hdigit c (by simp)
    rw [List.foldl_append, List.length_append, List.foldl_cons, List.foldl_nil]
    simp only [List.length_cons, List.length_nil, Nat.zero_add, Nat.pow_succ]
    omega

end Webcomic.Text

namespace Webcomic.Calendar.Date

open Webcomic.Text

/-- Days are ordered as the calendar orders them. -/
instance : LinearOrder Date where
  le_refl a := Int.le_refl a.rank
  le_trans _ _ _ := Int.le_trans
  lt_iff_le_not_ge a b := Int.lt_iff_le_and_not_ge
  le_antisymm _ _ h h' := rank_inj.mp (Int.le_antisymm h h')
  le_total a b := Int.le_total a.rank b.rank
  toDecidableLE := inferInstance
  toDecidableEq := inferInstance
  toDecidableLT := inferInstance

theorem year_of_ofStamp? {stamp : String} {d : Date} (h : ofStamp? stamp = some d) :
    0 ≤ d.year ∧ d.year ≤ 9999 := by
  simp only [ofStamp?] at h
  split at h
  next hcs =>
    obtain ⟨hyear, -, -⟩ := ofParts?_eq_some_iff.mp h
    have hvalue : digitsValue (stamp.toList.take 4) < 10 ^ (stamp.toList.take 4).length :=
      digitsValue_lt fun c hc => List.all_eq_true.mp hcs.2 c (List.mem_of_mem_take hc)
    rw [List.length_take, hcs.1, show min 4 8 = 4 from rfl] at hvalue
    omega
  · cases h

theorem toList_stamp {d : Date} (hlow : 0 ≤ d.year) (hhigh : d.year ≤ 9999) :
    d.stamp.toList = padded .zero 4 false d.year.toNat ++ padded .zero 2 false d.month ++
      padded .zero 2 false d.day := by
  rw [stamp, yearText, if_pos ⟨hlow, hhigh⟩, Int.toNat_of_nonneg hlow]
  simp only [zeroPadded, String.toList_append, String.toList_ofList]

theorem isDigit_of_mem_stamp {d : Date} (hlow : 0 ≤ d.year) (hhigh : d.year ≤ 9999) :
    ∀ c ∈ d.stamp.toList, c.isDigit = true := by
  rw [toList_stamp hlow hhigh]
  intro c hc
  rcases List.mem_append.mp hc with hc | hc
  · rcases List.mem_append.mp hc with hc | hc
    · exact isDigit_of_mem_padded_zero c hc
    · exact isDigit_of_mem_padded_zero c hc
  · exact isDigit_of_mem_padded_zero c hc

/-- **A day is read back from its datestamp**, if four digits hold its year. -/
theorem ofStamp?_stamp {d : Date} (hlow : 0 ≤ d.year) (hhigh : d.year ≤ 9999) :
    ofStamp? d.stamp = some d := by
  obtain ⟨⟨_, _⟩, ⟨_, hmonth⟩, _, hday⟩ := d.isDay
  have hshort := daysInMonth_le d.year d.month
  have hyears : (padded .zero 4 false d.year.toNat).length = 4 :=
    length_padded_zero (by omega) (by omega)
  have hmonths : (padded .zero 2 false d.month).length = 2 :=
    length_padded_zero (by omega) (by omega)
  have hdays : (padded .zero 2 false d.day).length = 2 := length_padded_zero (by omega) (by omega)
  have hdigits := isDigit_of_mem_stamp hlow hhigh
  rw [ofStamp?]
  rw [toList_stamp hlow hhigh] at hdigits ⊢
  rw [if_pos, List.append_assoc]
  · rw [List.take_left' hyears, List.drop_left' hyears, List.take_left' hmonths,
      ← List.append_assoc, List.drop_left' (by rw [List.length_append, hyears, hmonths]),
      digitsValue_padded_zero, digitsValue_padded_zero, digitsValue_padded_zero,
      Int.toNat_of_nonneg hlow, ofParts?_parts]
  · rw [List.length_append, List.length_append, hyears, hmonths, hdays, List.all_eq_true]
    exact ⟨rfl, hdigits⟩

/-- Days that are read from stamps have different stamps. -/
theorem stamp_inj {d d' : Date} (hd : 0 ≤ d.year ∧ d.year ≤ 9999)
    (hd' : 0 ≤ d'.year ∧ d'.year ≤ 9999) (h : d.stamp = d'.stamp) : d = d' := by
  have hread := ofStamp?_stamp hd.1 hd.2
  rw [h, ofStamp?_stamp hd'.1 hd'.2] at hread
  exact (Option.some.inj hread).symm

end Webcomic.Calendar.Date
