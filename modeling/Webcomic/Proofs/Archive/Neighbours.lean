import Mathlib.Data.List.Pairwise
import Mathlib.Order.Bounds.Basic
import Webcomic.Proofs.Archive.Contents

/-!
# The neighbours of a day

The days of an archive ascend, so where a day lies among the others is told by its position: the
first and the last day are those at the ends, and the days before and after a day are the ones next
to it. The searches for them find just these. They are also told by their order alone, for any day:
those at the ends are the least and the greatest, and those next to a day of the archive the
greatest before it and the least after it.
-/

namespace Webcomic

open Calendar

section

variable {α : Type} [LinearOrder α] {l : List α} {a : α} {i : Nat}

/-- In an ascending list the elements less than one are those in front of it. -/
theorem filter_lt_getElem (h : l.Pairwise (· < ·)) (hi : i < l.length) :
    l.filter (· < l[i]) = l.take i := by
  have hsplit := List.take_append_drop i l
  have hbelow : (l.take i).filter (· < l[i]) = l.take i := by
    rw [List.filter_eq_self]
    intro a ha
    obtain ⟨j, hj, rfl⟩ := List.mem_take_iff_getElem.mp ha
    exact decide_eq_true (List.pairwise_iff_getElem.mp h j i (by omega) hi (by omega))
  have habove : (l.drop i).filter (· < l[i]) = [] := by
    rw [List.filter_eq_nil_iff]
    intro a ha
    obtain ⟨j, hj, rfl⟩ := List.mem_drop_iff_getElem.mp ha
    rcases Nat.eq_zero_or_pos j with rfl | hpos
    · simp
    · have hlt := List.pairwise_iff_getElem.mp h i (i + j) hi (by omega) (by omega)
      simpa using hlt.le
  calc l.filter (· < l[i])
      = (l.take i ++ l.drop i).filter (· < l[i]) := by rw [hsplit]
    _ = l.take i := by rw [List.filter_append, hbelow, habove, List.append_nil]

/-- The first element that is greater than one is the one behind it. -/
theorem find?_lt_getElem (h : l.Pairwise (· < ·)) (hi : i < l.length) :
    l.find? (l[i] < ·) = l[i + 1]? := by
  have hsplit := List.take_append_drop (i + 1) l
  have hbelow : (l.take (i + 1)).find? (l[i] < ·) = none := by
    rw [List.find?_eq_none]
    intro a ha
    obtain ⟨j, hj, rfl⟩ := List.mem_take_iff_getElem.mp ha
    rcases Nat.lt_or_ge j i with hlt | hge
    · have hj := List.pairwise_iff_getElem.mp h j i (by omega) hi hlt
      simpa using hj.le
    · obtain rfl : j = i := by omega
      simp
  have habove : (l.drop (i + 1)).find? (l[i] < ·) = l[i + 1]? := by
    rcases Nat.lt_or_ge (i + 1) l.length with hlt | hge
    · have hnext := List.pairwise_iff_getElem.mp h i (i + 1) hi hlt (Nat.lt_succ_self i)
      rw [List.drop_eq_getElem_cons hlt, List.find?_cons_of_pos (by simpa using hnext),
        List.getElem?_eq_getElem hlt]
    · rw [List.drop_eq_nil_of_le hge, List.getElem?_eq_none hge]
      rfl
  calc l.find? (l[i] < ·)
      = (l.take (i + 1) ++ l.drop (i + 1)).find? (l[i] < ·) := by rw [hsplit]
    _ = l[i + 1]? := by rw [List.find?_append, hbelow, habove, Option.none_or]

/-- An ascending list begins with its least element. -/
theorem head?_eq_some_iff_isLeast (h : l.Pairwise (· < ·)) :
    l.head? = some a ↔ IsLeast {b | b ∈ l} a := by
  constructor
  · intro ha
    obtain ⟨rest, rfl⟩ := List.head?_eq_some_iff.mp ha
    refine ⟨List.mem_cons_self, fun b hb => ?_⟩
    rcases List.mem_cons.mp hb with rfl | hrest
    · exact le_rfl
    · exact (List.rel_of_pairwise_cons h hrest).le
  · rintro ⟨hmem, hle⟩
    cases l with
    | nil => cases hmem
    | cons b rest =>
      rcases List.mem_cons.mp hmem with rfl | hrest
      · rfl
      · have hlt := List.rel_of_pairwise_cons h hrest
        exact absurd (hle List.mem_cons_self) (not_le_of_gt hlt)

/-- An ascending list ends with its greatest element. -/
theorem getLast?_eq_some_iff_isGreatest (h : l.Pairwise (· < ·)) :
    l.getLast? = some a ↔ IsGreatest {b | b ∈ l} a := by
  constructor
  · intro ha
    obtain ⟨front, rfl⟩ := List.getLast?_eq_some_iff.mp ha
    refine ⟨List.mem_append_right _ (List.mem_singleton_self a), fun b hb => ?_⟩
    rcases List.mem_append.mp hb with hfront | hlast
    · exact ((List.pairwise_append.mp h).2.2 b hfront a (List.mem_singleton_self a)).le
    · exact (List.mem_singleton.mp hlast).le
  · rintro ⟨hmem, hge⟩
    rcases List.eq_nil_or_concat l with rfl | ⟨front, b, rfl⟩
    · cases hmem
    · rw [List.concat_eq_append, List.getLast?_concat]
      rw [List.concat_eq_append] at h hmem hge
      have hb : b ∈ front ++ [b] := List.mem_append_right _ (List.mem_singleton_self b)
      rcases List.mem_append.mp hmem with hfront | hlast
      · -- a greatest element in front of the last would be less than it
        have hlt := (List.pairwise_append.mp h).2.2 a hfront b (List.mem_singleton_self b)
        exact absurd (hge hb) (not_le_of_gt hlt)
      · rw [List.mem_singleton.mp hlast]

end

namespace Archive

variable {a : Archive} {date day : Date} {i : Nat}

theorem pairwise_dates (a : Archive) : a.dates.Pairwise (· < ·) :=
  List.pairwise_map.mpr a.ascending

/-- The days that an archive has are those it lists. -/
theorem contains_iff : a.contains date = true ↔ date ∈ a.dates := by
  rw [contains, Option.isSome_iff_exists, dates, List.mem_map]
  constructor
  · rintro ⟨names, hnames⟩
    exact ⟨(date, names), files?_eq_some_iff.mp hnames, rfl⟩
  · rintro ⟨⟨date, names⟩, hmem, rfl⟩
    exact ⟨names, files?_eq_some_iff.mpr hmem⟩

/-! ## Days by their positions -/

theorem first?_eq (a : Archive) : a.first?.map Prod.fst = a.dates[0]? := by
  rw [first?, ← List.head?_map, ← dates, List.head?_eq_getElem?]

theorem last?_eq (a : Archive) : a.last?.map Prod.fst = a.dates[a.dates.length - 1]? := by
  rw [last?, ← List.getLast?_map, ← dates, List.getLast?_eq_getElem?]

/-- **The day after a day is the next one.** -/
theorem next?_eq (h : a.dates[i]? = some date) :
    (a.next? date).map Prod.fst = a.dates[i + 1]? := by
  obtain ⟨hi, rfl⟩ := List.getElem?_eq_some_iff.mp h
  have hfind : ∀ day, (a.days.find? (day < ·.1)).map Prod.fst = a.dates.find? (day < ·) := by
    intro day
    rw [dates, List.find?_map]
    rfl
  rw [next?, if_pos (contains_iff.mpr (List.getElem_mem hi)), hfind,
    find?_lt_getElem a.pairwise_dates hi]

/-- **The day before a day is the one in front of it.** -/
theorem prev?_eq (h : a.dates[i]? = some date) :
    (a.prev? date).map Prod.fst = if i = 0 then none else a.dates[i - 1]? := by
  obtain ⟨hi, rfl⟩ := List.getElem?_eq_some_iff.mp h
  have hfilter : ∀ day, (a.days.filter (·.1 < day)).map Prod.fst = a.dates.filter (· < day) := by
    intro day
    rw [dates, List.filter_map]
    rfl
  rw [prev?, if_pos (contains_iff.mpr (List.getElem_mem hi)), ← List.getLast?_map, hfilter,
    filter_lt_getElem a.pairwise_dates hi, List.getLast?_eq_getElem?, List.length_take,
    Nat.min_eq_left hi.le]
  split
  next hzero =>
    subst hzero
    rfl
  next hpos => rw [List.getElem?_take_of_lt (by omega)]

/-! ## Days by their order -/

/-- The first day is the least one. -/
theorem first?_eq_some_iff :
    a.first?.map Prod.fst = some day ↔ IsLeast {d | d ∈ a.dates} day := by
  rw [first?, ← List.head?_map, ← dates, head?_eq_some_iff_isLeast a.pairwise_dates]

/-- The last day is the greatest one. -/
theorem last?_eq_some_iff :
    a.last?.map Prod.fst = some day ↔ IsGreatest {d | d ∈ a.dates} day := by
  rw [last?, ← List.getLast?_map, ← dates, getLast?_eq_some_iff_isGreatest a.pairwise_dates]

/-- The day after a day of the archive is the least of the later ones. After any other day there is
none, even between two days. -/
theorem next?_eq_some_iff :
    (a.next? date).map Prod.fst = some day ↔
      date ∈ a.dates ∧ IsLeast {d | d ∈ a.dates ∧ date < d} day := by
  have hfind : (a.days.find? (date < ·.1)).map Prod.fst = (a.dates.filter (date < ·)).head? := by
    rw [List.head?_filter, dates, List.find?_map]
    rfl
  have hset : {d | d ∈ a.dates.filter (date < ·)} = {d | d ∈ a.dates ∧ date < d} := by
    ext d
    simp
  rw [next?]
  split
  next hcontains =>
    rw [hfind, head?_eq_some_iff_isLeast (a.pairwise_dates.filter _), hset]
    simp [contains_iff.mp hcontains]
  next hmissing => simp [contains_iff.not.mp hmissing]

/-- The day before a day of the archive is the greatest of the earlier ones. -/
theorem prev?_eq_some_iff :
    (a.prev? date).map Prod.fst = some day ↔
      date ∈ a.dates ∧ IsGreatest {d | d ∈ a.dates ∧ d < date} day := by
  have hlast : ((a.days.filter (·.1 < date)).getLast?).map Prod.fst =
      (a.dates.filter (· < date)).getLast? := by
    rw [← List.getLast?_map, dates, List.filter_map]
    rfl
  have hset : {d | d ∈ a.dates.filter (· < date)} = {d | d ∈ a.dates ∧ d < date} := by
    ext d
    simp
  rw [prev?]
  split
  next hcontains =>
    rw [hlast, getLast?_eq_some_iff_isGreatest (a.pairwise_dates.filter _), hset]
    simp [contains_iff.mp hcontains]
  next hmissing => simp [contains_iff.not.mp hmissing]

/-- The last day is the greatest. -/
theorem greatest_of_last? {names : List String} (h : a.last? = some (date, names)) :
    date ∈ a.dates ∧ ∀ day ∈ a.dates, day ≤ date := by
  have hlast : a.last?.map Prod.fst = some date := by
    rw [h]
    rfl
  exact last?_eq_some_iff.mp hlast

end Archive

end Webcomic
