import Mathlib.Order.Bounds.Basic
import Webcomic.Archive.FileDate
import Webcomic.Proofs.Template.Datestamps

/-!
# The date in a file name

A file name is dated by one place in it: the first at which eight digits follow each other, in
whatever script they are written (`stampPlaces`). The digits there are a datestamp or the name has
no date, whatever stands behind them.

- `firstEightDigits?_eq`: the search stops at the least of these places, by induction on the name.
- `isLeast_length_append`: behind a text without such a place that does not end in a digit, the
  first place is the end of that text.
- `dated_by_first_eight_digits`: which names have a date, and which date.
-/

namespace Webcomic.Archive

open Calendar Text

variable {cs ds front w behind : List Char} {i k : Nat} {c : Char}

/-! ## Eight digits in a row -/

/-- The characters of a text from a place on, up to eight. -/
def window (cs : List Char) (i : Nat) : List Char :=
  (cs.drop i).take 8

/-- The places of a text at which eight digits stand. -/
def stampPlaces (cs : List Char) : Set Nat :=
  {i | (window cs i).length = 8 ∧ ∀ c ∈ window cs i, isDecimalDigit c = true}

theorem window_append (hw : w.length = 8) : window (front ++ (w ++ behind)) front.length = w := by
  rw [window, List.drop_left, List.take_left' hw]

theorem mem_window_of_getElem? (hik : i ≤ k) (hk : k < i + 8) (h : cs[k]? = some c) :
    c ∈ window cs i := by
  refine List.mem_of_getElem? (i := k - i) ?_
  rw [window, List.getElem?_take_of_lt (by omega), List.getElem?_drop, Nat.add_sub_cancel' hik, h]

/-- What stands behind eight characters makes no difference to them. -/
theorem window_congr (h : cs.take (i + 8) = ds.take (i + 8)) : window cs i = window ds i := by
  have hcut : ∀ cs : List Char, window cs i = (cs.take (i + 8)).drop i := fun cs => by
    rw [window, List.drop_take, Nat.add_sub_cancel_left]
  rw [hcut, hcut, h]

theorem mem_stampPlaces_congr (h : window cs i = window ds k) :
    i ∈ stampPlaces cs ↔ k ∈ stampPlaces ds := by
  show _ ∧ _ ↔ _ ∧ _
  rw [h]

/-- The first eight digits are the first in every text that goes on in another way behind them. -/
theorem isLeast_stampPlaces_congr (h : cs.take (i + 8) = ds.take (i + 8))
    (hi : IsLeast (stampPlaces cs) i) : IsLeast (stampPlaces ds) i := by
  refine ⟨(mem_stampPlaces_congr (window_congr h)).mp hi.1, fun k hk => ?_⟩
  by_contra hlt
  have hki : k + 8 ≤ i + 8 := by omega
  have hcut : cs.take (k + 8) = ds.take (k + 8) := by
    have h := congrArg (List.take (k + 8)) h
    rwa [List.take_take, List.take_take, Nat.min_eq_left hki] at h
  exact hlt (hi.2 ((mem_stampPlaces_congr (window_congr hcut)).mpr hk))

/-! ## The search -/

/-- **The search finds the first eight digits**, or there are none. -/
theorem firstEightDigits?_eq (cs : List Char) :
    (firstEightDigits? cs = none ∧ stampPlaces cs = ∅) ∨
      ∃ i, IsLeast (stampPlaces cs) i ∧ firstEightDigits? cs = some (window cs i) := by
  induction cs with
  | nil =>
    refine .inl ⟨rfl, Set.eq_empty_iff_forall_notMem.mpr ?_⟩
    rintro i ⟨hlength, -⟩
    simp [window] at hlength
  | cons c cs ih =>
    have hlater : ∀ i, i + 1 ∈ stampPlaces (c :: cs) ↔ i ∈ stampPlaces cs :=
      fun i => mem_stampPlaces_congr rfl
    unfold firstEightDigits?
    dsimp only
    split
    next h =>
      exact .inr ⟨0, ⟨⟨h.1, List.all_eq_true.mp h.2⟩, fun _ _ => Nat.zero_le _⟩, rfl⟩
    next h =>
      -- nothing starts here, so the first place of the rest is the first of all, one further on
      have hfirst : 0 ∉ stampPlaces (c :: cs) := fun h0 => h ⟨h0.1, List.all_eq_true.mpr h0.2⟩
      rcases ih with ⟨hnone, hempty⟩ | ⟨i, ⟨hi, hleast⟩, hsome⟩
      · refine .inl ⟨hnone, Set.eq_empty_iff_forall_notMem.mpr fun k hk => ?_⟩
        cases k with
        | zero => exact hfirst hk
        | succ k => exact Set.notMem_empty k (hempty ▸ (hlater k).mp hk)
      · refine .inr ⟨i + 1, ⟨(hlater i).mpr hi, fun k hk => ?_⟩, hsome⟩
        cases k with
        | zero => exact absurd hk hfirst
        | succ k => exact Nat.succ_le_succ (hleast ((hlater k).mp hk))

theorem stampPlaces_eq_empty_iff : stampPlaces cs = ∅ ↔ firstEightDigits? cs = none := by
  rcases firstEightDigits?_eq cs with ⟨hnone, hempty⟩ | ⟨i, hi, hsome⟩
  · exact iff_of_true hempty hnone
  · refine iff_of_false (fun hempty => Set.notMem_empty i (hempty ▸ hi.1)) ?_
    rw [hsome]
    exact Option.some_ne_none _

/-- Behind a text without eight digits in a row that does not end in a digit, the first eight digits
are those that follow it. -/
theorem isLeast_length_append (hfront : stampPlaces front = ∅)
    (hlast : ∀ c ∈ front.getLast?, isDecimalDigit c = false) (hw : w.length = 8)
    (hdigits : ∀ c ∈ w, isDecimalDigit c = true) :
    IsLeast (stampPlaces (front ++ (w ++ behind))) front.length := by
  constructor
  · show _ ∧ _
    rw [window_append hw]
    exact ⟨hw, hdigits⟩
  · intro k hk
    by_contra hlt
    rcases Nat.lt_or_ge front.length (k + 8) with hover | hinside
    · -- the digits would run over the last character in front
      have hlength : front.length - 1 < front.length := by omega
      have hend : (front ++ (w ++ behind))[front.length - 1]? = some front[front.length - 1] := by
        rw [List.getElem?_append_left hlength, List.getElem?_eq_getElem hlength]
      have hdigit := hk.2 _ (mem_window_of_getElem? (by omega) (by omega) hend)
      rw [hlast _ (by rw [List.getLast?_eq_getElem?, List.getElem?_eq_getElem hlength]; rfl)]
        at hdigit
      cases hdigit
    · -- all eight would stand in front
      have hcut : front.take (k + 8) = (front ++ (w ++ behind)).take (k + 8) :=
        (List.take_append_of_le_length hinside).symm
      exact Set.notMem_empty k (hfront ▸ (mem_stampPlaces_congr (window_congr hcut)).mpr hk)

/-! ## The date of a name -/

variable {name : String} {date : Date}

theorem dateOfName?_of_isLeast (h : IsLeast (stampPlaces name.toList) i) :
    dateOfName? name = Date.ofStamp? (String.ofList (window name.toList i)) := by
  rcases firstEightDigits?_eq name.toList with ⟨-, hempty⟩ | ⟨k, hk, hsome⟩
  · exact absurd h.1 (hempty ▸ Set.notMem_empty i)
  · obtain rfl := h.unique hk
    rw [dateOfName?, hsome, Option.bind_some]

/-- A name has a date exactly if its first eight digits are the datestamp of one. -/
theorem dateOfName?_eq_some_iff :
    dateOfName? name = some date ↔ ∃ i, IsLeast (stampPlaces name.toList) i ∧
      (∀ c ∈ window name.toList i, c.isDigit = true) ∧
      date.stamp = String.ofList (window name.toList i) := by
  constructor
  · intro h
    rcases firstEightDigits?_eq name.toList with ⟨hnone, -⟩ | ⟨i, hi, -⟩
    · rw [dateOfName?, hnone] at h
      cases h
    · rw [dateOfName?_of_isLeast hi, Date.ofStamp?_eq_some_iff_stamp, String.toList_ofList] at h
      exact ⟨i, hi, h⟩
  · rintro ⟨i, hi, h⟩
    rwa [dateOfName?_of_isLeast hi, Date.ofStamp?_eq_some_iff_stamp, String.toList_ofList]

/-- Arabic digits count as digits, but are no datestamp. -/
example : dateOfName? "٢٠٢٤٠١١٤-20240115.png" = none := by
  decide +kernel

/-- **A file name is dated by its first eight digits.** It has a date exactly if there are eight
digits in a row, in whatever script, and the first of them are ASCII digits and the datestamp of a
day of the calendar, which is then the date. So a datestamp is found behind every text that has no
eight digits in a row and does not end in a digit, whatever follows it. Nothing that stands behind
the first eight digits makes a difference: if they are no datestamp the name has no date, and no
later datestamp is used. -/
theorem dated_by_first_eight_digits :
    (∀ name date, dateOfName? name = some date ↔ ∃ i, IsLeast (stampPlaces name.toList) i ∧
      (∀ c ∈ window name.toList i, c.isDigit = true) ∧
      date.stamp = String.ofList (window name.toList i)) ∧
    (∀ (date : Date) (front behind : String), 0 ≤ date.year → date.year ≤ 9999 →
      stampPlaces front.toList = ∅ → (∀ c ∈ front.toList.getLast?, isDecimalDigit c = false) →
      dateOfName? (front ++ date.stamp ++ behind) = some date) ∧
    (∀ name name' i, IsLeast (stampPlaces name.toList) i →
      name'.toList.take (i + 8) = name.toList.take (i + 8) →
      dateOfName? name' = dateOfName? name) ∧
    (∀ name i, IsLeast (stampPlaces name.toList) i →
      (∀ date : Date, date.stamp ≠ String.ofList (window name.toList i)) →
      dateOfName? name = none) := by
  refine ⟨fun _ _ => dateOfName?_eq_some_iff, ?_, ?_, ?_⟩
  · intro date front behind hlow hhigh hfront hlast
    have hdigits := Date.isDigit_of_mem_stamp hlow hhigh
    have hlength := Date.length_stamp hlow hhigh
    have hname : (front ++ date.stamp ++ behind).toList =
        front.toList ++ (date.stamp.toList ++ behind.toList) := by
      rw [String.toList_append, String.toList_append, List.append_assoc]
    rw [dateOfName?_eq_some_iff, hname]
    refine ⟨front.toList.length, ?_, ?_, ?_⟩
    · exact isLeast_length_append hfront hlast hlength
        fun c hc => isDecimalDigit_of_isDigit (hdigits c hc)
    · rwa [window_append hlength]
    · rw [window_append hlength, String.ofList_toList]
  · intro name name' i hi hcut
    rw [dateOfName?_of_isLeast hi, dateOfName?_of_isLeast (isLeast_stampPlaces_congr hcut.symm hi),
      window_congr hcut]
  · intro name i hi hnone
    rw [Option.eq_none_iff_forall_ne_some]
    intro date hdate
    obtain ⟨k, hk, -, hstamp⟩ := dateOfName?_eq_some_iff.mp hdate
    obtain rfl := hi.unique hk
    exact hnone date hstamp

/-- A datestamp in the middle of a name, and one behind another digit, which moves the first eight
digits off it. -/
theorem dated_by_first_eight_digits_two_names :
    dateOfName? ("strip-" ++ "20240115" ++ "-b.png") = some ⟨2024, 1, 15, by decide⟩ ∧
      dateOfName? "120240115.png" = none := by
  obtain ⟨-, hfound, -, hnone⟩ := dated_by_first_eight_digits
  constructor
  · have hstamp : (⟨2024, 1, 15, by decide⟩ : Date).stamp = "20240115" := by decide +kernel
    have hlast : ∀ c ∈ "strip-".toList.getLast?, isDecimalDigit c = false := by
      intro c hc
      obtain rfl : '-' = c := Option.some.inj hc
      decide +kernel
    rw [← hstamp]
    exact hfound _ _ _ (by decide) (by decide) (stampPlaces_eq_empty_iff.mpr (by decide +kernel))
      hlast
  · have hfirst : IsLeast (stampPlaces "120240115.png".toList) 0 :=
      ⟨⟨by decide +kernel, List.all_eq_true.mp (by decide +kernel)⟩, fun _ _ => Nat.zero_le _⟩
    have hwindow : String.ofList (window "120240115.png".toList 0) = "12024011" := by
      decide +kernel
    refine hnone _ 0 hfirst fun date hdate => ?_
    -- there is no fortieth month
    rw [hwindow] at hdate
    have hread := Date.ofStamp?_eq_some_iff_stamp.mpr
      ⟨List.all_eq_true.mp (by decide +kernel), hdate⟩
    rw [show Date.ofStamp? "12024011" = none by decide +kernel] at hread
    cases hread

end Webcomic.Archive
