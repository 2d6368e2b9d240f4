import Webcomic.Proofs.Marker.LineByLine

/-!
# A marker takes two delimiters

On a line the parts of a marker are all optional: whatever stands between two delimiters, the search
finds some way to take it for a name, for parameters or for blanks (`bodyAt?_ne_none`). So a marker
starts at a position exactly if a delimiter stands there and another one behind it (`PairAt`), and
the search stops at the first such position. What it leaves on both sides holds no such pair.
-/

namespace Webcomic.Marker

open Text

variable {t between gap : List Char} {c i j : Nat} {m : Span} {ms : List Span} {found : Found}

/-- A line: a newline can only be its last character. -/
def OneLine (t : List Char) : Prop :=
  '\n' ∉ t.dropLast

/-- A delimiter starts at a position, and another one behind it that shares no star with it. -/
def PairAt (t : List Char) (i : Nat) : Prop :=
  DelimiterAt t i ∧ ∃ j, i + 3 ≤ j ∧ DelimiterAt t j

/-! ## Delimiters by their positions -/

theorem DelimiterAt.drop_eq (h : DelimiterAt t i) : t.drop i = delimiter ++ t.drop (i + 3) :=
  afterDelimiter?_eq_some_iff.1 (afterDelimiter?_drop_eq_some_iff.2 ⟨h, rfl⟩)

theorem delimiterAt_drop_iff : DelimiterAt (t.drop c) i ↔ DelimiterAt t (c + i) := by
  rw [DelimiterAt, DelimiterAt, List.drop_drop]

theorem PairAt.of_drop (h : PairAt (t.drop c) i) : PairAt t (c + i) := by
  obtain ⟨hi, j, hij, hj⟩ := h
  exact ⟨delimiterAt_drop_iff.mp hi, c + j, by omega, delimiterAt_drop_iff.mp hj⟩

/-- A delimiter inside a slice, by its position in the text. -/
theorem exists_delimiterAt_of_isInfix (hci : c ≤ i) (hi : i ≤ t.length)
    (h : delimiter <:+: slice t c i) : ∃ k, c ≤ k ∧ k + 3 ≤ i ∧ DelimiterAt t k := by
  obtain ⟨a, b, hslice⟩ := h
  have hlength := congrArg List.length hslice
  rw [length_slice hi] at hlength
  simp only [List.length_append, delimiter, List.length_cons, List.length_nil] at hlength
  refine ⟨c + a.length, by omega, by omega, b ++ t.drop i, ?_⟩
  have hsplit : t.drop c = a ++ (delimiter ++ (b ++ t.drop i)) := by
    rw [← slice_append_drop hci, ← hslice]
    simp only [List.append_assoc]
  exact (eq_slice_of_drop_eq hsplit).2

/-- On a line no newline stands in front of a delimiter. -/
theorem OneLine.not_mem_slice (hline : OneLine t) (hj : DelimiterAt t j) : '\n' ∉ slice t i j := by
  have hlength := hj.add_le_length
  intro hmem
  refine hline ?_
  rw [List.dropLast_eq_take]
  exact (List.take_prefix_take_left (by omega)).subset (List.mem_of_mem_drop hmem)

/-! ## Where markers start -/

/-- A marker starts and ends with a delimiter. -/
theorem Decision.pairAt (h : Decision t i m) : PairAt t i := by
  have hname : i + 3 ≤ nameStart t i := le_runEnd _ _ _
  have hword : nameStart t i ≤ wordEnd t i := le_runEnd _ _ _
  have hgap : wordEnd t i ≤ gapEnd t i := le_runEnd _ _ _
  cases h with
  | short hi hq => exact ⟨hi, _, hname.trans hq.1.1.le, hq.1.2.2⟩
  | @full s hi _ _ hs =>
    have hend := le_runEnd isBlank t s
    have hstart := hs.1.1
    exact ⟨hi, _, by omega, hs.1.2.2⟩
  | blank hi _ _ _ hclose _ => exact ⟨hi, _, by omega, hclose⟩
  | plain hi _ _ _ hclose _ => exact ⟨hi, _, by omega, hclose⟩
  | bare hi _ _ hclose => exact ⟨hi, _, hname, hclose⟩

/-- **Whatever stands before a delimiter on its line can be the body of a marker.** -/
theorem bodyAt?_ne_none (after : List Char) (hline : '\n' ∉ between) :
    bodyAt? (between ++ (delimiter ++ after)) ≠ none := by
  rw [bodyAt?_eq, ne_eq, Option.or_eq_none_iff, Option.map_eq_none_iff, List.dropWhile_append]
  rintro ⟨hname, hclose⟩
  split at hname
  next hblank =>
    -- nothing but blanks: the marker has no name
    rw [if_pos hblank, (solid_delimiter after).dropWhile_eq, afterDelimiter?_delimiter] at hclose
    cases hclose
  next hblank =>
    refine nameAt?_ne_none after ?_ (solid_dropWhile between) ?_ hname
    · simpa using hblank
    · exact fun hmem => hline (List.dropWhile_subset isBlank hmem)

/-- **On a line a marker starts exactly where two delimiters stand, one behind the other.** -/
theorem exists_decision_iff (hline : OneLine t) : (∃ m, Decision t i m) ↔ PairAt t i := by
  constructor
  · rintro ⟨m, hm⟩
    exact hm.pairAt
  · rintro ⟨hi, j, hij, hj⟩
    have hsplit : t.drop i =
        delimiter ++ (slice t (i + 3) j ++ (delimiter ++ t.drop (j + 3))) := by
      rw [hi.drop_eq, ← hj.drop_eq, slice_append_drop hij]
    obtain ⟨found, hfound⟩ := Option.ne_none_iff_exists'.1
      (bodyAt?_ne_none (t.drop (j + 3)) (hline.not_mem_slice (i := i + 3) hj))
    rw [← at?_delimiter, ← hsplit] at hfound
    exact exists_decision_of_at? hfound

/-! ## What the search finds -/

theorem next?_drop_eq_none_iff (hline : OneLine t) :
    next? (t.drop c) = none ↔ ∀ i ≥ c, ¬ PairAt t i := by
  simp only [← exists_decision_iff hline]
  rcases next?_drop t c with ⟨hnone, hall⟩ | ⟨i, found, hsome, hci, hat, -⟩
  · refine iff_of_true hnone ?_
    rintro i hi ⟨m, hm⟩
    have hat := hall i hi
    rw [hm.at?_eq] at hat
    cases hat
  · refine iff_of_false (by simp [hsome]) fun hall => ?_
    exact hall i hci (exists_decision_of_at? hat)

/-- The search stops at the first position that has a pair. -/
theorem isLeast_of_next?_drop (hline : OneLine t) (h : next? (t.drop c) = some (gap, found)) :
    IsLeast {i | c ≤ i ∧ PairAt t i} (c + gap.length) := by
  simp only [← exists_decision_iff hline]
  rcases next?_drop t c with ⟨hnone, -⟩ | ⟨i, found', hsome, hci, hat, hbefore⟩
  · rw [hnone] at h
    cases h
  · obtain ⟨rfl, rfl⟩ := Prod.mk.inj (Option.some.inj (hsome.symm.trans h))
    obtain ⟨m, hm⟩ := exists_decision_of_at? hat
    have hlength := hm.pairAt.1.add_le_length
    rw [length_slice (by omega), Nat.add_sub_cancel' hci]
    refine ⟨⟨hci, m, hm⟩, ?_⟩
    rintro k ⟨hck, m', hm'⟩
    by_contra hlt
    -- nothing was found before, and so nothing is decided there
    have hnone := hbefore k hck (by omega)
    rw [hm'.at?_eq] at hnone
    cases hnone

/-- **The stretches hold no delimiter, and what is left behind the last marker holds no pair.** -/
theorem Scan.stretches (hline : OneLine t) (h : Scan t c ms) :
    (∀ cut ∈ (Line.ofChars (t.drop c)).cuts, ¬ delimiter <:+: cut.1.toList) ∧
      ∀ i, ¬ PairAt (Line.ofChars (t.drop c)).tail.toList i := by
  induction h with
  | @done c hnone =>
    rw [ofChars_of_scan_nil (.done hnone)]
    refine ⟨nofun, fun i hi => ?_⟩
    rw [String.toList_ofList] at hi
    obtain ⟨m, hm⟩ := (exists_decision_iff hline).mpr hi.of_drop
    exact hnone _ (Nat.le_add_right c i) m hm
  | @next c i m ms hi hm hrest ih =>
    rw [ofChars_of_scan_cons (.next hi hm hrest)]
    refine ⟨List.forall_mem_cons.mpr ⟨?_, ih.1⟩, ih.2⟩
    rw [String.toList_ofList, hm.start_eq]
    intro hinfix
    -- the delimiter would have started a marker that ends at the next one
    have hlength := hm.pairAt.1.add_le_length
    obtain ⟨k, hck, hki, hk⟩ := exists_delimiterAt_of_isInfix hi.1.1 (by omega) hinfix
    have hpair : PairAt t k := ⟨hk, i, hki, hm.pairAt.1⟩
    have hle := hi.2 ⟨hck, (exists_decision_iff hline).mpr hpair⟩
    omega

end Webcomic.Marker
