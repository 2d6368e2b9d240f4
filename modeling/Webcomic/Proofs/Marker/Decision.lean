import Webcomic.Proofs.Marker.Positions

/-!
# Markers by their positions

The search for markers tries runs of characters in an order and gives characters back. Here the same
markers are told by positions in the text alone: where runs of blanks and of other characters end,
and where delimiters stand.

- `Decision t i m`: which marker stands at position `i`, if any. One constructor for each case, in
  the order in which they are decided.
- `Scan t c ms`: the markers from position `c` on. Each is the first one that stands behind the one
  before it.
- `offsets_eq_scan`: the markers that are found in a text are those, and no other ones.
-/

namespace Webcomic.Marker

open Text

variable {t : List Char} {i s : Nat}

/-! ## The parts of a marker -/

/-- Where the name of a marker can start. -/
def nameStart (t : List Char) (i : Nat) : Nat :=
  runEnd isBlank t (i + 3)

/-- Where the word that starts there ends. -/
def wordEnd (t : List Char) (i : Nat) : Nat :=
  runEnd (fun c => !isBlank c) t (nameStart t i)

/-- Where the blanks behind that word end. -/
def gapEnd (t : List Char) (i : Nat) : Nat :=
  runEnd isBlank t (wordEnd t i)

/-- The delimiters inside the word, behind its first character. -/
def innerDelimiters (t : List Char) (i : Nat) : Set Nat :=
  {q | nameStart t i < q ∧ q + 3 ≤ wordEnd t i ∧ DelimiterAt t q}

/-- A word with blanks behind it. -/
def Spaced (t : List Char) (i : Nat) : Prop :=
  nameStart t i < wordEnd t i ∧ wordEnd t i < gapEnd t i

/-- The ends that parameters can have: they stay on one line, and behind them stand only blanks
before a delimiter. -/
def paramsEnds (t : List Char) (i : Nat) : Set Nat :=
  {s | gapEnd t i < s ∧ '\n' ∉ slice t (gapEnd t i) s ∧ DelimiterAt t (runEnd isBlank t s)}

/-- The blanks behind the word, without the first of them, that are no newlines. -/
def inlineBlanks (t : List Char) (i : Nat) : Set Nat :=
  inlinePositions t (wordEnd t i + 1) (gapEnd t i)

/-- A marker by its position in a text, and what it captures. -/
structure Span where
  start : Nat
  stop : Nat
  name : Option (List Char)
  params : Option (List Char)

/-- **Which marker starts at a position**, decided by positions alone. -/
inductive Decision (t : List Char) (i : Nat) : Span → Prop where
  /-- A delimiter inside the word ends the name. -/
  | short {q : Nat} : DelimiterAt t i → IsLeast (innerDelimiters t i) q →
      Decision t i ⟨i, q + 3, some (slice t (nameStart t i) q), none⟩
  /-- Else the word is the name, with the shortest parameters that there are. -/
  | full {s : Nat} : DelimiterAt t i → innerDelimiters t i = ∅ → Spaced t i →
      IsLeast (paramsEnds t i) s →
      Decision t i ⟨i, runEnd isBlank t s + 3, some (slice t (nameStart t i) (wordEnd t i)),
        some (slice t (gapEnd t i) s)⟩
  /-- Without any, the last blank that is no newline is taken for parameters. -/
  | blank {k : Nat} : DelimiterAt t i → innerDelimiters t i = ∅ → Spaced t i →
      paramsEnds t i = ∅ → DelimiterAt t (gapEnd t i) → IsGreatest (inlineBlanks t i) k →
      Decision t i ⟨i, gapEnd t i + 3, some (slice t (nameStart t i) (wordEnd t i)),
        some (slice t k (k + 1))⟩
  /-- A name and blanks. -/
  | plain : DelimiterAt t i → innerDelimiters t i = ∅ → Spaced t i → paramsEnds t i = ∅ →
      DelimiterAt t (gapEnd t i) → inlineBlanks t i = ∅ →
      Decision t i ⟨i, gapEnd t i + 3, some (slice t (nameStart t i) (wordEnd t i)), none⟩
  /-- A marker without a name, where none of the others stands. -/
  | bare : DelimiterAt t i → innerDelimiters t i = ∅ →
      ¬ (Spaced t i ∧ ((paramsEnds t i).Nonempty ∨ DelimiterAt t (gapEnd t i))) →
      DelimiterAt t (nameStart t i) → Decision t i ⟨i, nameStart t i + 3, none, none⟩

/-! ## The parts are what the search tries -/

theorem endedName?_drop_ne_none_iff {name : List Char} :
    endedName? name (t.drop s) ≠ none ↔ DelimiterAt t s := by
  rw [endedName?, ne_eq, Option.map_eq_none_iff, afterDelimiter?_drop_eq_none_iff, not_not]

/-- A name can end inside its word exactly where a delimiter stands there. -/
theorem matchingEnds_endedName? (t : List Char) (i : Nat) :
    matchingEnds (fun c => !isBlank c) endedName? t (nameStart t i) = innerDelimiters t i := by
  ext q
  constructor
  · rintro ⟨hstart, hend, hmatch⟩
    have hq := endedName?_drop_ne_none_iff.1 hmatch
    exact ⟨hstart, hq.add_le_runEnd (by simp [not_isBlank_star]) hstart.le hend, hq⟩
  · rintro ⟨hstart, hend, hq⟩
    exact ⟨hstart, (Nat.le_add_right q 3).trans hend, endedName?_drop_ne_none_iff.2 hq⟩

/-- What stands behind parameters: blanks and a closing delimiter. -/
def endedParams? (name params rest : List Char) : Option Found :=
  (afterClosing? rest).map (⟨some name, some params.reverse, ·⟩)

theorem endedParams?_drop {name params : List Char} :
    endedParams? name params (t.drop s) =
      (afterDelimiter? (t.drop (runEnd isBlank t s))).map
        (⟨some name, some params.reverse, ·⟩) := by
  rw [endedParams?, afterClosing?_eq, dropWhile_drop]

/-- Parameters can end exactly where the text has an end for them. -/
theorem matchingEnds_endedParams? (name : List Char) (t : List Char) (i : Nat) :
    matchingEnds (· != '\n') (endedParams? name) t (gapEnd t i) = paramsEnds t i := by
  ext s
  have hmatch : ∀ params, endedParams? name params (t.drop s) ≠ none ↔
      DelimiterAt t (runEnd isBlank t s) := fun params => by
    rw [endedParams?_drop, ne_eq, Option.map_eq_none_iff, afterDelimiter?_drop_eq_none_iff, not_not]
  -- parameters end on their line, which is the same as not running into a newline
  have hline : (∀ c ∈ slice t (gapEnd t i) s, (c != '\n') = true) ↔
      '\n' ∉ slice t (gapEnd t i) s := by
    simp only [bne_iff_ne, ne_eq]
    constructor
    · intro h hmem
      exact h '\n' hmem rfl
    · rintro h c hc rfl
      exact h hc
  constructor
  · rintro ⟨hstart, hend, hnext⟩
    have hlength := hend.trans (runEnd_le_length (hstart.trans_le hend))
    exact ⟨hstart, hline.1 ((forall_mem_slice_iff hstart.le hlength).2 hend), (hmatch _).1 hnext⟩
  · rintro ⟨hstart, hinline, hclose⟩
    have hlength := hclose.add_le_length
    have hle := le_runEnd isBlank t s
    refine ⟨hstart, ?_, (hmatch _).2 hclose⟩
    exact (forall_mem_slice_iff hstart.le (by omega)).1 (hline.2 hinline)

/-- The first delimiter inside the word ends the name. -/
theorem shortName?_of_isLeast {q : Nat} (hq : IsLeast (innerDelimiters t i) q) :
    shortName? (t.drop (nameStart t i)) =
      some ⟨some (slice t (nameStart t i) q), none, t.drop (q + 3)⟩ := by
  rw [← matchingEnds_endedName?] at hq
  cases h : shortName? (t.drop (nameStart t i)) with
  | none =>
    rw [matchingEnds_eq_empty_of_shortestRun h] at hq
    exact absurd hq.1 (Set.notMem_empty q)
  | some found =>
    obtain ⟨q', hq', hfound⟩ := isLeast_of_shortestRun h
    obtain rfl := hq.unique hq'
    obtain ⟨rest, hrest, rfl⟩ := Option.map_eq_some_iff.1 hfound
    rw [(afterDelimiter?_drop_eq_some_iff.1 hrest).2, List.reverse_reverse]

/-- The first possible end of the parameters is taken. -/
theorem paramsAt?_of_isLeast (name : List Char) (hs : IsLeast (paramsEnds t i) s) :
    paramsAt? name (t.drop (gapEnd t i)) =
      some ⟨some name, some (slice t (gapEnd t i) s), t.drop (runEnd isBlank t s + 3)⟩ := by
  rw [← matchingEnds_endedParams? name] at hs
  cases h : paramsAt? name (t.drop (gapEnd t i)) with
  | none =>
    have hempty : matchingEnds _ (endedParams? name) t _ = ∅ :=
      matchingEnds_eq_empty_of_shortestRun h
    rw [hempty] at hs
    exact absurd hs.1 (Set.notMem_empty s)
  | some found =>
    obtain ⟨s', hs', hfound⟩ := isLeast_of_shortestRun h
    obtain rfl := hs.unique hs'
    change endedParams? _ _ _ = _ at hfound
    rw [endedParams?_drop] at hfound
    obtain ⟨rest, hrest, rfl⟩ := Option.map_eq_some_iff.1 hfound
    rw [(afterDelimiter?_drop_eq_some_iff.1 hrest).2, List.reverse_reverse]

theorem exists_isLeast_of_shortName? {found : Found}
    (h : shortName? (t.drop (nameStart t i)) = some found) :
    ∃ q, IsLeast (innerDelimiters t i) q := by
  obtain ⟨q, hq, -⟩ := isLeast_of_shortestRun h
  exact ⟨q, matchingEnds_endedName? t i ▸ hq⟩

theorem innerDelimiters_eq_empty_iff :
    innerDelimiters t i = ∅ ↔ shortName? (t.drop (nameStart t i)) = none := by
  constructor
  · intro hempty
    cases h : shortName? (t.drop (nameStart t i)) with
    | none => rfl
    | some found =>
      obtain ⟨q, hq⟩ := exists_isLeast_of_shortName? h
      rw [hempty] at hq
      exact absurd hq.1 (Set.notMem_empty q)
  · intro h
    rw [← matchingEnds_endedName?]
    exact matchingEnds_eq_empty_of_shortestRun h

theorem exists_isLeast_of_paramsAt? {name : List Char} {found : Found}
    (h : paramsAt? name (t.drop (gapEnd t i)) = some found) :
    ∃ s, IsLeast (paramsEnds t i) s := by
  obtain ⟨s, hs, -⟩ := isLeast_of_shortestRun h
  exact ⟨s, matchingEnds_endedParams? name t i ▸ hs⟩

theorem paramsEnds_eq_empty_iff (name : List Char) :
    paramsEnds t i = ∅ ↔ paramsAt? name (t.drop (gapEnd t i)) = none := by
  constructor
  · intro hempty
    cases h : paramsAt? name (t.drop (gapEnd t i)) with
    | none => rfl
    | some found =>
      obtain ⟨s, hs⟩ := exists_isLeast_of_paramsAt? h
      rw [hempty] at hs
      exact absurd hs.1 (Set.notMem_empty s)
  · intro h
    rw [← matchingEnds_endedParams? name]
    exact matchingEnds_eq_empty_of_shortestRun h

/-- The blanks behind the word, and what is behind them. -/
theorem drop_wordEnd (t : List Char) (i : Nat) :
    Blanks (slice t (wordEnd t i) (gapEnd t i)) ∧ Solid (t.drop (gapEnd t i)) ∧
      t.drop (wordEnd t i) = slice t (wordEnd t i) (gapEnd t i) ++ t.drop (gapEnd t i) := by
  refine ⟨?_, ?_, (slice_append_drop (le_runEnd _ _ _)).symm⟩
  · rw [gapEnd, ← takeWhile_drop]
    exact blanks_takeWhile _
  · rw [gapEnd, ← dropWhile_drop]
    exact solid_dropWhile _

/-- Behind a word without blanks the text ends. -/
theorem drop_wordEnd_eq_nil (h : gapEnd t i = wordEnd t i) : t.drop (wordEnd t i) = [] := by
  cases hrest : t.drop (wordEnd t i) with
  | nil => rfl
  | cons c rest =>
    -- the word would run on over `c`, or the blanks would start with it
    have hword := List.head?_dropWhile_not (fun c => !isBlank c) (t.drop (nameStart t i))
    rw [dropWhile_drop, ← wordEnd, hrest] at hword
    have hsolid := (drop_wordEnd t i).2.1
    rw [h, hrest] at hsolid
    have hc : isBlank c = false := hsolid c rfl
    simp [hc] at hword

/-- What is found at a delimiter: a name, or the end of a marker without one. -/
theorem at?_drop (hi : DelimiterAt t i) :
    at? (t.drop i) = (nameAt? (t.drop (nameStart t i))).or
      ((afterDelimiter? (t.drop (nameStart t i))).map (⟨none, none, ·⟩)) := by
  rw [at?, afterDelimiter?_drop_eq_some_iff.2 ⟨hi, rfl⟩, Option.bind_some, bodyAt?_eq,
    dropWhile_drop, ← nameStart]

/-- A name that is a whole word, by its position. -/
theorem nameAt?_drop (hempty : innerDelimiters t i = ∅) (hspaced : Spaced t i) :
    nameAt? (t.drop (nameStart t i)) =
      (paramsAt? (slice t (nameStart t i) (wordEnd t i)) (t.drop (gapEnd t i))).or
        ((afterDelimiter? (t.drop (gapEnd t i))).map
          (⟨some (slice t (nameStart t i) (wordEnd t i)),
            (lastInline? (slice t (wordEnd t i + 1) (gapEnd t i))).map ([·]), ·⟩)) := by
  obtain ⟨hblanks, hsolid, hsplit⟩ := drop_wordEnd t i
  have hlength := runEnd_le_length hspaced.2
  have hgap := slice_eq_cons hspaced.2 hlength
  have hne : slice t (wordEnd t i) (gapEnd t i) ≠ [] := hgap ▸ List.cons_ne_nil _ _
  have hword : slice t (nameStart t i) (wordEnd t i) ≠ [] := by
    rw [slice_eq_cons hspaced.1 (runEnd_le_length hspaced.1)]
    exact List.cons_ne_nil _ _
  rw [nameAt?_eq, innerDelimiters_eq_empty_iff.1 hempty, Option.none_or, takeWhile_drop,
    dropWhile_drop, ← wordEnd, if_neg hword, hsplit, wholeName?_eq hblanks hne hsolid]
  rw [hgap, List.tail_cons]

/-- Without blanks behind it, a word that no delimiter ends is no name. -/
theorem nameAt?_drop_of_not_spaced (hempty : innerDelimiters t i = ∅) (h : ¬ Spaced t i) :
    nameAt? (t.drop (nameStart t i)) = none := by
  rw [nameAt?_eq, innerDelimiters_eq_empty_iff.1 hempty, Option.none_or, takeWhile_drop,
    dropWhile_drop, ← wordEnd]
  split
  · rfl
  next hword =>
    have hlt : nameStart t i < wordEnd t i := by
      have hle := le_runEnd (fun c => !isBlank c) t (nameStart t i)
      by_contra hge
      refine hword ?_
      rw [show wordEnd t i = nameStart t i from by unfold wordEnd at *; omega, slice_self]
    -- there is a word, so that the blanks are what is missing
    have hgap : gapEnd t i = wordEnd t i := by
      have hle := le_runEnd isBlank t (wordEnd t i)
      by_contra hne
      exact h ⟨hlt, by unfold gapEnd at *; omega⟩
    rw [drop_wordEnd_eq_nil hgap]
    rfl

/-! ## The decision is what is found -/

/-- The parameters that a name with blanks has. -/
theorem lastInline?_inlineBlanks (hspaced : Spaced t i) :
    (lastInline? (slice t (wordEnd t i + 1) (gapEnd t i)) = none ∧ inlineBlanks t i = ∅) ∨
      ∃ k, IsGreatest (inlineBlanks t i) k ∧
        (lastInline? (slice t (wordEnd t i + 1) (gapEnd t i))).map ([·]) =
          some (slice t k (k + 1)) := by
  rcases lastInline?_slice (t := t) (a := wordEnd t i + 1) hspaced.2 (runEnd_le_length hspaced.2)
    with hnone | ⟨k, c, hk, hc, hlast⟩
  · exact .inl hnone
  · refine .inr ⟨k, hk, ?_⟩
    rw [slice_succ hc]
    exact congrArg (Option.map _) hlast

/-- What is decided at a position is found there: the name, the parameters and the text behind the
marker. -/
theorem Decision.at?_eq {m : Span} (h : Decision t i m) :
    at? (t.drop i) = some ⟨m.name, m.params, t.drop m.stop⟩ := by
  cases h with
  | short hi hq =>
    rw [at?_drop hi, nameAt?_eq, shortName?_of_isLeast hq, Option.some_or, Option.some_or]
  | full hi hempty hspaced hs =>
    rw [at?_drop hi, nameAt?_drop hempty hspaced, paramsAt?_of_isLeast _ hs, Option.some_or,
      Option.some_or]
  | blank hi hempty hspaced hparams hclose hk =>
    rw [at?_drop hi, nameAt?_drop hempty hspaced, (paramsEnds_eq_empty_iff _).1 hparams,
      afterDelimiter?_drop_eq_some_iff.2 ⟨hclose, rfl⟩]
    -- the blank of the decision is the one that the search falls back to
    rcases lastInline?_inlineBlanks hspaced with ⟨-, hnone⟩ | ⟨k', hk', hlast⟩
    · rw [hnone] at hk
      exact absurd hk.1 (Set.notMem_empty _)
    · obtain rfl := hk.unique hk'
      rw [hlast]
      rfl
  | plain hi hempty hspaced hparams hclose hinline =>
    rw [at?_drop hi, nameAt?_drop hempty hspaced, (paramsEnds_eq_empty_iff _).1 hparams,
      afterDelimiter?_drop_eq_some_iff.2 ⟨hclose, rfl⟩]
    rcases lastInline?_inlineBlanks hspaced with ⟨hnone, -⟩ | ⟨k, hk, -⟩
    · rw [hnone]
      rfl
    · rw [hinline] at hk
      exact absurd hk.1 (Set.notMem_empty _)
  | bare hi hempty hother hclose =>
    -- without a name only the blanks can be what the marker holds
    have hname : nameAt? (t.drop (nameStart t i)) = none := by
      by_cases hspaced : Spaced t i
      · rw [nameAt?_drop hempty hspaced, Option.or_eq_none_iff, Option.map_eq_none_iff,
          afterDelimiter?_drop_eq_none_iff, ← paramsEnds_eq_empty_iff]
        refine ⟨?_, fun h => hother ⟨hspaced, .inr h⟩⟩
        exact Set.not_nonempty_iff_eq_empty.1 fun h => hother ⟨hspaced, .inl h⟩
      · exact nameAt?_drop_of_not_spaced hempty hspaced
    rw [at?_drop hi, hname, afterDelimiter?_drop_eq_some_iff.2 ⟨hclose, rfl⟩]
    rfl

theorem Decision.start_eq {m : Span} (h : Decision t i m) : m.start = i := by
  cases h <;> rfl

/-- A marker ends with a delimiter. -/
theorem Decision.stop_le {m : Span} (h : Decision t i m) : m.stop ≤ t.length := by
  cases h with
  | short _ hq => exact hq.1.2.2.add_le_length
  | full _ _ _ hs => exact hs.1.2.2.add_le_length
  | blank _ _ _ _ hclose _ => exact hclose.add_le_length
  | plain _ _ _ _ hclose _ => exact hclose.add_le_length
  | bare _ _ _ hclose => exact hclose.add_le_length

/-- **At most one marker starts at a position.** -/
theorem Decision.unique {m m' : Span} (h : Decision t i m) (h' : Decision t i m') : m = m' := by
  have hfound := h.at?_eq.symm.trans h'.at?_eq
  have hstart := h.start_eq.trans h'.start_eq.symm
  have hle := h.stop_le
  have hle' := h'.stop_le
  obtain ⟨start, stop, name, params⟩ := m
  obtain ⟨start', stop', name', params'⟩ := m'
  simp only [Option.some.injEq, Found.mk.injEq] at hfound hstart hle hle'
  obtain ⟨rfl, rfl, hrest⟩ := hfound
  have hlength := congrArg List.length hrest
  simp only [List.length_drop] at hlength
  obtain rfl : stop = stop' := by omega
  rw [hstart]

/-- What is found at a position is decided there. -/
theorem exists_decision_of_at? {found : Found} (h : at? (t.drop i) = some found) :
    ∃ m, Decision t i m := by
  obtain ⟨body, hopen, -⟩ := Option.bind_eq_some_iff.1 h
  have hi := (afterDelimiter?_drop_eq_some_iff.1 hopen).1
  -- in the order in which the search tries the forms of a marker
  cases hshort : shortName? (t.drop (nameStart t i)) with
  | some name =>
    obtain ⟨q, hq⟩ := exists_isLeast_of_shortName? hshort
    exact ⟨_, .short hi hq⟩
  | none =>
    have hempty := innerDelimiters_eq_empty_iff.2 hshort
    by_cases hspaced : Spaced t i
    · cases hparams : paramsAt? (slice t (nameStart t i) (wordEnd t i)) (t.drop (gapEnd t i)) with
      | some params =>
        obtain ⟨s, hs⟩ := exists_isLeast_of_paramsAt? hparams
        exact ⟨_, .full hi hempty hspaced hs⟩
      | none =>
        have hnone := (paramsEnds_eq_empty_iff _).2 hparams
        by_cases hclose : DelimiterAt t (gapEnd t i)
        · rcases lastInline?_inlineBlanks hspaced with ⟨-, hinline⟩ | ⟨k, hk, -⟩
          · exact ⟨_, .plain hi hempty hspaced hnone hclose hinline⟩
          · exact ⟨_, .blank hi hempty hspaced hnone hclose hk⟩
        · rw [at?_drop hi, nameAt?_drop hempty hspaced, hparams,
            afterDelimiter?_drop_eq_none_iff.2 hclose, Option.map_none, Option.none_or,
            Option.none_or] at h
          obtain ⟨rest, hrest, -⟩ := Option.map_eq_some_iff.1 h
          refine ⟨_, .bare hi hempty ?_ (afterDelimiter?_drop_eq_some_iff.1 hrest).1⟩
          rintro ⟨-, hsome | hgap⟩
          · exact hsome.ne_empty hnone
          · exact hclose hgap
    · rw [at?_drop hi, nameAt?_drop_of_not_spaced hempty hspaced, Option.none_or] at h
      obtain ⟨rest, hrest, -⟩ := Option.map_eq_some_iff.1 h
      exact ⟨_, .bare hi hempty (fun hs => hspaced hs.1)
        (afterDelimiter?_drop_eq_some_iff.1 hrest).1⟩

/-! ## The markers of a text -/

/-- **The markers from a position on.** The next one starts at the first position at which any does,
and the search goes on behind it. -/
inductive Scan (t : List Char) : Nat → List Span → Prop where
  | done {c : Nat} : (∀ i ≥ c, ∀ m, ¬ Decision t i m) → Scan t c []
  | next {c i : Nat} {m : Span} {ms : List Span} :
      IsLeast {i | c ≤ i ∧ ∃ m, Decision t i m} i → Decision t i m → Scan t m.stop ms →
      Scan t c (m :: ms)

/-- A text has one list of markers from a position on. -/
theorem Scan.unique {c : Nat} {ms ms' : List Span} (h : Scan t c ms) (h' : Scan t c ms') :
    ms = ms' := by
  induction h generalizing ms' with
  | done hnone =>
    cases h' with
    | done _ => rfl
    | next hi hm _ => exact absurd hm (hnone _ hi.1.1 _)
  | next hi hm _ ih =>
    cases h' with
    | done hnone => exact absurd hm (hnone _ hi.1.1 _)
    | next hi' hm' hrest =>
      obtain rfl := hi.unique hi'
      obtain rfl := hm.unique hm'
      rw [ih hrest]

/-- The first marker behind a position, or none behind any. -/
theorem next?_drop (t : List Char) (c : Nat) :
    (next? (t.drop c) = none ∧ ∀ i ≥ c, at? (t.drop i) = none) ∨
      ∃ i found, next? (t.drop c) = some (slice t c i, found) ∧ c ≤ i ∧
        at? (t.drop i) = some found ∧ ∀ j, c ≤ j → j < i → at? (t.drop j) = none := by
  -- on what is left of the text: the search goes on at the next position
  induction hn : t.length - c generalizing c with
  | zero =>
    have hnil : ∀ i ≥ c, t.drop i = [] := fun i hi => List.drop_eq_nil_of_le (by omega)
    refine .inl ⟨by rw [hnil c (le_refl c)]; rfl, fun i hi => ?_⟩
    rw [hnil i hi]
    rfl
  | succ n ih =>
    have hcons := List.drop_eq_getElem_cons (show c < t.length by omega)
    cases hat : at? (t.drop c) with
    | some found =>
      refine .inr ⟨c, found, ?_, le_refl c, hat, fun j hcj hjc => absurd hcj (by omega)⟩
      rw [hcons] at hat
      rw [slice_self, hcons, next?, hat]
    | none =>
      have hnext : next? (t.drop c) =
          (next? (t.drop (c + 1))).map fun next => (t[c] :: next.1, next.2) := by
        rw [hcons] at hat
        rw [hcons, next?, hat]
      have hhere : ∀ j ≥ c, j < c + 1 → at? (t.drop j) = none := fun j hcj hjc => by
        obtain rfl : j = c := by omega
        exact hat
      rcases ih (c + 1) (by omega) with ⟨hnone, hall⟩ | ⟨i, found, hsome, hci, hfound, hbefore⟩
      · refine .inl ⟨by rw [hnext, hnone]; rfl, fun i hi => ?_⟩
        by_cases hic : i < c + 1
        · exact hhere i hi hic
        · exact hall i (by omega)
      · have hlength : i < t.length := by
          by_contra hge
          rw [List.drop_eq_nil_of_le (by omega)] at hfound
          cases hfound
        refine .inr ⟨i, found, ?_, by omega, hfound, fun j hcj hji => ?_⟩
        · rw [hnext, hsome, slice_eq_cons (show c < i by omega) hlength.le]
          rfl
        · by_cases hjc : j < c + 1
          · exact hhere j hcj hjc
          · exact hbefore j (by omega) hji

/-- The marker as a page holds it. -/
def Span.marker (t : List Char) (m : Span) : Marker where
  text := String.ofList (slice t m.start m.stop)
  name := m.name.map String.ofList
  params := m.params.map String.ofList

/-- The marker that is handed over is the one that was decided on, cut from the text. -/
theorem ofFound_drop {m : Span} (h : Decision t i m) :
    ofFound (t.drop i) ⟨m.name, m.params, t.drop m.stop⟩ = m.marker t := by
  have htext : (t.drop i).take ((t.drop i).length - (t.drop m.stop).length) =
      slice t m.start m.stop := by
    have hle := h.stop_le
    rw [h.start_eq, slice, List.drop_take, List.length_drop, List.length_drop]
    congr 1
    omega
  rw [ofFound, htext]
  rfl

/-- The markers from a position on, with the bytes in front of them, are those that are found. -/
theorem exists_scan_offsets {c : Nat} (hc : c ≤ t.length) :
    ∃ ms, Scan t c ms ∧ Line.offsets.go (bytesBefore t c) (Line.ofChars (t.drop c)).cuts =
      ms.map fun m => (bytesBefore t m.start, m.marker t) := by
  -- on what is left of the text: a marker leaves less of it to the markers behind it
  induction hn : t.length - c using Nat.strongRecOn generalizing c with
  | ind n ih =>
    rcases next?_drop t c with ⟨hnone, hall⟩ | ⟨i, found, hnext, hci, hat, hbefore⟩
    · refine ⟨[], .done fun i hi m hm => ?_, ?_⟩
      · have hnone := hall i hi
        rw [hm.at?_eq] at hnone
        cases hnone
      · rw [ofChars_of_next?_eq_none hnone]
        rfl
    · obtain ⟨m, hm⟩ := exists_decision_of_at? hat
      obtain rfl := Option.some.inj (hat.symm.trans hm.at?_eq)
      have hshorter := length_rest_at? hat
      have hstop := hm.stop_le
      simp only [List.length_drop] at hshorter
      obtain ⟨ms, hscan, hoffsets⟩ := ih (t.length - m.stop) (by omega) hstop rfl
      refine ⟨m :: ms, .next ⟨⟨hci, m, hm⟩, ?_⟩ hm hscan, ?_⟩
      · rintro j ⟨hcj, m', hm'⟩
        by_contra hlt
        have hnone := hbefore j hcj (by omega)
        rw [hm'.at?_eq] at hnone
        cases hnone
      · have hdrop : (t.drop c).drop (slice t c i).length = t.drop i := by
          rw [List.drop_drop, length_slice (by omega), Nat.add_sub_cancel' hci]
        have hgap := bytesBefore_add_slice (t := t) hci
        have htext : bytesBefore t i + (m.marker t).text.utf8ByteSize = bytesBefore t m.stop := by
          rw [Span.marker, hm.start_eq, bytesBefore_add_slice (by omega)]
        rw [cuts_of_next? hnext, hdrop, ofFound_drop hm, List.map_cons, ← hoffsets, hm.start_eq]
        simp only [Line.offsets.go, hgap, htext]

/-- **The markers of a text, by positions alone.** The decisions at its positions, taken from left
to right, give one list of markers, and the search finds just these, each with its place, its name
and its parameters. -/
theorem offsets_eq_scan (t : String) :
    ∃ ms, (∀ ms', Scan t.toList 0 ms' ↔ ms' = ms) ∧
      (Line.ofText t).offsets =
        ms.map fun m => (bytesBefore t.toList m.start, m.marker t.toList) := by
  obtain ⟨ms, hscan, hoffsets⟩ := exists_scan_offsets (t := t.toList) (Nat.zero_le _)
  refine ⟨ms, fun ms' => ⟨fun h => h.unique hscan, fun h => h ▸ hscan⟩, ?_⟩
  rw [← hoffsets]
  rfl

end Webcomic.Marker
