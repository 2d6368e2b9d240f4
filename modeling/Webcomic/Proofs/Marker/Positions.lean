import Mathlib.Order.Bounds.Basic
import Webcomic.Proofs.Marker.Neighbours

/-!
# Texts by their positions

What a text holds is told by positions: what stands from one position up to another, where a run of
characters ends, where delimiters start. The shortest run that a search finds is the one that ends
at the least position (`isLeast_of_shortestRun`).
-/

namespace Webcomic.Marker

open Text

variable {β : Type} {t : List Char} {a b i r s : Nat} {p : Char → Bool}

/-! ## Positions in a text -/

/-- What a text holds from one position up to another. -/
def slice (t : List Char) (a b : Nat) : List Char :=
  (t.take b).drop a

/-- A delimiter starts at a position. -/
def DelimiterAt (t : List Char) (i : Nat) : Prop :=
  delimiter <+: t.drop i

/-- The end of the longest run of characters of `p` that starts at a position. -/
def runEnd (p : Char → Bool) (t : List Char) (a : Nat) : Nat :=
  a + ((t.drop a).takeWhile p).length

theorem slice_append_drop (h : a ≤ b) : slice t a b ++ t.drop b = t.drop a := by
  have hdrop : t.drop b = (t.drop a).drop (b - a) := by
    rw [List.drop_drop, Nat.add_sub_cancel' h]
  rw [slice, List.drop_take, hdrop, List.take_append_drop]

/-- A slice inside the text is as long as its ends are apart. -/
theorem length_slice (h : b ≤ t.length) : (slice t a b).length = b - a := by
  rw [slice, List.length_drop, List.length_take, Nat.min_eq_left h]

/-- What stands behind a position falls into a slice and what stands behind that. -/
theorem eq_slice_of_drop_eq {run rest : List Char} (h : t.drop a = run ++ rest) :
    run = slice t a (a + run.length) ∧ rest = t.drop (a + run.length) := by
  constructor
  · rw [slice, List.drop_take, Nat.add_sub_cancel_left, h, List.take_left]
  · rw [← List.drop_drop, h, List.drop_left]

theorem slice_eq_cons (hab : a < b) (hb : b ≤ t.length) :
    slice t a b = t[a] :: slice t (a + 1) b := by
  have hdrop := (slice_append_drop (t := t) hab.le).trans (List.drop_eq_getElem_cons (by omega))
  rw [← slice_append_drop (t := t) (a := a + 1) (b := b) hab, ← List.cons_append] at hdrop
  exact List.append_cancel_right hdrop

theorem slice_self (t : List Char) (a : Nat) : slice t a a = [] := by
  rw [slice, List.drop_eq_nil_iff, List.length_take]
  exact Nat.min_le_left _ _

theorem slice_succ {k : Nat} {c : Char} (h : t[k]? = some c) : slice t k (k + 1) = [c] := by
  obtain ⟨hk, rfl⟩ := List.getElem?_eq_some_iff.1 h
  rw [slice_eq_cons (Nat.lt_succ_self k) hk, slice_self]

theorem le_runEnd (p : Char → Bool) (t : List Char) (a : Nat) : a ≤ runEnd p t a :=
  Nat.le_add_right _ _

/-- A run that is not empty ends inside the text. -/
theorem runEnd_le_length (h : a < runEnd p t a) : runEnd p t a ≤ t.length := by
  have hprefix := (List.takeWhile_prefix (l := t.drop a) p).length_le
  rw [List.length_drop] at hprefix
  unfold runEnd at h ⊢
  omega

/-- A run of characters is a slice, from where it begins up to where it ends. -/
theorem takeWhile_drop (p : Char → Bool) (t : List Char) (a : Nat) :
    (t.drop a).takeWhile p = slice t a (runEnd p t a) :=
  (eq_slice_of_drop_eq (List.takeWhile_append_dropWhile (p := p)).symm).1

theorem dropWhile_drop (p : Char → Bool) (t : List Char) (a : Nat) :
    (t.drop a).dropWhile p = t.drop (runEnd p t a) :=
  (eq_slice_of_drop_eq (List.takeWhile_append_dropWhile (p := p)).symm).2

/-- A slice holds nothing but characters of `p` exactly if it lies in the run from its start. -/
theorem forall_mem_slice_iff (hab : a ≤ b) (hb : b ≤ t.length) :
    (∀ c ∈ slice t a b, p c = true) ↔ b ≤ runEnd p t a := by
  constructor
  · intro h
    have hlength := length_slice (a := a) hb
    rw [runEnd, ← slice_append_drop hab, List.takeWhile_append_of_pos h, List.length_append]
    omega
  · intro h c hc
    have hrun : ∀ c ∈ (t.drop a).takeWhile p, p c = true :=
      List.all_eq_true.mp List.all_takeWhile
    refine hrun c ?_
    rw [takeWhile_drop, ← List.take_append_drop (b - a) (slice t a (runEnd p t a))]
    refine List.mem_append_left _ ?_
    -- the slice is the start of the run
    have hcut : slice t a b = (slice t a (runEnd p t a)).take (b - a) := by
      rw [slice, slice, List.drop_take, List.drop_take, List.take_take, Nat.min_eq_left]
      omega
    exact hcut ▸ hc

/-- The search for a delimiter sees the one that stands at its position. -/
theorem afterDelimiter?_drop_eq_some_iff {rest : List Char} :
    afterDelimiter? (t.drop i) = some rest ↔ DelimiterAt t i ∧ rest = t.drop (i + 3) := by
  rw [afterDelimiter?_eq_some_iff]
  constructor
  · intro h
    exact ⟨⟨rest, h.symm⟩, (eq_slice_of_drop_eq h).2⟩
  · rintro ⟨⟨rest', h⟩, rfl⟩
    rw [← h, (eq_slice_of_drop_eq h.symm).2]
    rfl

theorem afterDelimiter?_drop_eq_none_iff :
    afterDelimiter? (t.drop i) = none ↔ ¬ DelimiterAt t i := by
  constructor
  · intro h hi
    rw [afterDelimiter?_drop_eq_some_iff.2 ⟨hi, rfl⟩] at h
    cases h
  · intro h
    cases hafter : afterDelimiter? (t.drop i) with
    | none => rfl
    | some rest => exact absurd (afterDelimiter?_drop_eq_some_iff.1 hafter).1 h

theorem DelimiterAt.add_le_length (h : DelimiterAt t i) : i + 3 ≤ t.length := by
  have hlength := List.IsPrefix.length_le h
  simp only [delimiter, List.length_cons, List.length_nil, List.length_drop] at hlength
  omega

/-- Characters of a class that holds the star run on over a delimiter. -/
theorem DelimiterAt.add_le_runEnd (h : DelimiterAt t s) (hstar : p '*' = true) (hrs : r ≤ s)
    (hs : s ≤ runEnd p t r) : s + 3 ≤ runEnd p t r := by
  have hlength := h.add_le_length
  have hrun := (forall_mem_slice_iff (p := p) hrs (by omega)).2 hs
  rw [← forall_mem_slice_iff (by omega) hlength]
  obtain ⟨rest, hrest⟩ := h
  have hsplit : t.drop r = (slice t r s ++ delimiter) ++ rest := by
    rw [List.append_assoc, hrest, slice_append_drop hrs]
  -- the run may be cut behind the delimiter, whose stars it then holds
  have hslice := (eq_slice_of_drop_eq hsplit).1
  have hend : r + (slice t r s ++ delimiter).length = s + 3 := by
    rw [List.length_append, length_slice (by omega)]
    simp only [delimiter, List.length_cons, List.length_nil]
    omega
  rw [hend] at hslice
  intro c hc
  rw [← hslice] at hc
  rcases List.mem_append.mp hc with hc | hc
  · exact hrun c hc
  · obtain rfl : c = '*' := by simpa [delimiter] using hc
    exact hstar

/-! ## The shortest run, by its end -/

/-- The ends of the runs of `p` from position `r` behind which the rest of a text matches. -/
def matchingEnds (p : Char → Bool) (next : List Char → List Char → Option β) (t : List Char)
    (r : Nat) : Set Nat :=
  {s | r < s ∧ s ≤ runEnd p t r ∧ next (slice t r s).reverse (t.drop s) ≠ none}

/-- A search that finds nothing has tried every end. -/
theorem matchingEnds_eq_empty_of_shortestRun {next : List Char → List Char → Option β}
    (h : shortestRun p next [] (t.drop r) = none) : matchingEnds p next t r = ∅ := by
  rw [Set.eq_empty_iff_forall_notMem]
  rintro s ⟨hrs, hs, hnext⟩
  have hlength := hs.trans (runEnd_le_length (hrs.trans_le hs))
  have hrun := (forall_mem_slice_iff (p := p) hrs.le hlength).2 hs
  -- what ends behind its start is a run of its own, and the search has tried it
  have hne : slice t r s ≠ [] := by
    rw [← List.length_pos_iff, length_slice hlength]
    omega
  have hnone := shortestRun_eq_none_iff.1 h (slice t r s) (t.drop s) hne
    (slice_append_drop hrs.le).symm hrun
  rw [List.append_nil] at hnone
  exact hnext hnone

/-- The shortest run that is found ends at the first position that it can end at. -/
theorem isLeast_of_shortestRun {next : List Char → List Char → Option β} {x : β}
    (h : shortestRun p next [] (t.drop r) = some x) :
    ∃ s, IsLeast (matchingEnds p next t r) s ∧
      next (slice t r s).reverse (t.drop s) = some x := by
  obtain ⟨run, rest, hne, heq, hrun, hnext, hleast⟩ := exists_least_of_shortestRun h
  obtain ⟨hslice, hdrop⟩ := eq_slice_of_drop_eq heq
  have hpos := List.length_pos_iff.mpr hne
  have hlength := congrArg List.length heq
  rw [List.length_drop, List.length_append] at hlength
  rw [List.append_nil, hslice, hdrop] at hnext
  refine ⟨r + run.length, ⟨⟨by omega, ?_, ?_⟩, ?_⟩, hnext⟩
  · rw [← forall_mem_slice_iff (by omega) (by omega), ← hslice]
    exact hrun
  · rw [hnext]
    exact Option.some_ne_none x
  · -- an earlier end would have been found before
    rintro s ⟨hrs, hs, hmatch⟩
    by_contra hlt
    have hs' : s ≤ t.length := by omega
    have hcut : run = slice t r s ++ slice t s (r + run.length) := by
      have hjoin : slice t r (r + run.length) ++ t.drop (r + run.length) =
          (slice t r s ++ slice t s (r + run.length)) ++ t.drop (r + run.length) := by
        rw [List.append_assoc, slice_append_drop (by omega), slice_append_drop (by omega),
          slice_append_drop (by omega)]
      exact hslice.trans (List.append_cancel_right hjoin)
    have hleft : slice t r s ≠ [] := by
      rw [← List.length_pos_iff, length_slice hs']
      omega
    have hright : slice t s (r + run.length) ≠ [] := by
      rw [← List.length_pos_iff, length_slice (by omega)]
      omega
    have hnone := hleast _ _ hleft hright hcut
    rw [List.append_nil, hdrop, slice_append_drop (by omega)] at hnone
    exact hmatch hnone

/-! ## Characters that are no newlines -/

/-- The positions from `a` up to `b` that hold no newline. -/
def inlinePositions (t : List Char) (a b : Nat) : Set Nat :=
  {k | a ≤ k ∧ k < b ∧ t[k]? ≠ some '\n'}

/-- The last character of a slice that is no newline, by its position. -/
theorem lastInline?_slice (hab : a ≤ b) (hb : b ≤ t.length) :
    (lastInline? (slice t a b) = none ∧ inlinePositions t a b = ∅) ∨
      ∃ k c, IsGreatest (inlinePositions t a b) k ∧ t[k]? = some c ∧
        lastInline? (slice t a b) = some c := by
  -- on the length of the slice, from its start: what lies behind comes later
  induction hn : b - a generalizing a with
  | zero =>
    obtain rfl : a = b := by omega
    refine .inl ⟨by rw [slice_self]; rfl, ?_⟩
    rw [Set.eq_empty_iff_forall_notMem]
    rintro k ⟨hak, hkb, -⟩
    omega
  | succ n ih =>
    have hhead : t[a]? = some t[a] := List.getElem?_eq_getElem (by omega)
    rw [slice_eq_cons (by omega) hb, lastInline?_cons]
    rcases ih (a := a + 1) (by omega) (by omega) with ⟨hnone, hempty⟩ | ⟨k, c, hk, hc, hsome⟩
    · have hlater : ∀ k ∈ inlinePositions t a b, k = a := by
        rintro k ⟨hak, hkb, hline⟩
        by_contra hne
        have hmem : k ∈ inlinePositions t (a + 1) b := ⟨by omega, hkb, hline⟩
        rw [hempty] at hmem
        exact hmem
      rw [hnone, Option.none_or]
      by_cases hnl : t[a] = '\n'
      · refine .inl ⟨if_pos hnl, Set.eq_empty_iff_forall_notMem.2 fun k hk => ?_⟩
        obtain rfl := hlater k hk
        exact hk.2.2 (by rw [hhead, hnl])
      · refine .inr ⟨a, t[a], ⟨⟨le_refl a, by omega, ?_⟩, fun k hk => (hlater k hk).le⟩, hhead,
          if_neg hnl⟩
        rw [hhead]
        exact fun h => hnl (Option.some.inj h)
    · obtain ⟨⟨hak, hkb, hline⟩, hmax⟩ := hk
      refine .inr ⟨k, c, ⟨⟨by omega, hkb, hline⟩, ?_⟩, hc, by rw [hsome]; rfl⟩
      rintro l ⟨hal, hlb, hl⟩
      by_cases hla : l = a
      · omega
      · exact hmax ⟨by omega, hlb, hl⟩

/-! ## Bytes -/

/-- The bytes in front of a position. -/
def bytesBefore (t : List Char) (i : Nat) : Nat :=
  (String.ofList (t.take i)).utf8ByteSize

/-- Bytes are counted on over a slice. -/
theorem bytesBefore_add_slice (h : a ≤ b) :
    bytesBefore t a + (String.ofList (slice t a b)).utf8ByteSize = bytesBefore t b := by
  have htake : t.take b = t.take a ++ slice t a b := by
    have hsplit := (List.take_append_drop a (t.take b)).symm
    rwa [List.take_take, Nat.min_eq_left h] at hsplit
  rw [bytesBefore, bytesBefore, htake, String.ofList_append, String.utf8ByteSize_append]

end Webcomic.Marker
