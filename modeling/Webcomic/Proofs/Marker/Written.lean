import Webcomic.Proofs.Marker.Neighbours

/-!
# Markers are read as they were written

A line is written as gaps and markers in turn (`written`). If no gap holds a star and every marker
ends at its own delimiter (`Wording.EndsItself`), the markers that are found are the written ones,
each with its name and its parameters at the place where it was put, even where two of them touch.

- `at?_wording`: a marker is found as it was written, whatever stands behind it.
- `ofChars_written`: so are any number of them, by induction on what was written.
- `written_markers_are_read`: the line with the places of its markers.
-/

namespace Webcomic.Marker

open Text

namespace Wording

/-- The name that the marker was given. -/
def name : Wording → Option (List Char)
  | bare _ => none
  | plain _ name _ => some name
  | full _ name _ _ _ => some name

/-- The parameters that the marker was given. -/
def params : Wording → Option (List Char)
  | full _ _ _ params _ => some params
  | _ => none

/-- The marker as a page holds it. -/
def marker (w : Wording) : Marker where
  text := String.ofList w.chars
  name := w.name.map String.ofList
  params := w.params.map String.ofList

end Wording

variable {parts : List (List Char × Wording)} {w : Wording}

/-- Gaps and markers, one behind the other. -/
def written (parts : List (List Char × Wording)) : List Char :=
  parts.flatMap fun (gap, w) => gap ++ w.chars

/-- The cut that a gap and a marker make in their line. -/
def cutOf (part : List Char × Wording) : String × Marker :=
  (String.ofList part.1, part.2.marker)

/-- The gaps hold no star, and every marker ends at its own delimiter. -/
def WellFormed (parts : List (List Char × Wording)) : Prop :=
  ∀ part ∈ parts, '*' ∉ part.1 ∧ part.2.Proper ∧ part.2.EndsItself

theorem written_cons (gap : List Char) (w : Wording) (parts : List (List Char × Wording)) :
    written ((gap, w) :: parts) = gap ++ (w.chars ++ written parts) := by
  rw [written, List.flatMap_cons, List.append_assoc]
  rfl

/-! ## Reading -/

/-- A marker that ends at its own delimiter is found as it was written. -/
theorem at?_wording (rest : List Char) (hw : w.Proper) (hends : w.EndsItself) :
    at? (w.chars ++ rest) = some ⟨w.name, w.params, rest⟩ := by
  cases w with
  | bare blanks => exact absurd hends id
  | plain lead name trail =>
    obtain rfl : trail = [] := hends
    exact at?_plain rest hw
  | full lead name gap params trail => exact at?_full rest hw

theorem next?_eq_none_of_starless {cs : List Char} (h : '*' ∉ cs) : next? cs = none := by
  induction cs with
  | nil => rfl
  | cons c cs ih =>
    have hc : c ≠ '*' := fun heq => h (heq ▸ List.mem_cons_self)
    rw [next?, at?_of_ne_star cs hc, ih fun hmem => h (List.mem_cons_of_mem c hmem)]
    rfl

/-- **Written markers are found as they were written**, whatever stands behind them. -/
theorem ofChars_written (h : WellFormed parts) (rest : List Char) :
    Line.ofChars (written parts ++ rest) =
      ⟨parts.map cutOf ++ (Line.ofChars rest).cuts, (Line.ofChars rest).tail⟩ := by
  induction parts with
  | nil => rfl
  | cons part parts ih =>
    obtain ⟨gap, w⟩ := part
    obtain ⟨⟨hgap, hw, hends⟩, hparts⟩ := List.forall_mem_cons.mp h
    have hnext := next?_of_at? hgap (at?_wording (written parts ++ rest) hw hends)
    rw [written_cons, List.append_assoc, List.append_assoc, ofChars_of_next? hnext, ih hparts,
      List.drop_left]
    -- the marker takes its wording off the text and leaves the rest
    have hmarker : ofFound (w.chars ++ (written parts ++ rest))
        ⟨w.name, w.params, written parts ++ rest⟩ = w.marker := by
      simp [ofFound, Wording.marker]
    rw [hmarker]
    rfl

/-! ## Places -/

theorem length_offsets_go (start : Nat) (cuts : List (String × Marker)) :
    (Line.offsets.go start cuts).length = cuts.length := by
  induction cuts generalizing start with
  | nil => rfl
  | cons cut cuts ih => rw [Line.offsets.go, List.length_cons, ih, List.length_cons]

/-- The place of a marker is behind all that was written in front of it. -/
theorem getElem?_offsets_go (start : Nat) (before after : List (List Char × Wording))
    (gap : List Char) (w : Wording) :
    (Line.offsets.go start ((before ++ (gap, w) :: after).map cutOf))[before.length]? =
      some (start + (String.ofList (written before ++ gap)).utf8ByteSize, w.marker) := by
  induction before generalizing start with
  | nil => rfl
  | cons part before ih =>
    obtain ⟨gap', w'⟩ := part
    have hfront : (String.ofList (written ((gap', w') :: before) ++ gap)).utf8ByteSize =
        (String.ofList gap').utf8ByteSize + w'.marker.text.utf8ByteSize +
          (String.ofList (written before ++ gap)).utf8ByteSize := by
      rw [written_cons, List.append_assoc, List.append_assoc, String.ofList_append,
        String.ofList_append, String.utf8ByteSize_append, String.utf8ByteSize_append, Nat.add_assoc]
      rfl
    rw [List.cons_append, List.map_cons, cutOf, Line.offsets.go, List.length_cons,
      List.getElem?_cons_succ, ih, hfront]
    simp only [Nat.add_assoc]

/-- **The markers of a line are read as they were written.** A line of gaps without stars and of
markers with a name right before their closing delimiter, or with a name and parameters, is cut at
just these markers, in order, each with the name and the parameters that it was given. The place of
a marker is behind all that was written in front of it. Text behind the markers, whatever it holds,
changes none of them. -/
theorem written_markers_are_read (parts : List (List Char × Wording)) (tail : List Char)
    (h : WellFormed parts) (htail : '*' ∉ tail) :
    Line.ofText (String.ofList (written parts ++ tail)) =
      ⟨parts.map cutOf, String.ofList tail⟩ ∧
    (Line.ofText (String.ofList (written parts ++ tail))).offsets.length = parts.length ∧
    (∀ before gap w after, parts = before ++ (gap, w) :: after →
      (Line.ofText (String.ofList (written parts ++ tail))).offsets[before.length]? =
        some ((String.ofList (written before ++ gap)).utf8ByteSize, w.marker)) ∧
    ∀ rest, parts.map cutOf <+: (Line.ofText (String.ofList (written parts ++ rest))).cuts := by
  have hline : ∀ rest, Line.ofText (String.ofList (written parts ++ rest)) =
      ⟨parts.map cutOf ++ (Line.ofChars rest).cuts, (Line.ofChars rest).tail⟩ := fun rest => by
    rw [Line.ofText, String.toList_ofList, ofChars_written h]
  have hread : Line.ofText (String.ofList (written parts ++ tail)) =
      ⟨parts.map cutOf, String.ofList tail⟩ := by
    rw [hline, ofChars_of_next?_eq_none (next?_eq_none_of_starless htail), List.append_nil]
  refine ⟨hread, ?_, ?_, fun rest => ?_⟩
  · rw [hread, Line.offsets, length_offsets_go, List.length_map]
  · rintro before gap w after rfl
    rw [hread, Line.offsets, getElem?_offsets_go, Nat.zero_add]
  · rw [hline]
    exact List.prefix_append _ _

/-- Two markers that touch, so that six stars stand in a row. -/
def touching : List (List Char × Wording) :=
  [("a".toList, .plain [] "date".toList []),
    ([], .full "  ".toList "b".toList " \t ".toList "c d".toList [])]

theorem written_markers_are_read_touching :
    WellFormed touching ∧ (Line.ofText "a***date******  b \t c d***.").offsets =
      [(1, ⟨"***date***", some "date", none⟩),
        (11, ⟨"***  b \t c d***", some "b", some "c d"⟩)] := by
  have hparams : Trimmed "c d".toList := by
    refine ⟨by decide, fun c hc => ?_, fun c hc => ?_⟩
    · obtain rfl : 'c' = c := Option.some.inj hc
      decide
    · obtain rfl : 'd' = c := Option.some.inj hc
      decide
  have hformed : WellFormed touching := by
    refine List.forall_mem_cons.mpr ⟨⟨by decide, ⟨?_, ?_, ?_, ?_⟩, rfl⟩,
      List.forall_mem_singleton.mpr ⟨by decide, ⟨?_, ?_, ?_, ?_, ?_, hparams, ?_, ?_, ?_⟩,
        trivial⟩⟩
    all_goals decide
  have htext : "a***date******  b \t c d***." = String.ofList (written touching ++ ['.']) := by
    decide
  obtain ⟨hline, -⟩ := written_markers_are_read touching ['.'] hformed (by decide)
  refine ⟨hformed, ?_⟩
  rw [htext, hline]
  decide

end Webcomic.Marker
