import Webcomic.Proofs.Marker.LineByLine
import Webcomic.Proofs.Template.Agreement
import Webcomic.Template.Builtin

/-!
# An expanded text is the text with its markers replaced

What a text is expanded to is told by the positions of its markers (`Marker.LineScan`). `splice`
puts a reply in the place of each of them and keeps every other character. `Replied` says where the
replies come from: each marker is answered once, in the order of reading, on the desk that the
answer before it left. Nothing is looked for in a reply.

- `expandCut_eq_some_iff`: one line, by induction on the search for its markers.
- `expandLines_eq_some_iff`: all lines, by induction on the lines.
- `expand_text_eq_splice`: the text, and two texts in a row.
-/

namespace Webcomic.Template

open Files Marker Text

variable {M : Type} {respond : Marker → Run M String} {d d' : Desk M} {t : List Char}
  {a b c : Nat} {ms ms' : List Span} {replies : List String}

/-! ## Replies in the place of markers -/

/-- **A text from a position on, with replies in the place of markers.** Every character that
belongs to no marker is kept. -/
def splice (t : List Char) : Nat → List (Span × String) → List Char
  | c, [] => t.drop c
  | c, (m, text) :: rest => slice t c m.start ++ text.toList ++ splice t m.stop rest

/-- **Markers, answered one after the other.** Each is answered on the desk that the one before it
left. -/
inductive Replied (respond : Marker → Run M String) :
    Desk M → List Marker → List String → Desk M → Prop where
  | nil {d : Desk M} : Replied respond d [] [] d
  | cons {d d₁ d' : Desk M} {m : Marker} {text : String} {ms : List Marker}
      {texts : List String} :
      respond m d = some (text, d₁) → Replied respond d₁ ms texts d' →
      Replied respond d (m :: ms) (text :: texts) d'

namespace Replied

variable {markers markers' : List Marker}

theorem length_eq (h : Replied respond d markers replies d') :
    replies.length = markers.length := by
  induction h with
  | nil => rfl
  | cons _ _ ih => rw [List.length_cons, List.length_cons, ih]

/-- Replies to some markers and then to others are replies to all, from one desk to the next. -/
theorem append_iff : Replied respond d (markers ++ markers') replies d' ↔
    ∃ texts texts' d₁, replies = texts ++ texts' ∧ Replied respond d markers texts d₁ ∧
      Replied respond d₁ markers' texts' d' := by
  induction markers generalizing d replies with
  | nil =>
    constructor
    · intro h
      exact ⟨[], replies, d, rfl, .nil, h⟩
    · rintro ⟨texts, texts', d₁, rfl, hnil, h⟩
      cases hnil
      exact h
  | cons m markers ih =>
    constructor
    · intro h
      cases h with
      | cons hreply hrest =>
        obtain ⟨texts, texts', d₁, rfl, hfirst, hthen⟩ := ih.mp hrest
        exact ⟨_ :: texts, texts', d₁, rfl, .cons hreply hfirst, hthen⟩
    · rintro ⟨texts, texts', d₁, rfl, hfirst, hthen⟩
      cases hfirst with
      | cons hreply hrest => exact .cons hreply (ih.mpr ⟨_, texts', d₁, rfl, hrest, hthen⟩)

end Replied

theorem ofList_splice_cons (t : List Char) (c : Nat) (m : Span) (ms : List Span) (text : String)
    (texts : List String) :
    String.ofList (splice t c ((m :: ms).zip (text :: texts))) =
      String.ofList (slice t c m.start) ++ text ++
        String.ofList (splice t m.stop (ms.zip texts)) := by
  rw [List.zip_cons_cons, splice, String.ofList_append, String.ofList_append, String.ofList_toList]

/-- The characters up to the first marker are kept. -/
theorem splice_of_apart (h : Apart b ms c) (hab : a ≤ b) :
    splice t a (ms.zip replies) = slice t a b ++ splice t b (ms.zip replies) := by
  cases h with
  | nil =>
    show t.drop a = _
    exact (slice_append_drop hab).symm
  | @cons _ _ m ms hstart hlt hrest =>
    cases replies with
    | nil =>
      show t.drop a = _
      exact (slice_append_drop hab).symm
    | cons text replies =>
      have hgap := slice_append_slice (t := t) hab hstart
      rw [List.zip_cons_cons, splice, splice, ← hgap]
      simp only [List.append_assoc]

/-- A line is spliced by itself, and then what stands behind it. -/
theorem splice_line {texts : List String} (texts' : List String) (hb : b ≤ t.length)
    (h : Apart c ms (slice t a b).length) (hlength : texts.length = ms.length)
    (hab : a ≤ b) (hbehind : Apart b ms' t.length) :
    splice t (a + c) ((ms.map (·.shift a) ++ ms').zip (texts ++ texts')) =
      splice (slice t a b) c (ms.zip texts) ++ splice t b (ms'.zip texts') := by
  induction ms generalizing c texts with
  | nil =>
    obtain rfl := List.eq_nil_of_length_eq_zero hlength
    have hc := h.le
    rw [length_slice hb] at hc
    -- no marker is left in the line: its rest stands in front of the first one behind it
    have hle : a + c ≤ b := by omega
    show splice t (a + c) (ms'.zip texts') = (slice t a b).drop c ++ _
    rw [drop_slice, splice_of_apart hbehind hle]
  | cons m ms ih =>
    obtain ⟨text, texts, rfl⟩ := List.exists_cons_of_length_eq_add_one hlength
    cases h with
    | cons hstart hlt hrest =>
      have hstop := hrest.le
      rw [length_slice hb] at hstop
      have hgap : slice (slice t a b) c m.start = slice t (a + c) (a + m.start) :=
        slice_slice (by omega)
      have hrest' := ih hrest (Nat.succ.inj hlength)
      simp only [List.map_cons, List.cons_append, List.zip_cons_cons, splice, Span.start_shift,
        Span.stop_shift, hgap]
      rw [hrest']
      simp only [List.append_assoc]

/-! ## Lines -/

/-- A line that is cut at its markers, with these replaced. -/
def expandCut (respond : Marker → Run M String) (line : Line) : Run M String := do
  let text ← expandCuts respond line.cuts
  pure (text ++ line.tail)

/-- The first marker is replaced, and then the others. -/
theorem expandCut_cons (respond : Marker → Run M String) (gap : String) (m : Marker)
    (line : Line) :
    expandCut respond ⟨(gap, m) :: line.cuts, line.tail⟩ = (do
      let text ← respond m
      let rest ← expandCut respond line
      pure (gap ++ text ++ rest)) := by
  simp only [expandCut, expandCuts, bind_assoc, pure_bind, String.append_assoc]

/-- A line from a position on. -/
theorem expandCut_eq_some_iff {out : String} (h : Scan t c ms) :
    expandCut respond (Line.ofChars (t.drop c)) d = some (out, d') ↔
      ∃ replies, Replied respond d (ms.map (·.marker t)) replies d' ∧
        out = String.ofList (splice t c (ms.zip replies)) := by
  -- on the search: behind each marker it goes on
  induction h generalizing d out with
  | @done c hnone =>
    rw [ofChars_of_scan_nil (.done hnone)]
    simp only [expandCut, expandCuts, pure_bind, String.empty_append, Run.pure_eq_some,
      List.map_nil]
    constructor
    · rintro ⟨rfl, rfl⟩
      exact ⟨[], .nil, rfl⟩
    · rintro ⟨replies, hnil, rfl⟩
      cases hnil
      exact ⟨rfl, rfl⟩
  | @next c i m ms hi hm hrest ih =>
    rw [ofChars_of_scan_cons (.next hi hm hrest), expandCut_cons, Run.bind_eq_some]
    simp only [Run.bind_eq_some, Run.pure_eq_some]
    constructor
    · rintro ⟨text, d₁, hreply, rest, d₂, hline, rfl, rfl⟩
      obtain ⟨replies, hreplied, rfl⟩ := ih.mp hline
      exact ⟨text :: replies, .cons hreply hreplied, (ofList_splice_cons ..).symm⟩
    · rintro ⟨replies, hreplied, rfl⟩
      cases hreplied with
      | @cons _ d₁ _ _ text _ texts hreply hreplied =>
        exact ⟨text, d₁, hreply, _, d', ih.mpr ⟨texts, hreplied, rfl⟩,
          (ofList_splice_cons ..).symm, rfl⟩

/-- A line is expanded to the splice of the replies to its markers. -/
theorem expandLine_eq_some_iff {out : String} (h : Scan t 0 ms) :
    expandLine respond (String.ofList t) d = some (out, d') ↔
      ∃ replies, Replied respond d (ms.map (·.marker t)) replies d' ∧
        out = String.ofList (splice t 0 (ms.zip replies)) := by
  have hline : expandLine respond (String.ofList t) =
      expandCut respond (Line.ofChars (t.drop 0)) := by
    rw [expandLine, Line.ofText, String.toList_ofList]
    rfl
  rw [hline, expandCut_eq_some_iff h]

/-- **So are the lines of a text**, from each line on. Induction on the markers line by line. -/
theorem expandLines_eq_some_iff {out : String} (h : LineScan t a ms) (ha : a ≤ t.length) :
    expandLines respond ((splitAfter '\n' (t.drop a)).map String.ofList) d = some (out, d') ↔
      ∃ replies, Replied respond d (ms.map (·.marker t)) replies d' ∧
        out = String.ofList (splice t a (ms.zip replies)) := by
  induction h generalizing d out with
  | @done a hle =>
    have hnil : t.drop a = [] := List.drop_eq_nil_of_le hle
    rw [hnil, splitAfter_nil, List.map_nil, List.map_nil, expandLines, Run.pure_eq_some]
    constructor
    · rintro ⟨rfl, rfl⟩
      refine ⟨[], .nil, ?_⟩
      rw [List.zip_nil_left, splice, hnil]
    · rintro ⟨replies, hnone, rfl⟩
      cases hnone
      rw [List.zip_nil_left, splice, hnil]
      exact ⟨rfl, rfl⟩
  | @line a ms ms' hlt hscan hrest ih =>
    have hend := lineEnd_le_length t a
    have hstart := (lt_lineEnd hlt).le
    have happart := hscan.apart (Nat.zero_le _)
    have hbehind := hrest.apart hend
    -- the markers of the line are the same in the line and in the text
    have hmarkers : (ms.map (·.shift a)).map (·.marker t) =
        ms.map (·.marker (slice t a (lineEnd t a))) := by
      rw [List.map_map]
      refine List.map_congr_left fun m hm => ?_
      have hstop := (happart.pairwise.2 m hm).2.2
      rw [length_slice hend] at hstop
      exact Span.marker_shift (by omega)
    -- what the line and the lines behind it come to, next to each other
    have hsplice : ∀ {texts d₁}, Replied respond d (ms.map (·.marker (slice t a (lineEnd t a))))
        texts d₁ → ∀ texts', String.ofList (splice t a
          ((ms.map (·.shift a) ++ ms').zip (texts ++ texts'))) =
        String.ofList (splice (slice t a (lineEnd t a)) 0 (ms.zip texts)) ++
          String.ofList (splice t (lineEnd t a) (ms'.zip texts')) := by
      intro texts d₁ hreplied texts'
      have hlength := hreplied.length_eq.trans (List.length_map _)
      rw [← String.ofList_append, ← splice_line texts' hend happart hlength hstart hbehind,
        Nat.add_zero]
    rw [splitAfter_drop hlt, List.map_cons, List.map_append, hmarkers, expandLines,
      Run.bind_eq_some]
    simp only [Run.bind_eq_some, Run.pure_eq_some, Replied.append_iff]
    constructor
    · rintro ⟨text, d₁, hline, more, d₂, hmore, rfl, rfl⟩
      obtain ⟨texts, hreplied, rfl⟩ := (expandLine_eq_some_iff hscan).mp hline
      obtain ⟨texts', hreplied', rfl⟩ := (ih hend).mp hmore
      exact ⟨texts ++ texts', ⟨texts, texts', d₁, rfl, hreplied, hreplied'⟩,
        (hsplice hreplied texts').symm⟩
    · rintro ⟨_, ⟨texts, texts', d₁, rfl, hreplied, hreplied'⟩, rfl⟩
      exact ⟨_, d₁, (expandLine_eq_some_iff hscan).mpr ⟨texts, hreplied, rfl⟩, _, d',
        (ih hend).mpr ⟨texts', hreplied', rfl⟩, (hsplice hreplied texts').symm, rfl⟩

/-- Lines are expanded one after another, and what is made of them stands in their order. -/
theorem expandLines_append (respond : Marker → Run M String) (ls ls' : List String) :
    expandLines respond (ls ++ ls') = (do
      let text ← expandLines respond ls
      let more ← expandLines respond ls'
      pure (text ++ more)) := by
  induction ls with
  | nil => simp only [List.nil_append, expandLines, pure_bind, String.empty_append, bind_pure]
  | cons line ls ih =>
    simp only [List.cons_append, expandLines, ih, bind_assoc, pure_bind, String.append_assoc]

/-! ## Texts -/

/-- **Expanding a text replaces its markers, and nothing else.** The markers are those of its lines;
they do not overlap. The text has a result exactly if all of them are answered, one after the other,
and the result is the text with the replies in their places. A text that is empty or ends in a
newline can be expanded by itself before the text behind it. -/
theorem expand_text_eq_splice (tags : Registry M) (files : FileTree) (depth : Nat) (t : String) :
    (∃ ms, (∀ ms', LineScan t.toList 0 ms' ↔ ms' = ms) ∧
      ms.Pairwise (·.stop ≤ ·.start) ∧
      (∀ m ∈ ms, m.start < m.stop ∧ m.stop ≤ t.toList.length) ∧
      ∀ d out d', expand tags files (depth + 1) (.text t) d = some (out, d') ↔
        ∃ replies, Replied (reply tags files.workingDir (expand tags files depth)) d
            (ms.map (·.marker t.toList)) replies d' ∧
          out = String.ofList (splice t.toList 0 (ms.zip replies))) ∧
    ((t = "" ∨ t.toList.getLast? = some '\n') → ∀ behind,
      expand tags files (depth + 1) (.text (t ++ behind)) = (do
        let text ← expand tags files (depth + 1) (.text t)
        let more ← expand tags files (depth + 1) (.text behind)
        pure (text ++ more))) := by
  constructor
  · obtain ⟨ms, hms⟩ := exists_lineScan t.toList 0
    obtain ⟨hpairs, hbounds⟩ := (hms.apart (Nat.zero_le _)).pairwise
    refine ⟨ms, fun ms' => ⟨fun h => h.unique hms, fun h => h ▸ hms⟩, hpairs,
      fun m hm => (hbounds m hm).2, ?_⟩
    intro d out d'
    exact expandLines_eq_some_iff hms (Nat.zero_le _)
  · intro hend behind
    show expandLines _ (lines (t ++ behind)) = _
    rw [lines_append hend, expandLines_append]
    rfl

/-! A handler that replies with a marker, and a text of two lines. -/

def markerTags : Registry Unit :=
  (Registry.withBuiltins .echo ()).register "again" (fixedHandler "***date***")

/-- The reply of the first line is not expanded again. -/
theorem expand_text_eq_splice_two_lines :
    ("***again***\n" = "" ∨ "***again***\n".toList.getLast? = some '\n') ∧
      (expand markerTags ⟨[], [], by decide⟩ 1 (.text ("***again***\n" ++ "***date***"))
        (markerTags.desk (.start ⟨2024, 1, 2, by decide⟩ none))).map Prod.fst =
          some "***date***\n2024-01-02" := by
  have hend : "***again***\n" = "" ∨ "***again***\n".toList.getLast? = some '\n' := .inr rfl
  refine ⟨hend, ?_⟩
  rw [(expand_text_eq_splice markerTags ⟨[], [], by decide⟩ 0 "***again***\n").2 hend]
  decide +kernel

end Webcomic.Template
