import Webcomic.Proofs.Marker.Pairs
import Webcomic.Proofs.Template.Contents
import Webcomic.Proofs.Template.Turns
import Webcomic.Proofs.Text.Lines
import Webcomic.Template.Builtin

/-!
# Which lines are touched

A line is changed only if two delimiters stand in it, one behind the other; then the first of its
markers starts at the first of them that has another one behind it. A text without such a line is
answered as it is, and no marker is handed over on the way (`LeadsQuietly`). A text with such a line
comes to a marker.

- `leadsQuietly_lines`: lines without a pair are read one after the other, by induction on them.
- `touched_exactly_at_pairs`: the lines, what is left of them, and the text.
-/

namespace Webcomic.Template

open Files Marker Text

variable {M : Type} {tags : Registry M} {files : FileTree} {stack : List (Frame M)} {d : Desk M}
  {a b c : Moment M} {line : String}

/-! ## Lines -/

theorem oneLine_of_mem_lines {text : String} (h : line ∈ lines text) : OneLine line.toList :=
  newline_not_mem_dropLast h

theorem oneLine_of_mem_fileLines {path : Path} {content : ByteArray}
    (h : .ok line ∈ fileLines path content) : OneLine line.toList := by
  obtain ⟨bytes, hbytes, hline⟩ := List.mem_map.mp h
  unfold fileLine at hline
  split at hline
  next hread =>
    cases hline
    exact newline_not_mem_dropLast_of_rawLines hbytes hread
  next => cases hline

/-- A line without a pair of delimiters is not cut, and one with a pair is. -/
theorem cuts_eq_nil_iff (hline : OneLine line.toList) :
    (Line.ofText line).cuts = [] ↔ ∀ i, ¬ PairAt line.toList i := by
  have hnext := next?_drop_eq_none_iff (c := 0) hline
  simp only [List.drop_zero, ge_iff_le, Nat.zero_le, true_imp_iff] at hnext
  rw [← hnext, Line.ofText]
  cases hfirst : next? line.toList with
  | none => exact iff_of_true (by rw [ofChars_of_next?_eq_none hfirst]) rfl
  | some first => exact iff_of_false (by rw [cuts_of_next? hfirst]; simp) (by simp)

theorem tail_of_cuts_eq_nil (h : (Line.ofText line).cuts = []) :
    (Line.ofText line).tail = line := by
  rw [Line.ofText] at h ⊢
  cases hfirst : next? line.toList with
  | none => rw [ofChars_of_next?_eq_none hfirst, String.ofList_toList]
  | some first =>
    rw [cuts_of_next? hfirst] at h
    cases h

/-- Lines without markers are expanded to what they are, whatever markers are answered with. -/
theorem expandLines_of_cuts_eq_nil (respond : Marker → Run M String) {ls : List String}
    (h : ∀ line ∈ ls, (Line.ofText line).cuts = []) :
    expandLines respond ls = pure (String.join ls) := by
  induction ls with
  | nil => rfl
  | cons line ls ih =>
    obtain ⟨hline, hls⟩ := List.forall_mem_cons.mp h
    rw [expandLines, ih hls, expandLine, hline, tail_of_cuts_eq_nil hline, String.join_cons]
    simp only [expandCuts, pure_bind, String.empty_append]

/-! ## Texts -/

/-- One moment leads to another, and no marker is handed over on the way. -/
def LeadsQuietly (tags : Registry M) (files : FileTree) (a b : Moment M) : Prop :=
  ∃ passed, Trail tags files a passed b ∧ ∀ x ∈ passed, ∀ m, x.task ≠ .replace m

theorem LeadsQuietly.refl (a : Moment M) : LeadsQuietly tags files a a :=
  ⟨[], .here, fun _ hx => absurd hx List.not_mem_nil⟩

theorem LeadsQuietly.step (h : LeadsQuietly tags files a b) (hb : ∀ m, b.task ≠ .replace m)
    (hstep : b.next? tags files = some c) : LeadsQuietly tags files a c := by
  obtain ⟨passed, htrail, hquiet⟩ := h
  refine ⟨passed ++ [b], htrail.on hstep, fun x hx => ?_⟩
  rcases List.mem_append.mp hx with hx | hx
  · exact hquiet x hx
  · obtain rfl := List.mem_singleton.mp hx
    exact hb

/-- A reading goes on from line to line as long as there are no markers. -/
theorem leadsQuietly_lines {ls : List String} {rest : List (Except Error String)} {r : Reading}
    (h : LeadsQuietly tags files a ⟨.read r, stack, d⟩) (hcuts : r.cuts = [])
    (hrest : r.rest = ls.map .ok ++ rest) (hls : ∀ line ∈ ls, (Line.ofText line).cuts = []) :
    ∃ r', LeadsQuietly tags files a ⟨.read r', stack, d⟩ ∧ r'.source = r.source ∧ r'.cuts = [] ∧
      r'.rest = rest ∧ r'.done ++ r'.tail = r.done ++ r.tail ++ String.join ls := by
  induction ls generalizing r with
  | nil => exact ⟨r, h, rfl, hcuts, hrest, by simp⟩
  | cons line ls ih =>
    obtain ⟨hline, hls⟩ := List.forall_mem_cons.mp hls
    have hnext := h.step nofun (congrArg some (Reading.go_line stack d hcuts hrest))
    obtain ⟨r', hr', hsource, hcuts', hrest', htext⟩ := ih hnext hline rfl hls
    refine ⟨r', hr', hsource, hcuts', hrest', htext.trans ?_⟩
    show r.done ++ r.tail ++ (Line.ofText line).tail ++ _ = _
    rw [tail_of_cuts_eq_nil hline, String.join_cons, String.append_assoc]

theorem leadsQuietly_start (tags : Registry M) (files : FileTree) (text : String)
    (stack : List (Frame M)) (d : Desk M) :
    LeadsQuietly tags files ⟨.call (.text text), stack, d⟩
      ⟨.read (.start (.text text) ((lines text).map .ok)), stack, d⟩ :=
  (LeadsQuietly.refl _).step nofun rfl

/-- What is read without markers is answered as it is. -/
theorem leadsQuietly_end {source : Request} {text : String}
    (h : LeadsQuietly tags files a ⟨.read (.start source ((lines text).map .ok)), stack, d⟩)
    (hplain : ∀ line ∈ lines text, (Line.ofText line).cuts = []) :
    LeadsQuietly tags files a ⟨.answer text, stack, d.leave files.workingDir source⟩ := by
  obtain ⟨r, hr, hsource, hcuts, hrest, htext⟩ :=
    leadsQuietly_lines h rfl (List.append_nil _).symm hplain
  have hdone : r.done ++ r.tail = text := by
    rw [htext, join_lines]
    exact String.empty_append
  have hend := hr.step nofun (congrArg some (Reading.go_end stack d hcuts hrest))
  rwa [hdone, hsource] at hend

/-- A text without markers is answered as it is. -/
theorem leadsQuietly_text {text : String} (stack : List (Frame M)) (d : Desk M)
    (h : ∀ line ∈ lines text, (Line.ofText line).cuts = []) :
    LeadsQuietly tags files ⟨.call (.text text), stack, d⟩ ⟨.answer text, stack, d⟩ :=
  leadsQuietly_end (leadsQuietly_start tags files text stack d) h

/-- So is a file, with the text that it holds. -/
theorem leadsQuietly_file {path : Path} {text : String} (stack : List (Frame M))
    (hclosed : path.locate files.workingDir ∉ d.session.openFiles)
    (hread : files.read path = .ok text.toUTF8)
    (h : ∀ line ∈ lines text, (Line.ofText line).cuts = []) :
    ∃ d', LeadsQuietly tags files ⟨.call (.file path), stack, d⟩ ⟨.answer text, stack, d'⟩ := by
  have hload : Moment.next? tags files ⟨.load path, stack, d.enter files.workingDir path⟩ =
      some ⟨.read (.start (.file path) ((lines text).map .ok)), stack,
        d.enter files.workingDir path⟩ := by
    rw [Moment.next?, loadFile, hread, ← fileLines_of_text (fromUTF8?_toUTF8 text)]
  have hcall : LeadsQuietly tags files ⟨.call (.file path), stack, d⟩
      ⟨.load path, stack, d.enter files.workingDir path⟩ :=
    (LeadsQuietly.refl _).step (fun m hm => by cases hm)
      (congrArg some (Request.go_of_not_open stack hclosed))
  exact ⟨_, leadsQuietly_end (hcall.step (fun m hm => by cases hm) hload) h⟩

/-- A text comes to the first of its markers. -/
theorem leadsQuietly_marker {text : String} (stack : List (Frame M)) (d : Desk M)
    (h : ∃ line ∈ lines text, (Line.ofText line).cuts ≠ []) :
    ∃ m r, LeadsQuietly tags files ⟨.call (.text text), stack, d⟩
      ⟨.replace m, .reading r :: stack, d⟩ := by
  cases hfind : (lines text).find? fun line => !(Line.ofText line).cuts.isEmpty with
  | none =>
    obtain ⟨line, hmem, hline⟩ := h
    have hempty := List.find?_eq_none.mp hfind line hmem
    exact absurd (by simpa using hempty) hline
  | some line =>
    -- the first line with a marker, and no marker before it
    obtain ⟨hline, before, after, hlines, hbefore⟩ := List.find?_eq_some_iff_append.mp hfind
    have hsplit : (Reading.start (.text text) ((lines text).map .ok)).rest =
        before.map .ok ++ .ok line :: after.map .ok := by
      rw [hlines, ← List.map_cons, ← List.map_append]
      rfl
    obtain ⟨r, hr, -, hcuts, hrest, -⟩ := leadsQuietly_lines
      (leadsQuietly_start tags files text stack d) rfl hsplit
      fun line hmem => by simpa using hbefore line hmem
    obtain ⟨⟨gap, m⟩, cuts, hfirst⟩ := List.exists_cons_of_ne_nil
      (show (Line.ofText line).cuts ≠ [] by simpa using hline)
    have hread := hr.step nofun (congrArg some (Reading.go_line stack d hcuts hrest))
    exact ⟨m, _, hread.step nofun (congrArg some (Reading.go_cut stack d hfirst))⟩

/-! ## The whole -/

/-- **A line is touched exactly where it holds two delimiters.** Lines of texts and of files hold a
newline at their end only. On such a line a marker is found at or behind a position exactly if a
delimiter stands there or behind it and another one behind that, and it starts at the first
delimiter of that kind. So the stretches in front of markers hold no delimiter, and what stands
behind the last marker holds no two. Whatever the handlers and the session are, a text no line of
which holds two delimiters is answered as it is and changes nothing, and no marker is handed over on
the way; any other text comes to a marker. -/
theorem touched_exactly_at_pairs (tags : Registry M) (files : FileTree) :
    (∀ text, ∀ line ∈ lines text, OneLine line.toList) ∧
    (∀ path content line, .ok line ∈ fileLines path content → OneLine line.toList) ∧
    (∀ line : String, OneLine line.toList →
      (∀ c, (∃ gap found, next? (line.toList.drop c) = some (gap, found)) ↔
        ∃ i, c ≤ i ∧ PairAt line.toList i) ∧
      (∀ c gap found, next? (line.toList.drop c) = some (gap, found) →
        IsLeast {i | c ≤ i ∧ PairAt line.toList i} (c + gap.length)) ∧
      (∀ cut ∈ (Line.ofText line).cuts, ¬ delimiter <:+: cut.1.toList) ∧
      ∀ i, ¬ PairAt (Line.ofText line).tail.toList i) ∧
    ∀ text stack d,
      ((∀ line ∈ lines text, ∀ i, ¬ PairAt line.toList i) →
        LeadsQuietly tags files ⟨.call (.text text), stack, d⟩ ⟨.answer text, stack, d⟩ ∧
          ∀ depth, expand tags files (depth + 1) (.text text) d = some (text, d)) ∧
      ((∃ line ∈ lines text, ∃ i, PairAt line.toList i) →
        ∃ m r, LeadsQuietly tags files ⟨.call (.text text), stack, d⟩
          ⟨.replace m, .reading r :: stack, d⟩) := by
  refine ⟨fun _ _ => oneLine_of_mem_lines, fun _ _ _ => oneLine_of_mem_fileLines, ?_, ?_⟩
  · intro line hline
    obtain ⟨ms, hscan⟩ := exists_scan (Nat.zero_le line.toList.length)
    refine ⟨fun c => ?_, fun c gap found h => isLeast_of_next?_drop hline h,
      hscan.stretches hline⟩
    rw [← not_iff_not]
    simpa [Option.eq_none_iff_forall_ne_some] using next?_drop_eq_none_iff (c := c) hline
  · intro text stack d
    -- a line is cut exactly if it holds a pair
    have huncut : ∀ line ∈ lines text,
        ((Line.ofText line).cuts = [] ↔ ∀ i, ¬ PairAt line.toList i) :=
      fun line hmem => cuts_eq_nil_iff (oneLine_of_mem_lines hmem)
    constructor
    · intro hnone
      have hcuts : ∀ line ∈ lines text, (Line.ofText line).cuts = [] :=
        fun line hmem => (huncut line hmem).mpr (hnone line hmem)
      refine ⟨leadsQuietly_text stack d hcuts, fun depth => ?_⟩
      show expandLines _ (lines text) d = _
      rw [expandLines_of_cuts_eq_nil _ hcuts, join_lines]
      rfl
    · rintro ⟨line, hmem, i, hi⟩
      exact leadsQuietly_marker stack d
        ⟨line, hmem, fun hnil => (huncut line hmem).mp hnil i hi⟩

/-- A marker that goes on in the next line is none, and one of nothing but a tab is one. -/
theorem touched_exactly_at_pairs_two_texts :
    let tags := Registry.withBuiltins .echo ()
    let files : FileTree := ⟨[], [], by decide⟩
    let d := tags.desk (.start ⟨2024, 1, 2, by decide⟩ none)
    (∀ line ∈ lines "** ***date\n***\n", ∀ i, ¬ PairAt line.toList i) ∧
      expand tags files 1 (.text "** ***date\n***\n") d = some ("** ***date\n***\n", d) ∧
      (∃ line ∈ lines "***\t***", ∃ i, PairAt line.toList i) ∧
      ∃ m r, LeadsQuietly tags files ⟨.call (.text "***\t***"), [], d⟩
        ⟨.replace m, [.reading r], d⟩ := by
  intro tags files d
  obtain ⟨-, -, -, htext⟩ := touched_exactly_at_pairs tags files
  have hnone : ∀ line ∈ lines "** ***date\n***\n", ∀ i, ¬ PairAt line.toList i := by
    intro line hline
    have hlines : lines "** ***date\n***\n" = ["** ***date\n", "***\n"] := by decide
    refine (cuts_eq_nil_iff (oneLine_of_mem_lines hline)).mp ?_
    rw [hlines] at hline
    revert line
    decide +kernel
  have hpair : ∃ line ∈ lines "***\t***", ∃ i, PairAt line.toList i :=
    ⟨"***\t***", by decide, 0, ⟨_, rfl⟩, 4, by decide, ⟨_, rfl⟩⟩
  exact ⟨hnone, ((htext _ [] d).1 hnone).2 0, hpair, (htext _ [] d).2 hpair⟩

end Webcomic.Template
