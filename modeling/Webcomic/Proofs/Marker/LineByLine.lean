import Webcomic.Proofs.Marker.Decision
import Webcomic.Proofs.Text.Lines

/-!
# The markers of each line

A text is expanded line by line, and a marker does not reach over the end of its line. `LineScan`
says which markers a text has then, by their positions in it: those that a search of each line alone
finds. They lie one behind the other (`LineScan.apart`).

What the search makes of a line is told by its markers in the same way: the stretches are what
stands between them (`ofChars_of_scan_nil`, `ofChars_of_scan_cons`).
-/

namespace Webcomic.Marker

open Text

variable {t : List Char} {a b c k : Nat} {m : Span} {ms ms' : List Span}

/-! ## Slices of slices -/

theorem drop_slice (t : List Char) (a b c : Nat) : (slice t a b).drop c = slice t (a + c) b := by
  rw [slice, slice, List.drop_drop]

/-- A slice of a slice is a slice of the text, further on. -/
theorem slice_slice (h : a + k ≤ b) : slice (slice t a b) c k = slice t (a + c) (a + k) := by
  have htake : (slice t a b).take k = slice t a (a + k) := by
    rw [slice, slice, List.drop_take, List.drop_take, List.take_take, Nat.add_sub_cancel_left,
      Nat.min_eq_left (by omega)]
  rw [slice, htake, drop_slice]

/-- Two slices that meet are one. -/
theorem slice_append_slice (hab : a ≤ b) (hbc : b ≤ c) :
    slice t a b ++ slice t b c = slice t a c := by
  have hcut : slice t a b = slice (t.take c) a b := by
    rw [slice, slice, List.take_take, Nat.min_eq_left hbc]
  rw [hcut]
  exact slice_append_drop hab

/-! ## The markers that a search finds lie one behind the other -/

/-- A marker is not empty. -/
theorem Decision.start_lt_stop {i : Nat} (h : Decision t i m) : m.start < m.stop := by
  have hshorter := length_rest_at? h.at?_eq
  have hstop := h.stop_le
  rw [h.start_eq]
  simp only [List.length_drop] at hshorter
  omega

/-- Markers from one position up to another, each behind the one before it. -/
inductive Apart : Nat → List Span → Nat → Prop where
  | nil {a b : Nat} : a ≤ b → Apart a [] b
  | cons {a b : Nat} {m : Span} {ms : List Span} :
      a ≤ m.start → m.start < m.stop → Apart m.stop ms b → Apart a (m :: ms) b

namespace Apart

theorem le (h : Apart a ms b) : a ≤ b := by
  induction h with
  | nil hab => exact hab
  | cons hstart hlt _ ih => omega

/-- Markers up to a position, and further ones from there on. -/
theorem append (h : Apart a ms b) (h' : Apart b ms' c) : Apart a (ms ++ ms') c := by
  induction h with
  | nil hab =>
    cases h' with
    | nil hbc => exact .nil (hab.trans hbc)
    | cons hstart hlt hrest => exact .cons (hab.trans hstart) hlt hrest
  | cons hstart hlt _ ih => exact .cons hstart hlt (ih h')

/-- **No two markers overlap**, and all lie between the two positions. -/
theorem pairwise (h : Apart a ms b) :
    ms.Pairwise (·.stop ≤ ·.start) ∧ ∀ m ∈ ms, a ≤ m.start ∧ m.start < m.stop ∧ m.stop ≤ b := by
  induction h with
  | nil => exact ⟨.nil, nofun⟩
  | cons hstart hlt hrest ih =>
    obtain ⟨hpairs, hall⟩ := ih
    constructor
    · exact List.pairwise_cons.mpr ⟨fun m' hm' => (hall m' hm').1, hpairs⟩
    · intro m' hm'
      rcases List.mem_cons.mp hm' with rfl | hm'
      · exact ⟨hstart, hlt, hrest.le⟩
      · obtain ⟨hlow, hm', hhigh⟩ := hall m' hm'
        exact ⟨by omega, hm', hhigh⟩

end Apart

/-- What a search finds lies between where it starts and the end of the text. -/
theorem Scan.apart (h : Scan t c ms) (hc : c ≤ t.length) : Apart c ms t.length := by
  induction h with
  | done => exact .nil hc
  | next hi hm _ ih =>
    have hstart := hm.start_eq
    exact .cons (hstart ▸ hi.1.1) hm.start_lt_stop (ih hm.stop_le)

/-! ## The markers of each line -/

/-- The end of the line that starts at a position: behind its newline, or where the text ends. -/
def lineEnd (t : List Char) (a : Nat) : Nat :=
  min (runEnd (· != '\n') t a + 1) t.length

/-- A marker of a line that starts at position `a` of a text, by its place in the text. -/
def Span.shift (a : Nat) (m : Span) : Span :=
  { m with start := a + m.start, stop := a + m.stop }

@[simp] theorem Span.start_shift (a : Nat) (m : Span) : (m.shift a).start = a + m.start := rfl

@[simp] theorem Span.stop_shift (a : Nat) (m : Span) : (m.shift a).stop = a + m.stop := rfl

/-- **The markers of a text from the start of a line on.** Those of each line are looked for in
that line alone. -/
inductive LineScan (t : List Char) : Nat → List Span → Prop where
  | done {a : Nat} : t.length ≤ a → LineScan t a []
  | line {a : Nat} {ms ms' : List Span} : a < t.length → Scan (slice t a (lineEnd t a)) 0 ms →
      LineScan t (lineEnd t a) ms' → LineScan t a (ms.map (·.shift a) ++ ms')

theorem lineEnd_le_length (t : List Char) (a : Nat) : lineEnd t a ≤ t.length :=
  Nat.min_le_right _ _

/-- A line is not empty: it has its newline, or else a character that ends the text. -/
theorem lt_lineEnd (h : a < t.length) : a < lineEnd t a := by
  have hrun := le_runEnd (· != '\n') t a
  unfold lineEnd
  omega

/-- The next line, and the lines behind it. -/
theorem splitAfter_drop (h : a < t.length) :
    splitAfter '\n' (t.drop a) =
      slice t a (lineEnd t a) :: splitAfter '\n' (t.drop (lineEnd t a)) := by
  have hfree : '\n' ∉ slice t a (runEnd (· != '\n') t a) := by
    intro hmem
    rw [← takeWhile_drop] at hmem
    simpa using List.mem_takeWhile_imp hmem
  have hsplit := slice_append_drop (t := t) (le_runEnd (· != '\n') t a)
  rcases Nat.lt_or_ge (runEnd (· != '\n') t a) t.length with hlt | hge
  · -- the run stops at a newline
    have hend : lineEnd t a = runEnd (· != '\n') t a + 1 := Nat.min_eq_left hlt
    have hnewline : t[runEnd (· != '\n') t a]? = some '\n' := by
      have hhead := List.head?_dropWhile_not (· != '\n') (t.drop a)
      rw [dropWhile_drop, List.head?_drop, List.getElem?_eq_getElem hlt] at hhead
      rw [List.getElem?_eq_getElem hlt]
      simpa using hhead
    have hline : slice t a (lineEnd t a) = slice t a (runEnd (· != '\n') t a) ++ ['\n'] := by
      rw [hend, ← slice_succ hnewline, slice_append_slice (le_runEnd _ _ _) (Nat.le_succ _)]
    rw [hline, ← splitAfter_append_stop hfree, ← hline,
      slice_append_drop (lt_lineEnd h).le]
  · have hend : lineEnd t a = t.length := Nat.min_eq_right (by omega)
    have hrest : t.drop (runEnd (· != '\n') t a) = [] := List.drop_eq_nil_of_le hge
    have hall : slice t a (lineEnd t a) = t.drop a := by
      rw [slice, hend, List.take_length]
    rw [hrest, List.append_nil] at hsplit
    rw [hall, hend, List.drop_length, splitAfter_nil, splitAfter_of_not_mem _ (hsplit ▸ hfree)]
    exact List.ne_nil_of_length_pos (by rw [List.length_drop]; omega)

/-- A marker reads the same in its line and in the text. -/
theorem Span.marker_shift (h : a + m.stop ≤ b) :
    (m.shift a).marker t = m.marker (slice t a b) := by
  rw [Span.marker, Span.marker, slice_slice h]
  rfl

/-- Markers of a line are as far apart in the text. -/
theorem Apart.shift (h : Apart b ms c) : Apart (a + b) (ms.map (·.shift a)) (a + c) := by
  induction h with
  | nil hbc => exact .nil (Nat.add_le_add_left hbc a)
  | cons hstart hlt _ ih =>
    exact .cons (Nat.add_le_add_left hstart a) (Nat.add_lt_add_left hlt a) ih

/-- **The markers of a text do not overlap**, not even where one line follows another. -/
theorem LineScan.apart (h : LineScan t a ms) (ha : a ≤ t.length) : Apart a ms t.length := by
  induction h with
  | done => exact .nil ha
  | @line a _ _ hlt hscan _ ih =>
    have hend := lineEnd_le_length t a
    have hstart := lt_lineEnd hlt
    -- the markers of the line lie between its ends, by their places in the text
    have hline := (hscan.apart (Nat.zero_le _)).shift (a := a)
    rw [length_slice hend, Nat.add_zero, Nat.add_sub_cancel' hstart.le] at hline
    exact hline.append (ih hend)

/-- A text has one list of markers. -/
theorem LineScan.unique (h : LineScan t a ms) (h' : LineScan t a ms') : ms = ms' := by
  induction h generalizing ms' with
  | done hle =>
    cases h' with
    | done => rfl
    | line hlt => omega
  | line hlt hscan _ ih =>
    cases h' with
    | done hle => omega
    | line _ hscan' hrest' => rw [hscan.unique hscan', ih hrest']

/-- Every line can be searched from every point of it. -/
theorem exists_scan (hc : c ≤ t.length) : ∃ ms, Scan t c ms := by
  obtain ⟨ms, hms, -⟩ := exists_scan_offsets hc
  exact ⟨ms, hms⟩

/-- Every text has its markers. -/
theorem exists_lineScan (t : List Char) (a : Nat) : ∃ ms, LineScan t a ms := by
  -- on what is left of the text
  induction hn : t.length - a using Nat.strongRecOn generalizing a with
  | ind n ih =>
    rcases Nat.lt_or_ge a t.length with hlt | hge
    · have hend := lt_lineEnd hlt
      obtain ⟨ms, hms⟩ := exists_scan (t := slice t a (lineEnd t a)) (Nat.zero_le _)
      obtain ⟨ms', hms'⟩ := ih _ (by omega) (lineEnd t a) rfl
      exact ⟨_, .line hlt hms hms'⟩
    · exact ⟨[], .done hge⟩

/-! ## A line cut at its markers -/

/-- A line without a marker is all tail. -/
theorem ofChars_of_scan_nil (h : Scan t c []) :
    Line.ofChars (t.drop c) = ⟨[], String.ofList (t.drop c)⟩ := by
  cases h with
  | done hnone =>
    rcases next?_drop t c with ⟨hnext, -⟩ | ⟨i, found, -, hci, hat, -⟩
    · exact ofChars_of_next?_eq_none hnext
    · obtain ⟨m, hm⟩ := exists_decision_of_at? hat
      exact absurd hm (hnone i hci m)

/-- A line is cut at its first marker, and behind it like a line that begins there. -/
theorem ofChars_of_scan_cons (h : Scan t c (m :: ms)) :
    Line.ofChars (t.drop c) =
      ⟨(String.ofList (slice t c m.start), m.marker t) :: (Line.ofChars (t.drop m.stop)).cuts,
        (Line.ofChars (t.drop m.stop)).tail⟩ := by
  cases h with
  | @next _ i _ _ hi hm hrest =>
    have hci : c ≤ i := hi.1.1
    rcases next?_drop t c with ⟨-, hnone⟩ | ⟨i', found, hnext, hci', hat, hbefore⟩
    · have hat := hnone i hci
      rw [hm.at?_eq] at hat
      cases hat
    · obtain ⟨m', hm'⟩ := exists_decision_of_at? hat
      -- the marker that is found is the first one
      obtain rfl : i = i' := by
        have hle : i ≤ i' := hi.2 ⟨hci', m', hm'⟩
        by_contra hne
        have hnone := hbefore i hci (by omega)
        rw [hm.at?_eq] at hnone
        cases hnone
      obtain rfl := Option.some.inj (hat.symm.trans hm.at?_eq)
      have hdrop : (t.drop c).drop (slice t c i).length = t.drop i := by
        have hstop := hm.stop_le
        have hlt := hm.start_lt_stop
        rw [hm.start_eq] at hlt
        rw [List.drop_drop, length_slice (by omega), Nat.add_sub_cancel' hci]
      rw [ofChars_of_next? hnext, hdrop, ofFound_drop hm, hm.start_eq]

end Webcomic.Marker
