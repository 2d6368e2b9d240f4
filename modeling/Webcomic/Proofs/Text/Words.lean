import Mathlib.Data.List.TakeWhile
import Webcomic.Text.Pieces

/-!
# Words between separators

What is put in front of a separator and what is put behind it fall apart into words of their own.
So the words of a text are told from its first word on, or from its last: each reaches up to the
next separator. Where a text is a run of characters of one kind and something else behind it, it is
so in one way only (`run_append_inj`).
-/

namespace Webcomic.Text

variable {separator : Char} {a b w rest : List Char}

theorem words_append_separator (separator : Char) (a b : List Char) :
    words separator (a ++ separator :: b) = words separator a ++ words separator b := by
  rw [words, pieces_append_separator, List.filter_append]
  rfl

theorem words_cons_separator (separator : Char) (a : List Char) :
    words separator (separator :: a) = words separator a :=
  words_append_separator separator [] a

theorem words_snoc_separator (separator : Char) (a : List Char) :
    words separator (a ++ [separator]) = words separator a := by
  rw [words_append_separator]
  exact List.append_nil _

/-! ## One word -/

/-- A text without the separator is one word. -/
theorem words_eq_singleton (h : separator ∉ a) (hne : a ≠ []) : words separator a = [a] := by
  have hpieces : pieces separator a = [a] := by
    clear hne
    induction a with
    | nil => rfl
    | cons c a ih =>
      obtain ⟨hc, ha⟩ := not_or.mp (mt List.mem_cons.mpr h)
      rw [pieces, if_neg (Ne.symm hc), ih ha]
  rw [words, hpieces, List.filter_cons_of_pos (by simpa using hne)]
  rfl

theorem ne_nil_of_mem_words (h : w ∈ words separator a) : w ≠ [] := by
  simpa using (List.mem_filter.mp h).2

/-- The separator is in no word. -/
theorem not_mem_of_mem_words (h : w ∈ words separator a) : separator ∉ w := by
  have hpieces : ∀ piece ∈ pieces separator a, separator ∉ piece := by
    clear h
    induction a with
    | nil => simp [pieces]
    | cons c a ih =>
      unfold pieces
      split
      next heq => simpa using ih
      next hne =>
        split
        next hnil => simpa using Ne.symm hne
        next piece rest hcons =>
          rw [hcons] at ih
          intro piece' hmem
          rcases List.mem_cons.mp hmem with rfl | hmem
          · rw [List.mem_cons, not_or]
            exact ⟨Ne.symm hne, ih piece List.mem_cons_self⟩
          · exact ih piece' (List.mem_cons_of_mem _ hmem)
  exact hpieces w (List.mem_filter.mp h).1

/-- What stands behind nothing or behind a separator keeps its words. -/
theorem words_append (h : a = [] ∨ a.getLast? = some separator) :
    words separator (a ++ b) = words separator a ++ words separator b := by
  rcases h with rfl | h
  · rfl
  · obtain ⟨a, rfl⟩ := List.getLast?_eq_some_iff.mp h
    rw [List.append_assoc, List.singleton_append, words_append_separator, words_snoc_separator]

/-- A word reaches up to the next separator. -/
theorem words_word_append (hw : separator ∉ w) (hne : w ≠ [])
    (hrest : rest = [] ∨ rest.head? = some separator) :
    words separator (w ++ rest) = w :: words separator rest := by
  rcases hrest with rfl | hrest
  · rw [List.append_nil, words_eq_singleton hw hne]
    rfl
  · obtain ⟨rest, rfl⟩ := List.head?_eq_some_iff.mp hrest
    rw [words_append_separator, words_eq_singleton hw hne, words_cons_separator]
    rfl

/-- A text begins with a word, up to the first separator. -/
theorem exists_first_word (separator : Char) (a : List Char) :
    ∃ w rest, a = w ++ rest ∧ separator ∉ w ∧ (rest = [] ∨ rest.head? = some separator) := by
  refine ⟨a.takeWhile (· ≠ separator), a.dropWhile (· ≠ separator),
    List.takeWhile_append_dropWhile.symm, ?_, ?_⟩
  · intro hmem
    simpa using List.mem_takeWhile_imp hmem
  · have hhead := List.head?_dropWhile_not (· ≠ separator) a
    cases hdrop : a.dropWhile (· ≠ separator) with
    | nil => exact .inl rfl
    | cons c rest =>
      rw [hdrop] at hhead
      exact .inr (by simpa using hhead)

/-- A text ends with a word, from behind the last separator. -/
theorem exists_last_word (separator : Char) (a : List Char) :
    ∃ front w, a = front ++ w ∧ separator ∉ w ∧
      (front = [] ∨ front.getLast? = some separator) := by
  obtain ⟨w, front, ha, hw, hfront⟩ := exists_first_word separator a.reverse
  refine ⟨front.reverse, w.reverse, ?_, by simpa using hw, by simpa using hfront⟩
  rw [← List.reverse_append, ← ha, List.reverse_reverse]

/-! ## Runs -/

section

variable {p : Char → Bool} {b' : List Char}

/-- A run of characters of one kind is taken off whole, and nothing more than it. -/
theorem run_span (ha : ∀ c ∈ a, p c = true) (hb : ∀ c ∈ b.head?, p c = false) :
    (a ++ b).takeWhile p = a ∧ (a ++ b).dropWhile p = b := by
  rw [List.takeWhile_append_of_pos ha, List.dropWhile_append_of_pos ha]
  cases b with
  | nil => simp
  | cons c b =>
    have hc : p c = false := hb c rfl
    simp [hc]

theorem run_append_inj (ha : ∀ c ∈ a, p c = true) (hw : ∀ c ∈ w, p c = true)
    (hb : ∀ c ∈ b.head?, p c = false) (hb' : ∀ c ∈ b'.head?, p c = false)
    (h : a ++ b = w ++ b') : a = w ∧ b = b' := by
  have hspan := run_span ha hb
  have hspan' := run_span hw hb'
  rw [h] at hspan
  exact ⟨hspan.1.symm.trans hspan'.1, hspan.2.symm.trans hspan'.2⟩

end

/-! ## Words of a text with other characters -/

variable {f : Char → Char}

theorem pieces_map (hf : ∀ c, f c = separator ↔ c = separator) (a : List Char) :
    pieces separator (a.map f) = (pieces separator a).map (List.map f) := by
  induction a with
  | nil => rfl
  | cons c a ih =>
    rw [List.map_cons, pieces, pieces, ih]
    by_cases h : c = separator
    · rw [if_pos h, if_pos ((hf c).mpr h)]
      rfl
    · rw [if_neg h, if_neg (mt (hf c).mp h)]
      cases pieces separator a <;> rfl

/-- Characters that are replaced one by one change the words in the same way, if no separator comes
or goes. -/
theorem words_map (hf : ∀ c, f c = separator ↔ c = separator) (a : List Char) :
    words separator (a.map f) = (words separator a).map (List.map f) := by
  rw [words, pieces_map hf, List.filter_map, words]
  congr 2
  funext piece
  exact congrArg (! ·) List.isEmpty_map

end Webcomic.Text
