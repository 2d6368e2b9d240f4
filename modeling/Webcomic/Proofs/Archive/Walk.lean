import Mathlib.Data.List.DropRight
import Mathlib.Data.Set.Card
import Webcomic.Proofs.Archive.Edits

/-!
# An archive as a map, and a walk through it

An archive answers as a map from days to files does (`Archive.Answers`): the days of the map are
those with a file, the first and the last of them are the least and the greatest, and the neighbours
of a day are the ones next to it in the order of the calendar. After any edits of an empty archive
that map is told by the edits alone (`held`): a day has the files that were put in for it since the
last edit that dropped it.

The days of an archive are linked both ways, and a walk from the first day by the links forward
comes to each day in turn and ends at the last (`Archive.walk_eq`).
-/

namespace Webcomic.Archive

open Calendar Files

variable {a : Archive} {date day : Date} {names : List String} {o o' : Option ComicDay}

/-! ## An archive as a map -/

/-- An archive answers as a map from days to files, in which a day that has no file is missing. -/
structure Answers (a : Archive) (files : Date → List String) : Prop where
  files? : ∀ date, a.files? date = if files date = [] then none else some (files date)
  contains : ∀ date, a.contains date = true ↔ files date ≠ []
  size : (a.size : ℕ∞) = {date | files date ≠ []}.encard
  first? : ∀ date names, a.first? = some (date, names) ↔
    IsLeast {d | files d ≠ []} date ∧ names = files date
  last? : ∀ date names, a.last? = some (date, names) ↔
    IsGreatest {d | files d ≠ []} date ∧ names = files date
  next? : ∀ day date names, a.next? day = some (date, names) ↔
    files day ≠ [] ∧ IsLeast {d | files d ≠ [] ∧ day < d} date ∧ names = files date
  prev? : ∀ day date names, a.prev? day = some (date, names) ↔
    files day ≠ [] ∧ IsGreatest {d | files d ≠ [] ∧ d < day} date ∧ names = files date

/-- What is found among the days of an archive is known by its day. -/
theorem eq_some_iff_of_mem (h : ∀ comic ∈ o, comic ∈ a.days) :
    o = some (date, names) ↔ o.map Prod.fst = some date ∧ names = a.filesOn date := by
  constructor
  · rintro rfl
    exact ⟨rfl, (mem_days_iff.mp (h _ rfl)).2⟩
  · rintro ⟨hdate, rfl⟩
    obtain ⟨⟨date', names⟩, rfl, rfl⟩ := Option.map_eq_some_iff.mp hdate
    rw [← (mem_days_iff.mp (h _ rfl)).2]

/-- Answers from one archive are the same if they are about one day. -/
theorem eq_of_map_fst_eq (h : ∀ comic ∈ o, comic ∈ a.days) (h' : ∀ comic ∈ o', comic ∈ a.days)
    (hdate : o.map Prod.fst = o'.map Prod.fst) : o = o' := by
  refine Option.ext fun ⟨date, names⟩ => ?_
  rw [eq_some_iff_of_mem h, eq_some_iff_of_mem h', hdate]

theorem mem_of_first? : ∀ comic ∈ a.first?, comic ∈ a.days :=
  fun _ => List.mem_of_mem_head?

theorem mem_of_last? : ∀ comic ∈ a.last?, comic ∈ a.days :=
  fun _ => List.mem_of_mem_getLast?

theorem mem_of_next? : ∀ comic ∈ a.next? day, comic ∈ a.days := by
  intro comic h
  rw [next?] at h
  split at h
  · exact List.mem_of_find?_eq_some h
  · cases h

theorem mem_of_prev? : ∀ comic ∈ a.prev? day, comic ∈ a.days := by
  intro comic h
  rw [prev?] at h
  split at h
  · exact (List.mem_filter.mp (List.mem_of_mem_getLast? h)).1
  · cases h

/-- **An archive answers as the map of its files.** -/
theorem answers_filesOn (a : Archive) : a.Answers a.filesOn where
  files? date := by
    refine Option.ext fun names => ?_
    rw [files?_eq_some_iff, mem_days_iff]
    split
    next hnil => simp [hnil]
    next hne => simpa [eq_comm] using fun h => h ▸ hne
  contains date := by rw [contains_iff, mem_dates_iff]
  -- the days are listed once each, so that counting them counts the dates that have files
  size := by
    have hset : {date | a.filesOn date ≠ []} = (a.dates.toFinset : Set Date) := by
      ext date
      simp [mem_dates_iff]
    rw [hset, Set.encard_coe_eq_coe_finsetCard, List.toFinset_card_of_nodup a.nodup_dates, dates,
      List.length_map, size]
  first? date names := by
    rw [eq_some_iff_of_mem mem_of_first?, first?_eq_some_iff]
    simp only [mem_dates_iff]
  last? date names := by
    rw [eq_some_iff_of_mem mem_of_last?, last?_eq_some_iff]
    simp only [mem_dates_iff]
  next? day date names := by
    rw [eq_some_iff_of_mem mem_of_next?, next?_eq_some_iff, and_assoc]
    simp only [mem_dates_iff]
  prev? day date names := by
    rw [eq_some_iff_of_mem mem_of_prev?, prev?_eq_some_iff, and_assoc]
    simp only [mem_dates_iff]

/-! ## What some edits leave -/

/-- The file that an edit puts in for a day. -/
def Edit.fileFor? (date : Date) : Edit → Option String
  | .insert day file => if day = date then some file else none
  | .upTo _ => none

/-- The files of a day after some edits of an empty archive: those that were put in for it behind
the last edit that dropped it. -/
def held (edits : List Edit) (date : Date) : List String :=
  (edits.rtakeWhile fun edit => ¬ edit.Drops date).filterMap (Edit.fileFor? date)

theorem added_eq_held (date : Date) (edits : List Edit) : added date edits = held edits date := by
  -- on the last edit, which drops the day or is behind the one that does
  induction edits using List.reverseRecOn with
  | nil => rfl
  | append_singleton edits edit ih =>
    rw [added_concat, ih, held, held, List.rtakeWhile_concat]
    cases edit with
    | insert day file =>
      have hstays : ¬ (Edit.insert day file).Drops date := not_false
      rw [if_pos (by simpa using hstays), List.filterMap_append, Edit.add]
      by_cases h : day = date <;> simp [Edit.fileFor?, h]
    | upTo last =>
      by_cases h : last < date
      · have hdrops : (Edit.upTo last).Drops date := h
        rw [if_neg (by simpa using hdrops), Edit.add, if_pos h, List.filterMap_nil]
      · have hstays : ¬ (Edit.upTo last).Drops date := h
        rw [if_pos (by simpa using hstays), List.filterMap_append, Edit.add, if_neg h]
        simp [Edit.fileFor?]

/-- Edits of the empty archive leave what the map says they leave. -/
theorem filesOn_edited_empty (edits : List Edit) :
    (empty.edited edits).filesOn = held edits := by
  funext date
  have hempty : empty.kept date edits = [] := by
    unfold kept
    split
    · rfl
    · rfl
  rw [filesOn_edited, hempty, List.nil_append, added_eq_held]

/-- A day that has been dropped begins anew. -/
example :
    held [.insert ⟨2024, 3, 8, by decide⟩ "a.png", .upTo ⟨2024, 1, 31, by decide⟩,
      .insert ⟨2024, 3, 8, by decide⟩ "b.png"] ⟨2024, 3, 8, by decide⟩ = ["b.png"] := by
  decide +kernel

/-! ## From day to day -/

/-- **The links between days lead back**: a day follows another if the other goes before it. -/
theorem next?_eq_some_iff_prev? :
    (a.next? date).map Prod.fst = some day ↔ (a.prev? day).map Prod.fst = some date := by
  rw [next?_eq_some_iff, prev?_eq_some_iff]
  constructor
  · rintro ⟨hdate, ⟨hday, hlt⟩, hleast⟩
    refine ⟨hday, ⟨hdate, hlt⟩, fun d hd => ?_⟩
    by_contra hnle
    exact absurd (hleast ⟨hd.1, not_le.mp hnle⟩) (not_le.mpr hd.2)
  · rintro ⟨hday, ⟨hdate, hlt⟩, hgreatest⟩
    refine ⟨hdate, ⟨hday, hlt⟩, fun d hd => ?_⟩
    by_contra hnle
    exact absurd (hgreatest ⟨hd.1, not_le.mp hnle⟩) (not_le.mpr hd.2)

/-- Where a walk is that began at the first day and has gone on to the next some times. -/
def walk (a : Archive) : Nat → Option ComicDay
  | 0 => a.first?
  | n + 1 => (a.walk n).bind fun comic => a.next? comic.1

/-- **A walk comes to each day in turn.** -/
theorem walk_eq (a : Archive) (n : Nat) : a.walk n = a.days[n]? := by
  induction n with
  | zero => rw [walk, first?, List.head?_eq_getElem?]
  | succ n ih =>
    rw [walk, ih]
    cases hn : a.days[n]? with
    | none =>
      rw [List.getElem?_eq_none_iff] at hn
      rw [List.getElem?_eq_none (Nat.le_succ_of_le hn)]
      rfl
    | some comic =>
      have hdate : a.dates[n]? = some comic.1 := by
        rw [dates, List.getElem?_map, hn]
        rfl
      rw [Option.bind_some]
      refine eq_of_map_fst_eq mem_of_next? (fun _ => List.mem_of_getElem?) ?_
      rw [next?_eq hdate, dates, List.getElem?_map]

/-- **Edits of an empty archive against a map.** After any edits, an archive answers as the map
that gives each day the files put in for it, in that order, since it was dropped last. Its days are
linked both ways, and a walk from the first day comes as far as there are days, to the last, and no
further. -/
theorem edited_answers (edits : List Edit) :
    (empty.edited edits).Answers (held edits) ∧
    (∀ date day, ((empty.edited edits).next? date).map Prod.fst = some day ↔
      ((empty.edited edits).prev? day).map Prod.fst = some date) ∧
    (∀ n, ((empty.edited edits).walk n).isSome ↔ n < (empty.edited edits).size) ∧
    (empty.edited edits).walk ((empty.edited edits).size - 1) = (empty.edited edits).last? ∧
    (empty.edited edits).walk (empty.edited edits).size = none := by
  refine ⟨?_, fun _ _ => next?_eq_some_iff_prev?, fun n => ?_, ?_, ?_⟩
  · rw [← filesOn_edited_empty]
    exact answers_filesOn _
  · rw [walk_eq, size, isSome_getElem?]
  · rw [walk_eq, last?, List.getLast?_eq_getElem?, size]
  · rw [walk_eq, size, List.getElem?_eq_none le_rfl]

end Webcomic.Archive
