import Mathlib.Data.List.Induction
import Webcomic.Proofs.Archive.Neighbours

/-!
# How an archive comes about

An archive begins empty or is read from a directory, and then it is edited: files are put in, and
later days are dropped. What it holds in the end is told day by day (`Archive.filesOn_edited`): the
files that the day began with, unless it was dropped, and then those that have been put in since it
was dropped last, in that order.

So the days ascend and each of them has a file, whatever is done. The files of a day need not be in
the order of their names: only reading sorts them, and a file that is put in goes to the end.
`Archive.alphabetical_edited_iff` says exactly when they are.
-/

namespace Webcomic.Archive

open Calendar Files

/-! ## Edits -/

/-- A change of an archive. -/
inductive Edit where
  | insert (date : Date) (file : String)
  /-- The days after the last are dropped. -/
  | upTo (last : Date)
deriving DecidableEq

/-- The archive after an edit. -/
def edit (a : Archive) : Edit → Archive
  | .insert date file => a.insert date file
  | .upTo last => a.upTo last

/-- The archive after some edits, one after the other. -/
def edited (a : Archive) (edits : List Edit) : Archive :=
  edits.foldl edit a

/-- What an archive begins with. -/
inductive Origin where
  | empty
  | directory (files : FileTree) (dir : Path)

/-- The archive that is begun with. -/
def Origin.archive : Origin → Except Fault Archive
  | .empty => .ok .empty
  | .directory files dir => read files dir

/-! ## One day at a time -/

/-- A day is dropped by an edit. -/
def Edit.Drops (date : Date) : Edit → Prop
  | .insert _ _ => False
  | .upTo last => last < date

instance (date : Date) : (edit : Edit) → Decidable (edit.Drops date)
  | .insert _ _ => inferInstanceAs (Decidable False)
  | .upTo last => inferInstanceAs (Decidable (last < date))

/-- What an edit makes of the files that were put in for a day. -/
def Edit.add (date : Date) (files : List String) : Edit → List String
  | .insert day file => files ++ if day = date then [file] else []
  | .upTo last => if last < date then [] else files

/-- The files that have been put in for a day since it was dropped last, in that order. -/
def added (date : Date) (edits : List Edit) : List String :=
  edits.foldl (Edit.add date) []

/-- The files of a day that an archive began with, unless the day was dropped. -/
def kept (a : Archive) (date : Date) (edits : List Edit) : List String :=
  if ∃ edit ∈ edits, edit.Drops date then [] else a.filesOn date

variable {a : Archive} {date day last : Date} {file : String}

@[simp] theorem edited_concat (a : Archive) (edits : List Edit) (edit : Edit) :
    a.edited (edits ++ [edit]) = (a.edited edits).edit edit := by
  simp [edited]

@[simp] theorem added_concat (date : Date) (edits : List Edit) (edit : Edit) :
    added date (edits ++ [edit]) = edit.add date (added date edits) := by
  simp [added]

theorem kept_concat (a : Archive) (date : Date) (edits : List Edit) (edit : Edit) :
    a.kept date (edits ++ [edit]) = if edit.Drops date then [] else a.kept date edits := by
  have hdrops : (∃ e ∈ edits ++ [edit], e.Drops date) ↔
      edit.Drops date ∨ ∃ e ∈ edits, e.Drops date := by
    simp only [List.mem_append, List.mem_singleton, or_and_right, exists_or, exists_eq_left,
      or_comm]
  unfold kept
  by_cases h : edit.Drops date
  · rw [if_pos (hdrops.mpr (.inl h)), if_pos h]
  · simp only [hdrops, h, false_or, if_false]

/-- **What an archive holds after some edits.** -/
theorem filesOn_edited (a : Archive) (edits : List Edit) (date : Date) :
    (a.edited edits).filesOn date = a.kept date edits ++ added date edits := by
  -- on the last edit, which finds what the others have left
  induction edits using List.reverseRecOn with
  | nil => simp [edited, kept, added]
  | append_singleton edits edit ih =>
    cases edit with
    | insert day file =>
      have hstays : ¬ (Edit.insert day file).Drops date := not_false
      rw [edited_concat, added_concat, kept_concat, if_neg hstays, edit, filesOn_insert, ih,
        Edit.add, List.append_assoc]
    | upTo last =>
      rw [edited_concat, added_concat, kept_concat, edit, filesOn_upTo, ih, Edit.add]
      by_cases h : last < date
      · simp [Edit.Drops, h]
      · simp [Edit.Drops, h, not_lt.mp h]

/-! ## Alphabetical order -/

/-- The files of every day are in the order of their names. -/
def Alphabetical (a : Archive) : Prop :=
  ∀ day ∈ a.days, day.2.Pairwise fun name name' => (name ≤ name')

instance (a : Archive) : Decidable a.Alphabetical := by
  unfold Alphabetical; infer_instance

theorem alphabetical_iff :
    a.Alphabetical ↔ ∀ date, (a.filesOn date).Pairwise fun name name' => (name ≤ name') := by
  constructor
  · intro h date
    by_cases hnil : a.filesOn date = []
    · rw [hnil]
      exact .nil
    · exact h (date, a.filesOn date) (mem_days_iff.mpr ⟨hnil, rfl⟩)
  · intro h day hday
    rw [(mem_days_iff.mp hday).2]
    exact h day.1

/-- An archive begins in alphabetical order. -/
theorem alphabetical_origin {origin : Origin} (h : origin.archive = .ok a) : a.Alphabetical := by
  cases origin with
  | empty =>
    cases h
    exact fun day hday => absurd hday List.not_mem_nil
  | directory files dir =>
    obtain ⟨_, -, rfl⟩ := exists_of_read h
    exact alphabetical_iff.mpr fun date => pairwise_filesOn_ofEntries

/-- A file that is put in keeps the order exactly if none of its day belongs behind it. -/
theorem alphabetical_insert_iff (h : a.Alphabetical) :
    (a.insert date file).Alphabetical ↔ ∀ name ∈ a.filesOn date, name ≤ file := by
  rw [alphabetical_iff] at h
  simp only [alphabetical_iff, filesOn_insert, List.pairwise_append]
  constructor
  · intro hinsert name hname
    exact (hinsert date).2.2 name hname file (by simp)
  · intro hlast day
    refine ⟨h day, ?_, ?_⟩
    · split <;> simp
    · intro name hname name' hname'
      split at hname'
      next heq =>
        rw [List.mem_singleton.mp hname']
        exact hlast name (heq ▸ hname)
      next => cases hname'

/-- Dropping days keeps the order. -/
theorem alphabetical_upTo (h : a.Alphabetical) : (a.upTo last).Alphabetical :=
  fun day hday => h day (List.mem_filter.mp hday).1

/-- **When the files of the days are in alphabetical order.** Whatever is done to an archive, its
days ascend, each has a file, and the files of a day are those it began with and those put in since.
They are in alphabetical order exactly if the files that were put in are, and come behind those that
the day began with. No edit but putting a file in front of its place ever breaks the order. -/
theorem alphabetical_edited_iff {origin : Origin} (h : origin.archive = .ok a) (edits : List Edit) :
    (a.edited edits).dates.Pairwise (· < ·) ∧
    (∀ day ∈ (a.edited edits).days, day.2 ≠ []) ∧
    (∀ date, (a.edited edits).filesOn date = a.kept date edits ++ added date edits) ∧
    ((a.edited edits).Alphabetical ↔ ∀ date,
      (added date edits).Pairwise (fun name name' => (name ≤ name')) ∧
        ∀ name ∈ a.kept date edits, ∀ name' ∈ added date edits, name ≤ name') ∧
    ((a.edited edits).Alphabetical →
      (∀ last, ((a.edited edits).upTo last).Alphabetical) ∧
      ∀ date file, ((a.edited edits).insert date file).Alphabetical ↔
        ∀ name ∈ (a.edited edits).filesOn date, name ≤ file) := by
  have hkept : ∀ date, (a.kept date edits).Pairwise fun name name' => (name ≤ name') := by
    intro date
    unfold kept
    split
    · exact .nil
    · exact alphabetical_iff.mp (alphabetical_origin h) date
  refine ⟨pairwise_dates _, (a.edited edits).inhabited, filesOn_edited a edits, ?_, ?_⟩
  · simp only [alphabetical_iff, filesOn_edited, List.pairwise_append, hkept, true_and]
  · intro horder
    exact ⟨fun last => alphabetical_upTo horder, fun date file => alphabetical_insert_iff horder⟩

/-! A directory with one file, and another file of its day that is put in late. -/

def stripDay : Date := ⟨2024, 3, 8, by decide⟩

def secondStrip : FileTree where
  workingDir := []
  nodes := [(["comics"], .directory), (["comics", "20240308b.png"], .file "b".toUTF8)]
  distinct := by decide

/-- The file that was put in stands behind the one that was read. -/
theorem alphabetical_edited_iff_second_strip :
    ∃ a, (Origin.directory secondStrip "comics").archive = .ok a ∧ a.Alphabetical ∧
      (a.edited [.insert stripDay "20240308a.png"]).filesOn stripDay =
        ["20240308b.png", "20240308a.png"] ∧
      ¬ (a.edited [.insert stripDay "20240308a.png"]).Alphabetical := by
  have hread : (Origin.directory secondStrip "comics").archive =
      .ok (empty.insert stripDay "20240308b.png") := by
    decide +kernel
  obtain ⟨-, -, hfiles, horder, -⟩ :=
    alphabetical_edited_iff hread [.insert stripDay "20240308a.png"]
  have hkept : (empty.insert stripDay "20240308b.png").kept stripDay
      [.insert stripDay "20240308a.png"] = ["20240308b.png"] := by
    decide +kernel
  have hadded : added stripDay [.insert stripDay "20240308a.png"] = ["20240308a.png"] := by
    decide +kernel
  refine ⟨_, hread, alphabetical_origin hread, ?_, ?_⟩
  · rw [hfiles, hkept, hadded]
    rfl
  · intro halphabetical
    have hbehind := (horder.mp halphabetical stripDay).2
    rw [hkept, hadded] at hbehind
    exact absurd (hbehind "20240308b.png" (by simp) "20240308a.png" (by simp)) (by decide +kernel)

end Webcomic.Archive
