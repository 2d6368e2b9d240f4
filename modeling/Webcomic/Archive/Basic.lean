import Webcomic.Calendar.Date

/-!
# Archives

The archive of a comic: its files by the day they belong to, the days in calendar order. A day is
in the archive only if it has a file. The files of a day keep the order in which they were put in;
an archive read from a directory has them in the order of their names.

`next?` and `prev?` walk the archive from day to day; a day that is not in it has no neighbours.
-/

namespace Webcomic

open Calendar

/-- A day of the archive and its files. -/
abbrev ComicDay := Date × List String

/-- The files of a comic by day. -/
structure Archive where
  days : List ComicDay
  ascending : days.Pairwise fun a b => a.1 < b.1
  inhabited : ∀ day ∈ days, day.2 ≠ []
deriving DecidableEq

namespace Archive

/-- An archive without a file. -/
def empty : Archive := ⟨[], .nil, fun _ h => absurd h List.not_mem_nil⟩

/-! ## Putting files in -/

/-- The days with one more file, the last of its day. -/
def insertDay (date : Date) (file : String) : List ComicDay → List ComicDay
  | [] => [(date, [file])]
  | (d, files) :: rest =>
    if date < d then (date, [file]) :: (d, files) :: rest
    else if date = d then (d, files ++ [file]) :: rest
    else (d, files) :: insertDay date file rest

theorem date_of_mem_insertDay {date : Date} {file : String} {days : List ComicDay} {day : ComicDay}
    (h : day ∈ insertDay date file days) : day.1 = date ∨ ∃ files, (day.1, files) ∈ days := by
  induction days with
  | nil => exact .inl (by rw [List.mem_singleton.1 h])
  | cons head rest ih =>
    obtain ⟨d, files⟩ := head
    unfold insertDay at h
    split at h
    · rcases List.mem_cons.1 h with rfl | h
      · exact .inl rfl
      · exact .inr ⟨day.2, h⟩
    · split at h
      next heq =>
        rcases List.mem_cons.1 h with rfl | h
        · exact .inl heq.symm
        · exact .inr ⟨day.2, List.mem_cons_of_mem _ h⟩
      · rcases List.mem_cons.1 h with rfl | h
        · exact .inr ⟨files, List.mem_cons_self⟩
        · rcases ih h with h | ⟨files', h⟩
          · exact .inl h
          · exact .inr ⟨files', List.mem_cons_of_mem _ h⟩

theorem ascending_insertDay {date : Date} {file : String} {days : List ComicDay}
    (h : days.Pairwise fun a b => a.1 < b.1) :
    (insertDay date file days).Pairwise fun a b => a.1 < b.1 := by
  induction days with
  | nil => simp [insertDay]
  | cons head rest ih =>
    obtain ⟨d, files⟩ := head
    have hhead := (List.pairwise_cons.1 h).1
    have hrest := (List.pairwise_cons.1 h).2
    unfold insertDay
    split
    next hlt =>
      -- the new day comes first, before a day that comes before all others
      refine List.pairwise_cons.2 ⟨fun day hday => ?_, h⟩
      rcases List.mem_cons.1 hday with rfl | hday
      · exact hlt
      · have := hhead day hday
        simp only [Date.lt_iff_rank] at *
        omega
    next hge =>
      split
      · exact List.pairwise_cons.2 ⟨fun day hday => hhead day hday, hrest⟩
      next hne =>
        refine List.pairwise_cons.2 ⟨fun day hday => ?_, ih hrest⟩
        -- what is behind the head now is the new day or was behind it before
        rcases date_of_mem_insertDay hday with heq | ⟨files', hmem⟩
        · rcases Date.lt_trichotomy d date with hlt | heq' | hgt
          · exact heq ▸ hlt
          · exact absurd heq'.symm hne
          · exact absurd hgt hge
        · exact hhead (day.1, files') hmem

theorem inhabited_insertDay {date : Date} {file : String} {days : List ComicDay}
    (h : ∀ day ∈ days, day.2 ≠ []) : ∀ day ∈ insertDay date file days, day.2 ≠ [] := by
  induction days with
  | nil => simp [insertDay]
  | cons head rest ih =>
    obtain ⟨d, files⟩ := head
    have hrest : ∀ day ∈ rest, day.2 ≠ [] := fun day hday => h day (List.mem_cons_of_mem _ hday)
    intro day hday
    unfold insertDay at hday
    split at hday
    · rcases List.mem_cons.1 hday with rfl | hday
      · simp
      · exact h day hday
    · split at hday
      · rcases List.mem_cons.1 hday with rfl | hday
        · simp
        · exact hrest day hday
      · rcases List.mem_cons.1 hday with rfl | hday
        · exact h _ List.mem_cons_self
        · exact ih hrest day hday

/-- The archive with one more file, the last of its day. -/
def insert (a : Archive) (date : Date) (file : String) : Archive where
  days := insertDay date file a.days
  ascending := ascending_insertDay a.ascending
  inhabited := inhabited_insertDay a.inhabited

/-- The archive of dated files, each day's in the order of the list. -/
def ofFiles (files : List (Date × String)) : Archive :=
  files.foldl (fun a (date, file) => a.insert date file) empty

/-- The archive with the files of every day in the order of their names. -/
def sortFiles (a : Archive) : Archive where
  days := a.days.map fun (date, files) => (date, files.mergeSort (· ≤ ·))
  ascending := List.pairwise_map.2 a.ascending
  inhabited := by
    intro day hday
    obtain ⟨⟨date, files⟩, hmem, rfl⟩ := List.mem_map.1 hday
    intro hnil
    have hlen := congrArg List.length hnil
    simp only [List.length_mergeSort, List.length_nil, List.length_eq_zero_iff] at hlen
    exact a.inhabited _ hmem hlen

/-- The archive without the days after `last`. -/
def upTo (a : Archive) (last : Date) : Archive where
  days := a.days.filter fun day => day.1 ≤ last
  ascending := a.ascending.filter _
  inhabited day hday := a.inhabited day (List.mem_filter.1 hday).1

/-! ## Looking things up -/

/-- The days of the archive, earliest first. -/
def dates (a : Archive) : List Date :=
  a.days.map Prod.fst

/-- The number of days. -/
def size (a : Archive) : Nat :=
  a.days.length

def isEmpty (a : Archive) : Bool :=
  a.days.isEmpty

/-- The files of a day, if it is in the archive. -/
def files? (a : Archive) (date : Date) : Option (List String) :=
  (a.days.find? (·.1 = date)).map Prod.snd

/-- Whether a day is in the archive. -/
def contains (a : Archive) (date : Date) : Bool :=
  (a.files? date).isSome

/-- The earliest day. -/
def first? (a : Archive) : Option ComicDay :=
  a.days.head?

/-- The latest day. -/
def last? (a : Archive) : Option ComicDay :=
  a.days.getLast?

/-- The day after a day of the archive. -/
def next? (a : Archive) (date : Date) : Option ComicDay :=
  if a.contains date then a.days.find? (date < ·.1) else none

/-- The day before a day of the archive. -/
def prev? (a : Archive) (date : Date) : Option ComicDay :=
  if a.contains date then (a.days.filter (·.1 < date)).getLast? else none

end Archive

end Webcomic
