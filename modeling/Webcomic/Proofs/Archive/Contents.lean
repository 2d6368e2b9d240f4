import Mathlib.Data.List.Sort
import Webcomic.Archive.Directory
import Webcomic.Proofs.Calendar.Stamp
import Webcomic.Proofs.Files.Listing

/-!
# What an archive holds

An archive is known by the files of each day (`Archive.filesOn`): two archives with the same files
on every day are the same (`Archive.ext_filesOn`). The archive of a directory holds the plain files
dated with the day, in the order of their names, so neither the order of the listing nor anything
else in the directory shows in it (`Archive.upTo_ofEntries_congr`).
-/

namespace Webcomic

open Calendar Files

namespace Archive

variable {a b : Archive} {date day last : Date} {file name : String} {days : List ComicDay}

/-- The files of a day, none if the day is not in the archive. -/
def filesOn (a : Archive) (date : Date) : List String :=
  (a.files? date).getD []

/-! ## An archive is known by its files -/

theorem files?_eq_some_iff {files : List String} :
    a.files? date = some files ↔ (date, files) ∈ a.days := by
  obtain ⟨days, hascending, hinhabited⟩ := a
  show (days.find? (·.1 = date)).map Prod.snd = some files ↔ (date, files) ∈ days
  constructor
  · intro h
    obtain ⟨⟨d, fs⟩, hfind, rfl⟩ := Option.map_eq_some_iff.mp h
    obtain rfl : d = date := by simpa using List.find?_some hfind
    exact List.mem_of_find?_eq_some hfind
  · intro h
    induction days with
    | nil => cases h
    | cons head rest ih =>
      obtain ⟨hhead, hrest⟩ := List.pairwise_cons.mp hascending
      rcases List.mem_cons.mp h with rfl | hmem
      · simp
      · -- days are ascending, so that no day before it has its date
        have hne : head.1 ≠ date := (hhead _ hmem).ne
        rw [List.find?_cons_of_neg (by simpa using hne)]
        exact ih hrest (fun day hday => hinhabited day (List.mem_cons_of_mem _ hday)) hmem

/-- The days of an archive are told by its files: a day is listed with all of them, and not without
any. -/
theorem mem_days_iff {comic : ComicDay} :
    comic ∈ a.days ↔ comic.2 ≠ [] ∧ comic.2 = a.filesOn comic.1 := by
  obtain ⟨date, files⟩ := comic
  rw [← files?_eq_some_iff, filesOn]
  constructor
  · intro h
    rw [h]
    exact ⟨a.inhabited _ (files?_eq_some_iff.mp h), rfl⟩
  · rintro ⟨hne, hfiles⟩
    dsimp only at hne hfiles
    cases h : a.files? date with
    | none =>
      rw [h] at hfiles
      exact absurd hfiles hne
    | some files' =>
      rw [h] at hfiles
      rw [hfiles, Option.getD_some]

/-- A day is in the archive exactly if it has files. -/
theorem mem_dates_iff : date ∈ a.dates ↔ a.filesOn date ≠ [] := by
  constructor
  · intro h
    obtain ⟨comic, hmem, rfl⟩ := List.mem_map.mp h
    obtain ⟨hne, hfiles⟩ := mem_days_iff.mp hmem
    rw [← hfiles]
    exact hne
  · intro h
    exact List.mem_map.mpr ⟨(date, a.filesOn date), mem_days_iff.mpr ⟨h, rfl⟩, rfl⟩

theorem nodup_days (a : Archive) : a.days.Nodup :=
  a.ascending.imp fun hlt heq => hlt.ne (congrArg Prod.fst heq)

theorem nodup_dates (a : Archive) : a.dates.Nodup :=
  List.pairwise_map.mpr (a.ascending.imp fun hlt => hlt.ne)

/-- **Archives with the same files on every day are the same.** -/
theorem ext_filesOn (h : ∀ date, a.filesOn date = b.filesOn date) : a = b := by
  have hperm : a.days.Perm b.days := by
    rw [List.perm_ext_iff_of_nodup a.nodup_days b.nodup_days]
    intro comic
    rw [mem_days_iff, mem_days_iff, h]
  have hdays : a.days = b.days :=
    hperm.eq_of_pairwise (fun _ _ _ _ hxy hyx => absurd hyx hxy.not_gt) a.ascending b.ascending
  obtain ⟨days, _, _⟩ := a
  obtain ⟨days', _, _⟩ := b
  cases hdays
  rfl

/-! ## The files after each operation -/

/-- The files of a day among some days. -/
def filesIn (days : List ComicDay) (date : Date) : List String :=
  ((days.find? (·.1 = date)).map Prod.snd).getD []

theorem filesIn_cons (comic : ComicDay) (days : List ComicDay) (date : Date) :
    filesIn (comic :: days) date = if comic.1 = date then comic.2 else filesIn days date := by
  by_cases h : comic.1 = date <;> simp [filesIn, h]

theorem filesIn_eq_nil (h : ∀ comic ∈ days, comic.1 ≠ date) : filesIn days date = [] := by
  have hnone : days.find? (·.1 = date) = none := by simpa using h
  rw [filesIn, hnone]
  rfl

/-- A file is put behind the others of its day. In ascending days there is one place for it. -/
theorem filesIn_insertDay (hascending : days.Pairwise fun a b => a.1 < b.1) :
    filesIn (insertDay date file days) day =
      filesIn days day ++ if date = day then [file] else [] := by
  induction days with
  | nil => by_cases h : date = day <;> simp [insertDay, filesIn, h]
  | cons head rest ih =>
    obtain ⟨d, files⟩ := head
    obtain ⟨hhead, hrest⟩ := List.pairwise_cons.mp hascending
    unfold insertDay
    split
    next hlt =>
      rw [filesIn_cons]
      by_cases h : date = day
      · subst h
        -- all days come later
        have hnil : filesIn ((d, files) :: rest) date = [] := by
          refine filesIn_eq_nil fun comic hmem => ?_
          rcases List.mem_cons.mp hmem with rfl | hmem
          · exact hlt.ne'
          · exact (hlt.trans (hhead comic hmem)).ne'
        simp [hnil]
      · simp [h]
    · split
      next heq =>
        subst heq
        rw [filesIn_cons, filesIn_cons]
        by_cases h : date = day <;> simp [h]
      next hne =>
        rw [filesIn_cons, filesIn_cons, ih hrest]
        by_cases h : d = day
        · subst h
          simp [hne]
        · simp [h]

theorem filesOn_insert :
    (a.insert date file).filesOn day = a.filesOn day ++ if date = day then [file] else [] :=
  filesIn_insertDay a.ascending

/-- Files are kept by their days, in the order in which they are given. -/
theorem filesOn_ofFiles (files : List (Date × String)) (date : Date) :
    (ofFiles files).filesOn date = (files.filter (·.1 = date)).map Prod.snd := by
  have hfold : ∀ a : Archive,
      (files.foldl (fun a entry => a.insert entry.1 entry.2) a).filesOn date =
        a.filesOn date ++ (files.filter (·.1 = date)).map Prod.snd := by
    induction files with
    | nil => simp
    | cons head rest ih =>
      obtain ⟨d, file⟩ := head
      intro a
      rw [List.foldl_cons, ih, filesOn_insert, List.append_assoc]
      by_cases h : d = date <;> simp [h]
  exact hfold empty

theorem filesOn_sortFiles :
    a.sortFiles.filesOn date = (a.filesOn date).mergeSort (· ≤ ·) := by
  show filesIn (a.days.map _) date = (filesIn a.days date).mergeSort (· ≤ ·)
  induction a.days with
  | nil => simp [filesIn]
  | cons head rest ih =>
    obtain ⟨d, files⟩ := head
    rw [List.map_cons, filesIn_cons, filesIn_cons, ih]
    by_cases h : d = date <;> simp [h]

/-- Later days are dropped, and earlier ones are kept whole. -/
theorem filesOn_upTo : (a.upTo last).filesOn date = if date ≤ last then a.filesOn date else [] := by
  show filesIn (a.days.filter _) date = if date ≤ last then filesIn a.days date else []
  induction a.days with
  | nil => simp [filesIn]
  | cons head rest ih =>
    obtain ⟨d, files⟩ := head
    by_cases hlast : d ≤ last
    · rw [List.filter_cons_of_pos (by simpa using hlast), filesIn_cons, filesIn_cons, ih]
      by_cases h : d = date
      · subst h
        simp [hlast]
      · simp [h]
    · rw [List.filter_cons_of_neg (by simpa using hlast), filesIn_cons, ih]
      -- only its own date asks for the files of a day that is cut off, and that date is too late
      by_cases h : d = date
      · subst h
        simp [hlast]
      · simp [h]

/-! ## The archive of a directory -/

variable {entries entries' : List (String × Node)}

/-- The comic files of a directory are listed once each. -/
theorem sublist_datedFiles (entries : List (String × Node)) :
    ((datedFiles entries).map Prod.snd).Sublist (entries.map Prod.fst) := by
  induction entries with
  | nil => exact .slnil
  | cons head rest ih =>
    obtain ⟨name, node⟩ := head
    rw [datedFiles, List.map_cons]
    cases hdated : (if node.isFile then (dateOfName? name).map (·, name) else none) with
    | none =>
      rw [List.filterMap_cons_none (by simpa using hdated)]
      exact ih.cons _
    | some dated =>
      have hname : dated.2 = name := by
        split at hdated
        · obtain ⟨d, -, rfl⟩ := Option.map_eq_some_iff.mp hdated
          rfl
        · cases hdated
      rw [List.filterMap_cons_some (by simpa using hdated), List.map_cons, hname]
      exact ih.cons_cons _

/-- The comic files of a directory are its plain files with a date. -/
theorem mem_datedFiles :
    (date, name) ∈ datedFiles entries ↔
      (∃ content, (name, .file content) ∈ entries) ∧ dateOfName? name = some date := by
  rw [datedFiles, List.mem_filterMap]
  constructor
  · rintro ⟨⟨name', node⟩, hmem, hdated⟩
    dsimp only at hdated
    cases node with
    | directory => cases hdated
    | file content =>
      obtain ⟨date', hdate, heq⟩ := Option.map_eq_some_iff.mp hdated
      cases heq
      exact ⟨⟨content, hmem⟩, hdate⟩
  · rintro ⟨⟨content, hmem⟩, hdate⟩
    exact ⟨_, hmem, by simp [Node.isFile, hdate]⟩

/-- Only plain files count. -/
theorem datedFiles_plain (entries : List (String × Node)) :
    datedFiles (entries.filter (·.2.isFile)) = datedFiles entries := by
  rw [datedFiles, datedFiles, List.filterMap_filter]
  congr 1
  funext entry
  cases hfile : entry.2.isFile <;> simp [hfile]

/-- The archive of a directory has no other files than these. -/
theorem mem_filesOn_ofEntries :
    name ∈ (ofEntries entries).filesOn date ↔
      (∃ content, (name, .file content) ∈ entries) ∧ dateOfName? name = some date := by
  rw [ofEntries, filesOn_sortFiles, List.mem_mergeSort, filesOn_ofFiles, ← mem_datedFiles]
  simp

/-- The files of a day in a directory come in the order of their names. -/
theorem pairwise_filesOn_ofEntries :
    ((ofEntries entries).filesOn date).Pairwise fun a b => (a ≤ b) := by
  rw [ofEntries, filesOn_sortFiles]
  exact List.pairwise_mergeSort' (r := fun a b : String => a ≤ b) _

/-- No file is listed twice for a day, since its directory lists no name twice. -/
theorem nodup_filesOn_ofEntries (h : (entries.map Prod.fst).Nodup) :
    ((ofEntries entries).filesOn date).Nodup := by
  rw [ofEntries, filesOn_sortFiles, (List.mergeSort_perm _ _).nodup_iff, filesOn_ofFiles]
  exact (h.sublist (sublist_datedFiles entries)).sublist (List.filter_sublist.map _)

/-- The days of the archive of a directory, up to a last one, are those of the plain files in it. -/
theorem mem_dates_upTo_ofEntries :
    date ∈ ((ofEntries entries).upTo last).dates ↔ date ≤ last ∧ ∃ name,
      dateOfName? name = some date ∧ ∃ content, (name, .file content) ∈ entries := by
  rw [mem_dates_iff, filesOn_upTo]
  split
  next hlast =>
    rw [Ne, List.eq_nil_iff_forall_not_mem]
    simp only [not_forall, not_not, mem_filesOn_ofEntries]
    exact ⟨fun ⟨name, hfile, hdate⟩ => ⟨hlast, name, hdate, hfile⟩,
      fun ⟨_, name, hdate, hfile⟩ => ⟨name, hfile, hdate⟩⟩
  next hlater => simp [hlater]

/-- The files of a day are put in one order, so it does not matter in which they were found. -/
theorem filesOn_ofEntries_eq_of_perm
    (h : ((ofEntries entries).filesOn date).Perm ((ofEntries entries').filesOn date)) :
    (ofEntries entries).filesOn date = (ofEntries entries').filesOn date :=
  h.eq_of_pairwise (fun _ _ _ _ => String.le_antisymm) pairwise_filesOn_ofEntries
    pairwise_filesOn_ofEntries

/-- **What is not a plain file with a date up to the last does not show in an archive**, and neither
does the order of the listing. -/
theorem upTo_ofEntries_congr (hn : (entries.map Prod.fst).Nodup)
    (hn' : (entries'.map Prod.fst).Nodup)
    (h : ∀ name date, dateOfName? name = some date → date ≤ last →
      ((∃ content, (name, .file content) ∈ entries) ↔
        ∃ content, (name, .file content) ∈ entries')) :
    (ofEntries entries).upTo last = (ofEntries entries').upTo last := by
  refine ext_filesOn fun date => ?_
  rw [filesOn_upTo, filesOn_upTo]
  split
  next hlast =>
    -- the same names in the order of the listing: put in order they are the same list
    apply filesOn_ofEntries_eq_of_perm
    rw [List.perm_ext_iff_of_nodup (nodup_filesOn_ofEntries hn) (nodup_filesOn_ofEntries hn')]
    intro name
    rw [mem_filesOn_ofEntries, mem_filesOn_ofEntries]
    constructor
    · rintro ⟨hfile, hdate⟩
      exact ⟨(h name date hdate hlast).mp hfile, hdate⟩
    · rintro ⟨hfile, hdate⟩
      exact ⟨(h name date hdate hlast).mpr hfile, hdate⟩
  · rfl

/-! ## Reading -/

theorem read_of_resolve {files : FileTree} {dir : Path} {loc : Location}
    (h : files.resolve dir = .ok (loc, .directory)) :
    read files dir = .ok (ofEntries (files.entries loc)) := by
  rw [read, FileTree.list_of_resolve h]
  rfl

/-- What is read is the archive of a directory. -/
theorem exists_of_read {files : FileTree} {dir : Path} (h : read files dir = .ok a) :
    ∃ loc, files.resolve dir = .ok (loc, .directory) ∧ a = ofEntries (files.entries loc) := by
  cases hlist : files.list dir with
  | error fault =>
    rw [read, hlist] at h
    cases h
  | ok entries =>
    rw [read, hlist] at h
    cases h
    obtain ⟨loc, hresolve, rfl⟩ := FileTree.exists_of_list hlist
    exact ⟨loc, hresolve, rfl⟩

end Archive

end Webcomic
