import Mathlib.Data.Set.Card
import Webcomic.Proofs.Archive.Contents
import Webcomic.Proofs.Text.ByteOrder

/-!
# Reading a directory

The archive of a directory is told from what the directory holds: its plain files that are dated
with a real day (`Archive.IsComic`), each once and under its day. A directory can be listed in any
order, and trees that hold the same differ in nothing else. The archive does not show it, since it
is known by the files of each day, and those are sorted (`Archive.read_exact`).
-/

namespace Webcomic

open Calendar Files Text

namespace Files

variable {t t' : FileTree}

/-- Trees whose nodes are kept in another order hold the same. -/
theorem FileTree.node?_perm (h : t'.nodes.Perm t.nodes) (loc : Location) :
    t'.node? loc = t.node? loc := by
  unfold FileTree.node?
  split
  · rfl
  · refine Option.ext fun node => ?_
    constructor
    · intro hnode
      exact Keyed.get?_of_mem t.distinct (h.mem_iff.mp (Keyed.mem_of_get? hnode))
    · intro hnode
      exact Keyed.get?_of_mem t'.distinct (h.mem_iff.mpr (Keyed.mem_of_get? hnode))

/-- A directory lists the same entries in whatever order the tree has its nodes. -/
theorem FileTree.entries_perm (h : t'.nodes.Perm t.nodes) (loc : Location) :
    (t'.entries loc).Perm (t.entries loc) :=
  h.filterMap _

end Files

namespace Archive

variable {a : Archive} {t : FileTree} {loc : Location} {date day : Date} {name : String}
  {entries entries' : List (String × Node)}

/-! ## The order of a listing -/

/-- **The order of a listing does not show in an archive.** -/
theorem ofEntries_perm (h : entries.Perm entries') : ofEntries entries = ofEntries entries' := by
  refine ext_filesOn fun date => filesOn_ofEntries_eq_of_perm ?_
  simp only [ofEntries, filesOn_sortFiles, filesOn_ofFiles]
  refine (List.mergeSort_perm _ _).trans (List.Perm.trans ?_ (List.mergeSort_perm _ _).symm)
  exact ((h.filterMap _).filter _).map _

/-! ## The files of all days -/

/-- The files of all days, one day after the other. -/
def allFiles (a : Archive) : List String :=
  a.days.flatMap Prod.snd

theorem mem_allFiles : name ∈ a.allFiles ↔ ∃ date, name ∈ a.filesOn date := by
  rw [allFiles, List.mem_flatMap]
  constructor
  · rintro ⟨comic, hcomic, hname⟩
    refine ⟨comic.1, ?_⟩
    rw [← (mem_days_iff.mp hcomic).2]
    exact hname
  · rintro ⟨date, hname⟩
    exact ⟨(date, a.filesOn date), mem_days_iff.mpr ⟨List.ne_nil_of_mem hname, rfl⟩, hname⟩

/-- If a day has no file twice, and no file has two days, each file is there once. -/
theorem nodup_allFiles (h : ∀ date, (a.filesOn date).Nodup)
    (hdate : ∀ date day name, name ∈ a.filesOn date → name ∈ a.filesOn day → date = day) :
    a.allFiles.Nodup := by
  rw [allFiles, List.nodup_flatMap]
  constructor
  · intro comic hcomic
    rw [(mem_days_iff.mp hcomic).2]
    exact h comic.1
  · refine a.ascending.imp_of_mem ?_
    intro comic comic' hcomic hcomic' hlt name hname hname'
    rw [(mem_days_iff.mp hcomic).2] at hname
    rw [(mem_days_iff.mp hcomic').2] at hname'
    exact hlt.ne (hdate _ _ name hname hname')

/-! ## What is read -/

/-- A comic file of a day in a directory: a plain file whose name is dated with the day. -/
def IsComic (t : FileTree) (loc : Location) (date : Date) (name : String) : Prop :=
  (∃ content, t.node? (loc ++ [name]) = some (.file content)) ∧ dateOfName? name = some date

/-- The files of a day are the comic files of that date, and nothing else. -/
theorem mem_filesOn_iff_isComic :
    name ∈ (ofEntries (t.entries loc)).filesOn date ↔ IsComic t loc date name := by
  simp only [mem_filesOn_ofEntries, FileTree.mem_entries, IsComic]

theorem mem_allFiles_ofEntries :
    name ∈ (ofEntries (t.entries loc)).allFiles ↔ ∃ date, IsComic t loc date name := by
  simp only [mem_allFiles, mem_filesOn_iff_isComic]

/-- No file is in the archive for two days, or twice for one. -/
theorem nodup_allFiles_ofEntries (t : FileTree) (loc : Location) :
    (ofEntries (t.entries loc)).allFiles.Nodup := by
  refine nodup_allFiles (fun date => nodup_filesOn_ofEntries (t.nodup_entries loc)) ?_
  intro date day name hdate hday
  have hfirst := (mem_filesOn_iff_isComic.mp hdate).2
  rw [(mem_filesOn_iff_isComic.mp hday).2] at hfirst
  exact (Option.some.inj hfirst).symm

/-- There are as many files of all days as there are comic files in the directory. -/
theorem length_allFiles_ofEntries (t : FileTree) (loc : Location) :
    ((ofEntries (t.entries loc)).allFiles.length : ℕ∞) =
      {name | ∃ date, IsComic t loc date name}.encard := by
  have hset : {name | ∃ date, IsComic t loc date name} =
      ((ofEntries (t.entries loc)).allFiles.toFinset : Set String) := by
    ext name
    simp [mem_allFiles_ofEntries]
  rw [hset, Set.encard_coe_eq_coe_finsetCard,
    List.toFinset_card_of_nodup (nodup_allFiles_ofEntries t loc)]

/-- The files of a day that were read ascend in the order of their bytes. -/
theorem pairwise_bytes_filesOn (t : FileTree) (loc : Location) (date : Date) :
    ((ofEntries (t.entries loc)).filesOn date).Pairwise fun a b => bytes a < bytes b := by
  have hnodup : ((ofEntries (t.entries loc)).filesOn date).Nodup :=
    nodup_filesOn_ofEntries (t.nodup_entries loc)
  refine (pairwise_filesOn_ofEntries.and hnodup).imp ?_
  rintro a b ⟨hle, hne⟩
  exact bytes_lt_bytes (lt_of_le_of_ne hle hne)

/-- Trees that hold the same in another order are read alike. -/
theorem read_perm {t' : FileTree} {dir : Path} (hwd : t'.workingDir = t.workingDir)
    (hperm : t'.nodes.Perm t.nodes) (h : t.resolve dir = .ok (loc, .directory)) :
    read t' dir = read t dir := by
  have h' : t'.resolve dir = .ok (loc, .directory) := by
    rw [FileTree.resolve_congr hwd fun l _ => FileTree.node?_perm hperm l, h]
  rw [read_of_resolve h', read_of_resolve h, ofEntries_perm (FileTree.entries_perm hperm loc)]

/-- **Reading a directory is exact, and the order of its listing does not show.** Every directory
can be read. Trees that hold the same in another order give the same archive. Each comic file is in
it once, under its day, and nothing else is. The days ascend and each of them has a file; the files
of a day ascend in the order of their bytes. There are as many files in all as there are comic files
in the directory. -/
theorem read_exact {dir : Path} (h : t.resolve dir = .ok (loc, .directory)) :
    ∃ a, read t dir = .ok a ∧
      (∀ t' : FileTree, t'.workingDir = t.workingDir → t'.nodes.Perm t.nodes →
        read t' dir = .ok a) ∧
      (∀ date name, IsComic t loc date name →
        a.allFiles.count name = 1 ∧ ∃ names, a.files? date = some names ∧ name ∈ names) ∧
      (∀ name, (∀ date, ¬ IsComic t loc date name) → name ∉ a.allFiles) ∧
      a.dates.Pairwise (· < ·) ∧
      (∀ day ∈ a.days, day.2 ≠ [] ∧ day.2.Pairwise fun name name' => bytes name < bytes name') ∧
      (((a.days.map fun day => day.2.length).sum : Nat) : ℕ∞) =
        {name | ∃ date, IsComic t loc date name}.encard := by
  have hread := read_of_resolve h
  refine ⟨ofEntries (t.entries loc), hread, ?_, ?_, ?_, List.pairwise_map.mpr ?_, ?_, ?_⟩
  · intro t' hwd hperm
    rw [read_perm hwd hperm h, hread]
  · intro date name hcomic
    have hname := mem_filesOn_iff_isComic.mpr hcomic
    have hall := mem_allFiles_ofEntries.mpr ⟨date, hcomic⟩
    refine ⟨List.count_eq_one_of_mem (nodup_allFiles_ofEntries t loc) hall, _, ?_, hname⟩
    exact files?_eq_some_iff.mpr (mem_days_iff.mpr ⟨List.ne_nil_of_mem hname, rfl⟩)
  · intro name hnone hname
    obtain ⟨date, hcomic⟩ := mem_allFiles_ofEntries.mp hname
    exact hnone date hcomic
  · exact (ofEntries (t.entries loc)).ascending
  · intro day hday
    obtain ⟨hne, hfiles⟩ := mem_days_iff.mp hday
    refine ⟨hne, ?_⟩
    rw [hfiles]
    exact pairwise_bytes_filesOn t loc day.1
  · rw [← length_allFiles_ofEntries, allFiles, List.length_flatMap]

/-! Two strips of one day, one of another, a name with an impossible day, and a directory whose name
is a datestamp. -/

def mixedComics : FileTree where
  workingDir := []
  nodes := [(["comics"], .directory), (["comics", "20240103b.png"], .file "b".toUTF8),
    (["comics", "20240101.png"], .file "c".toUTF8), (["comics", "20240103a.png"], .file "a".toUTF8),
    (["comics", "20241399.png"], .file "x".toUTF8), (["comics", "20240105"], .directory)]
  distinct := by decide

/-- The same directory, listed from its last entry to its first. -/
def mixedComicsBackward : FileTree :=
  ⟨[], mixedComics.nodes.reverse, by decide⟩

theorem read_exact_mixed_comics :
    mixedComics.resolve "comics" = .ok (["comics"], .directory) ∧
    ∃ a, read mixedComics "comics" = .ok a ∧ read mixedComicsBackward "comics" = .ok a ∧
      a.allFiles.count "20240103a.png" = 1 ∧ "20241399.png" ∉ a.allFiles ∧
      "20240105" ∉ a.allFiles := by
  have hresolve : mixedComics.resolve "comics" = .ok (["comics"], .directory) := by
    decide +kernel
  obtain ⟨a, hread, horder, honce, hnowhere, -⟩ := read_exact hresolve
  refine ⟨hresolve, a, hread, ?_, ?_, ?_, ?_⟩
  · exact horder mixedComicsBackward rfl (List.reverse_perm _)
  · have hcomic : IsComic mixedComics ["comics"] ⟨2024, 1, 3, by decide⟩ "20240103a.png" :=
      ⟨⟨"a".toUTF8, by decide +kernel⟩, by decide +kernel⟩
    exact (honce _ _ hcomic).1
  · have hdate : dateOfName? "20241399.png" = none := by decide +kernel
    refine hnowhere _ fun date hcomic => ?_
    rw [IsComic, hdate] at hcomic
    cases hcomic.2
  · have hnode : mixedComics.node? (["comics"] ++ ["20240105"]) = some .directory := by
      decide +kernel
    refine hnowhere _ fun date hcomic => ?_
    rw [IsComic, hnode] at hcomic
    obtain ⟨⟨content, hfile⟩, -⟩ := hcomic
    cases hfile

end Archive

end Webcomic
