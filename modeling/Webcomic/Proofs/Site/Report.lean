import Webcomic.Proofs.Site.History
import Webcomic.Proofs.Site.Navigation

/-!
# What the report of a run says

A run that succeeds has done what its report says (`publish_report`). It has published the days of
the live comics, as the comics directory is when the comics that are due have been moved, and a page
for each of them is there in the end.

- `promoted`: the tree at that point. `Live` are the days with a comic in it, and `departed` the
  files that it has no more in the upload directory.
- `dailiesWritten`: the tree when the last daily page has been written. Whether there is a front
  page is decided by it.

The number of moved files is that of the files that are due. These are the departed ones unless the
upload directory is the comics directory and this does not show yet, because the way to it is only
made by the run: then each file that is due is moved to where it is, and counted.
-/

namespace Webcomic.Site

open Calendar Files Template Archive

variable {c : Config} {today date latest : Date} {files mid after : FileTree} {name : String}
  {tags tags' : PageTags Memory} {archive : Archive} {dates : List Date} {edition : Edition}

/-! ## When the comics have been moved -/

/-- The tree when the comics that are due have been moved. -/
def promoted (c : Config) (today : Date) (files : FileTree) : FileTree :=
  ((promote (c.directory .upload) (c.directory .comics) today).perform files).2

/-- A day that is not later than today and that a plain file of the comics directory is dated with,
when the comics that are due have been moved. -/
def Live (c : Config) (today : Date) (files : FileTree) (date : Date) : Prop :=
  date ≤ today ∧ ∃ entries, (promoted c today files).list (c.directory .comics) = .ok entries ∧
    ∃ name, dateOfName? name = some date ∧ ∃ content, (name, .file content) ∈ entries

/-- The plain files of the upload directory that are gone from it when the comics that are due have
been moved. -/
def departed (c : Config) (today : Date) (files : FileTree) : List String :=
  ((files.entries ((c.directory .upload).locate files.workingDir)).filter fun (name, node) =>
    node.isFile && ((promoted c today files).node?
      ((c.directory .upload).locate files.workingDir ++ [name])).isNone).map Prod.fst

theorem mem_departed :
    name ∈ departed c today files ↔
      (∃ content, files.node? ((c.directory .upload).locate files.workingDir ++ [name]) =
        some (.file content)) ∧
      (promoted c today files).node? ((c.directory .upload).locate files.workingDir ++ [name]) =
        none := by
  rw [departed, List.mem_map]
  constructor
  · rintro ⟨⟨name, node⟩, hmem, rfl⟩
    obtain ⟨hentry, hgone⟩ := List.mem_filter.mp hmem
    rw [Bool.and_eq_true, Option.isNone_iff_eq_none] at hgone
    cases node with
    | file content => exact ⟨⟨content, FileTree.mem_entries.mp hentry⟩, hgone.2⟩
    | directory => cases hgone.1
  · rintro ⟨⟨content, hnode⟩, hgone⟩
    refine ⟨(name, .file content), List.mem_filter.mpr ⟨FileTree.mem_entries.mpr hnode, ?_⟩, rfl⟩
    rw [Bool.and_eq_true, Option.isNone_iff_eq_none]
    exact ⟨rfl, hgone⟩

theorem nodup_departed (c : Config) (today : Date) (files : FileTree) :
    (departed c today files).Nodup :=
  (files.nodup_entries _).sublist (List.filter_sublist.map _)

/-- The files that have left are the ones that were due, if there is somewhere else to go. -/
theorem Promoted.mem_departed_iff {n : Nat}
    (h : Promoted c today files (promoted c today files) n) (hnamed : files.Named) :
    name ∈ departed c today files ↔
      (c.directory .upload).locate files.workingDir ≠
          (c.directory .comics).locate files.workingDir ∧ name ∈ staged c today files := by
  have hnames : ∀ name ∈ staged c today files, IsName name :=
    fun _ hname => isName_of_mem_staged hnamed hname
  rw [mem_departed]
  constructor
  · rintro ⟨⟨content, hnode⟩, hgone⟩
    obtain ⟨made, hgrown, -, hmoves⟩ := h.exists_made
    by_cases hmoved : Moved c today files ((c.directory .upload).locate files.workingDir ++ [name])
    · exact ⟨hmoved.1, (moved_upload_iff hnames hmoved.1).mp hmoved⟩
    · -- what is not moved has not left
      rw [hmoves.node _ hmoved, hgrown.file_iff.mpr hnode] at hgone
      cases hgone
  · rintro ⟨hne, hname⟩
    exact ⟨(mem_staged.mp hname).1, (h.relocated hnames hne name hname).2⟩

/-- **The count of moved files is right unless files are moved to where they are.** -/
theorem Promoted.count_eq_iff {n : Nat} (h : Promoted c today files (promoted c today files) n)
    (hnamed : files.Named) :
    n = (departed c today files).length ↔
      ((c.directory .upload).locate files.workingDir =
          (c.directory .comics).locate files.workingDir →
        files.same (c.directory .upload) (c.directory .comics) = true ∨
          staged c today files = []) := by
  rw [h.count]
  by_cases heq : (c.directory .upload).locate files.workingDir =
      (c.directory .comics).locate files.workingDir
  · have hnone : departed c today files = [] :=
      List.eq_nil_iff_forall_not_mem.mpr fun name hname =>
        ((h.mem_departed_iff hnamed).mp hname).1 heq
    rw [hnone]
    cases files.same (c.directory .upload) (c.directory .comics) <;> simp [heq]
  · -- different directories: what is due has left, and nothing else has
    have hperm : (departed c today files).Perm (staged c today files) := by
      rw [List.perm_ext_iff_of_nodup (nodup_departed c today files) (nodup_staged c today files)]
      intro name
      rw [h.mem_departed_iff hnamed]
      exact and_iff_right heq
    have hdiffer : ¬ files.same (c.directory .upload) (c.directory .comics) = true :=
      fun hsame => heq (FileTree.locate_eq_of_same hsame)
    rw [if_neg hdiffer, hperm.length_eq]
    simp [heq]

theorem promoted_eq {n : Nat}
    (h : (promote (c.directory .upload) (c.directory .comics) today).perform files = (.ok n, mid)) :
    promoted c today files = mid :=
  congrArg Prod.snd h

/-- **The days that are published are the live ones.** -/
theorem mem_dates_iff_live (h : (prepare c today).perform files = (.ok edition, after)) :
    date ∈ edition.archive.dates ↔ Live c today files date := by
  cases prepare_outcome h with
  | @prepared mid _ dir _ _ hpromote hresolve harchive _ =>
    rw [harchive, mem_dates_upTo_ofEntries, Live, promoted_eq hpromote,
      FileTree.list_of_resolve hresolve]
    refine and_congr_right fun _ => ⟨fun hfile => ⟨_, rfl, hfile⟩, ?_⟩
    rintro ⟨entries, hentries, hfile⟩
    rwa [Except.ok.inj hentries]

/-! ## When the daily pages have been written -/

/-- The tree when the last daily page has been written. -/
def dailiesWritten (c : Config) (today : Date) (files : FileTree) : FileTree :=
  match (prepare c today).perform files with
  | (.error _, after) => after
  | (.ok edition, prepared) =>
    ((writeDailies c today (firstTags c edition.archive) edition.archive.dates).perform prepared).2

theorem Steps.dailiesWritten_eq {prepared written : FileTree} {front : Bool}
    (h : Steps c today files edition prepared tags written front after) :
    dailiesWritten c today files = written := by
  unfold dailiesWritten
  rewrite [h.prepare]
  exact congrArg Prod.snd h.dailies

/-- Each page that has been written is a file. -/
theorem isFile_of_writeDailies (hserves : Serves archive c .echo tags)
    (h : (writeDailies c today tags dates).perform files = (.ok tags', after)) :
    ∀ date ∈ dates, after.isFile (c.dailyPath date) = true := by
  induction dates generalizing tags files with
  | nil => exact fun date hdate => absurd hdate List.not_mem_nil
  | cons first dates ih =>
    obtain ⟨mid, hwrite, hrest⟩ := writeDailies_cons_eq_ok h
    have hserves' := serves_dailyPage hserves today files first
    intro date hdate
    rcases List.mem_cons.mp hdate with rfl | hdate
    · exact (filled_of_writeDailies hserves' hrest).2.isFile (FileTree.isFile_of_write hwrite)
    · exact ih hserves' hrest date hdate

/-- Whether there is a front page is decided by its template. -/
theorem eq_isFile_of_writeIndex {front : Bool}
    (h : (writeIndex c today tags latest).perform files = (.ok front, after)) :
    front = files.isFile c.indexTemplatePath := by
  rcases writeIndex_eq_ok h with ⟨hfront, hfile, -⟩ | ⟨hfront, hfile, -⟩
  · rw [hfront, hfile]
  · rw [hfront, hfile]

/-- A front page that has been written is a file. -/
theorem isFile_of_writeIndex
    (h : (writeIndex c today tags latest).perform files = (.ok true, after)) :
    after.isFile c.indexPath = true := by
  rcases writeIndex_eq_ok h with ⟨hfalse, -⟩ | ⟨-, -, hwrite⟩
  · cases hfalse
  · exact FileTree.isFile_of_write hwrite

/-! ## The report -/

/-- The pages of different days have different names. -/
theorem nodup_dailyFileNames {entries : List (String × Node)}
    (h : archive = (ofEntries entries).upTo today) :
    (archive.dates.map c.dailyFileName).Nodup := by
  subst h
  refine List.Nodup.map_on (fun date hdate date' hdate' => ?_) (nodup_dates _)
  exact dailyFileName_inj (year_of_mem_dates hdate) (year_of_mem_dates hdate')

/-- What is moved by a run that succeeds. -/
theorem promoted_of_prepare (h : (prepare c today).perform files = (.ok edition, after)) :
    Promoted c today files (promoted c today files) edition.filesMoved := by
  cases prepare_outcome h with
  | prepared _ hpromote _ _ _ => exact promoted_eq hpromote ▸ promoted_of_promote hpromote

theorem perform_publish (c : Config) (today : Date) (files : FileTree) :
    (publish c today).perform files =
      (((publishWithProgress c today).perform files).1.map Prod.fst,
        ((publishWithProgress c today).perform files).2) := by
  rw [publish, Change.perform_bind]
  rcases (publishWithProgress c today).perform files with ⟨_ | _, _⟩ <;> rfl

theorem getElem?_progressOf {k : Nat} {p : Progress} (h : (progressOf dates)[k]? = some p) :
    p.position = k + 1 ∧ p.count = dates.length := by
  rw [progressOf, List.getElem?_mapIdx] at h
  obtain ⟨date, -, rfl⟩ := Option.map_eq_some_iff.mp h
  exact ⟨rfl, rfl⟩

/-- **What a run that succeeds has done.** It has published the live days, of which there is at
least one, in ascending order, and told of each of them in turn, with its position and their number.
Their number is that of the pages, and the last of them the latest day. The pages have different
names and are files in the end. There is a front page exactly if its template was a file when the
last daily page had been written. Without listening for the progress, the report and the files are
the same.

The number of moved files is that of the files that have left the upload directory, unless the
upload directory is the comics directory, is not seen to be so and has a file that is due. -/
theorem publish_report {report : Report} {progress : List Progress} (hnamed : files.Named)
    (h : (publishWithProgress c today).perform files = (.ok (report, progress), after)) :
    let dates := progress.map (·.date)
    (report.filesMoved = (departed c today files).length ↔
      ((c.directory .upload).locate files.workingDir =
          (c.directory .comics).locate files.workingDir →
        files.same (c.directory .upload) (c.directory .comics) = true ∨
          staged c today files = [])) ∧
    ((∀ date, date ∈ dates ↔ Live c today files date) ∧ dates ≠ [] ∧ dates.Pairwise (· < ·)) ∧
    report.pagesWritten = dates.length ∧
    (∀ k p, progress[k]? = some p → p.position = k + 1 ∧ p.count = dates.length) ∧
    (∃ latest ∈ dates, report.latest = some latest ∧ ∀ date ∈ dates, date ≤ latest) ∧
    (dates.map c.dailyFileName).Nodup ∧
    (∀ date ∈ dates, after.isFile ((c.directory .daily).join (c.dailyFileName date)) = true) ∧
    report.indexWritten = (dailiesWritten c today files).isFile c.indexTemplatePath ∧
    (report.indexWritten = true → after.isFile c.indexPath = true) ∧
    (publish c today).perform files = (.ok report, after) := by
  obtain ⟨edition, prepared, tags, written, hsteps, hreport, rfl⟩ := steps_of_publish h
  obtain ⟨names, hlatest⟩ := edition.exists_last?
  obtain ⟨hlast, hgreatest⟩ := greatest_of_last? hlatest
  rw [map_date_progressOf]
  refine ⟨?_, ⟨fun date => mem_dates_iff_live hsteps.prepare, List.ne_nil_of_mem hlast,
    edition.archive.pairwise_dates⟩, ?_, fun k p => getElem?_progressOf,
    ⟨edition.latest, hlast, ?_, hgreatest⟩, nodup_dailyFileNames hsteps.isPrepared.archive_eq, ?_,
    ?_, ?_, ?_⟩
  · rw [hreport]
    exact (promoted_of_prepare hsteps.prepare).count_eq_iff hnamed
  · rw [hreport]
  · rw [hreport]
  · intro date hdate
    -- what has been written as a page stays a file to the end of the run
    have hserves := serves_ofArchive edition.archive c .echo
    exact hsteps.filled_front.isFile (isFile_of_writeDailies hserves hsteps.dailies date hdate)
  · rw [hsteps.dailiesWritten_eq]
    exact eq_isFile_of_writeIndex hsteps.index
  · intro hfront
    exact isFile_of_writeIndex (hfront ▸ hsteps.index)
  · rw [perform_publish, h]
    rfl

/-- The first day of `twoStaged`, where the comics are published where they are uploaded: one file
is counted, and none has left. -/
theorem publish_report_two_staged :
    ∃ after, twoStaged.Named ∧
      (publishWithProgress detourSite firstDay).perform twoStaged =
        (.ok (⟨1, 1, false, some firstDay⟩, [⟨firstDay, 1, 1⟩]), after) ∧
      departed detourSite firstDay twoStaged = [] ∧
      staged detourSite firstDay twoStaged = ["20240101.png"] ∧
      (∀ date, date = firstDay ↔ Live detourSite firstDay twoStaged date) ∧
      after.isFile "./public_html/d/20240101.html" = true := by
  have hnamed : twoStaged.Named := by decide +kernel
  obtain ⟨after, hrun⟩ : ∃ after, (publishWithProgress detourSite firstDay).perform twoStaged =
      (.ok (⟨1, 1, false, some firstDay⟩, [⟨firstDay, 1, 1⟩]), after) :=
    Change.exists_outcome (by decide +kernel)
  obtain ⟨-, ⟨hlive, -, -⟩, -, -, -, -, hpages, -, -, -⟩ := publish_report hnamed hrun
  refine ⟨after, hnamed, hrun, by decide +kernel, by decide +kernel, fun date => ?_, ?_⟩
  · rw [← hlive date]
    simp
  · exact hpages firstDay List.mem_cons_self

end Webcomic.Site
