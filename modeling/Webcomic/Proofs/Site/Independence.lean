import Webcomic.Proofs.Site.Run

/-!
# Pages do not depend on the run they are made in

A run makes all its pages with one set of tags, which remember things from page to page, and writes
files in between. Still each page is the one that is rendered by itself on the tree that the run
leaves behind, with tags of its own and the archive read anew (`Steps.renderFile_eq`).

- A new day or page forgets what could show in it; the links that the front page remembers from the
  last day are right.
- The files that are looked up are neither moved nor written, so they read the same in the end.
- No page is written into the comics directory, so its archive is the same in the end.

`pages_eq_renderFile` says it for every page of a run that succeeds.
-/

namespace Webcomic.Site

open Calendar Files Template Archive

variable {c : Config} {today date date' : Date} {files prepared after : FileTree} {page : Page}
  {report : Report} {edition : Edition} {entries : List (String × Node)} {wd : Location}

/-! ## Daily pages have different files -/

/-- The days of an archive that was read from a directory have four digits for the year. -/
theorem year_of_mem_dates (h : date ∈ ((ofEntries entries).upTo today).dates) :
    0 ≤ date.year ∧ date.year ≤ 9999 := by
  rw [mem_dates_iff, filesOn_upTo] at h
  split at h
  · obtain ⟨name, hname⟩ := List.exists_mem_of_ne_nil _ h
    obtain ⟨-, hdate⟩ := mem_filesOn_ofEntries.mp hname
    obtain ⟨window, -, hstamp⟩ := Option.bind_eq_some_iff.mp hdate
    exact Date.year_of_ofStamp? hstamp
  · exact absurd rfl h

/-- The name of the file of a daily page is a name. -/
theorem isName_dailyFileName (hext : '/' ∉ c.dailyExt.toList)
    (hyear : 0 ≤ date.year ∧ date.year ≤ 9999) : IsName (c.dailyFileName date) := by
  have hdigits := Date.isDigit_of_mem_stamp hyear.1 hyear.2
  have hstamp : date.stamp.toList ≠ [] := by
    intro hnil
    have hread := Date.ofStamp?_stamp hyear.1 hyear.2
    rw [Date.ofStamp?, hnil] at hread
    cases hread
  obtain ⟨d, ds, hcons⟩ := List.exists_cons_of_ne_nil hstamp
  have hlist : (c.dailyFileName date).toList = d :: (ds ++ c.dailyExt.toList) := by
    rw [Config.dailyFileName, String.toList_append, hcons, List.cons_append]
  -- the name begins with a digit, which tells it from a dot and from two
  have hdot : d ≠ '.' := by
    rintro rfl
    exact absurd (hdigits '.' (hcons ▸ List.mem_cons_self)) (by decide)
  have hne : ∀ name : String, (∀ rest, name.toList ≠ d :: rest) → c.dailyFileName date ≠ name := by
    rintro name hname rfl
    exact hname _ hlist
  refine ⟨hne _ ?_, ?_, hne _ ?_, hne _ ?_⟩
  · simp
  · rw [Config.dailyFileName, String.toList_append, List.mem_append, not_or]
    exact ⟨fun hslash => absurd (hdigits '/' hslash) (by decide), hext⟩
  · intro rest heq
    exact hdot (List.cons.inj heq).1.symm
  · intro rest heq
    exact hdot (List.cons.inj heq).1.symm

/-- The names of the files of daily pages tell the days apart. -/
theorem dailyFileName_inj (hyear : 0 ≤ date.year ∧ date.year ≤ 9999)
    (hyear' : 0 ≤ date'.year ∧ date'.year ≤ 9999)
    (h : c.dailyFileName date = c.dailyFileName date') : date = date' := by
  refine Date.stamp_inj hyear hyear' (String.toList_inj.mp ?_)
  have hlist := congrArg String.toList h
  rw [Config.dailyFileName, Config.dailyFileName, String.toList_append, String.toList_append]
    at hlist
  exact List.append_cancel_right hlist

/-- **Different days have different pages.** -/
theorem locate_dailyPath_inj (hext : '/' ∉ c.dailyExt.toList)
    (hyear : 0 ≤ date.year ∧ date.year ≤ 9999) (hyear' : 0 ≤ date'.year ∧ date'.year ≤ 9999)
    (h : (c.dailyPath date).locate wd = (c.dailyPath date').locate wd) : date = date' := by
  rw [Config.dailyPath, Config.dailyPath, Path.locate_join (isName_dailyFileName hext hyear),
    Path.locate_join (isName_dailyFileName hext hyear')] at h
  exact dailyFileName_inj hyear hyear' (List.singleton_inj.mp (List.append_cancel_left h))

theorem date_mem_of_mem_progressOf {dates : List Date} {p : Progress} (h : p ∈ progressOf dates) :
    p.date ∈ dates := by
  obtain ⟨n, hn, rfl⟩ := List.mem_mapIdx.mp h
  exact List.getElem_mem hn

/-! ## A page by itself -/

/-- The files that pages look up are neither moved nor written by the run. -/
def LooksUpUntouched (c : Config) (today : Date) (files : FileTree) : Prop :=
  ∀ page ∈ pages c today files, ∀ path, page.rendering.LooksUp c path →
    path.Avoids files.workingDir fun loc => Moved c today files loc ∨ Written c today files loc

/-- No page is written into the comics directory. -/
def ComicsApart (c : Config) (today : Date) (files : FileTree) : Prop :=
  ∀ page ∈ pages c today files,
    page.location.dropLast ≠ (c.directory .comics).locate files.workingDir

theorem looksUpUntouched_of_lookedUp (steps : Nat)
    (h : ∀ page ∈ pages c today files, ∃ paths ∈ page.rendering.lookedUp c steps,
      ∀ path ∈ paths,
        path.Avoids files.workingDir fun loc =>
          Moved c today files loc ∨ Written c today files loc) :
    LooksUpUntouched c today files := by
  intro page hpage path hpath
  obtain ⟨paths, hpaths, havoids⟩ := h page hpage
  exact havoids path (hpath.mem_lookedUp hpaths)

instance : Decidable (ComicsApart c today files) := by
  unfold ComicsApart; infer_instance

namespace Steps

variable {tags : PageTags Memory} {written : FileTree} {front : Bool}
  (h : Steps c today files edition prepared tags written front after)
include h

/-- The comics directory is still as it was when the run was prepared. -/
theorem liveArchive_eq (hcomics : ComicsApart c today files) :
    liveArchive c after today = .ok edition.archive := by
  rw [← h.isPrepared.archive]
  refine liveArchive_congr h.filled.keeps h.isPrepared.comics fun name _ _ _ => ?_
  rw [h.filled.agreeOff.node]
  rintro ⟨page, hpage, hloc⟩
  have hdir := congrArg List.dropLast hloc
  rw [List.dropLast_concat] at hdir
  exact hcomics page hpage hdir.symm

/-- **A page of a run is the page that is rendered by itself in the end.** -/
theorem renderFile_eq (hlooks : LooksUpUntouched c today files)
    (hcomics : ComicsApart c today files) (hpage : page ∈ pages c today files)
    (hfile : page.rendering.files.isFile page.rendering.template = true)
    (htoday : page.rendering.today = today) {date? : Option Date}
    (hday : page.rendering.date =
      (date?.or (edition.archive.last?.map Prod.fst)).getD today) :
    renderFile c after page.rendering.template date? today .echo =
      .ok (page.rendering.text c) := by
  have hmade := h.made hpage
  -- the page was made in a tree that has since changed only where pages are written
  have hwd : page.rendering.files.workingDir = files.workingDir :=
    hmade.before.workingDir.trans h.isPrepared.keeps.workingDir
  have havoids : ∀ path, page.rendering.LooksUp c path →
      path.Avoids page.rendering.files.workingDir (Written c today files) := by
    rw [hwd]
    exact fun path hpath loc hloc hwritten => hlooks page hpage path hpath loc hloc (.inr hwritten)
  have hisFile : after.isFile page.rendering.template = true := by
    rw [hmade.later.agreeOff.isFile (havoids _ (page.rendering.looksUp_template c)), hfile]
  -- what is looked up there is found under its own path, not in the templates directory
  have hpath : templatePath c after page.rendering.template = page.rendering.template := by
    rw [templatePath, hisFile]
    simp
  rw [Webcomic.Site.renderFile_eq, hpath, if_pos hisFile, h.liveArchive_eq hcomics]
  obtain ⟨hserves, hused⟩ := Rendering.serves_alone c edition.archive .echo after
    page.rendering.template today ((date?.or (edition.archive.last?.map Prod.fst)).getD today)
  exact congrArg Except.ok (Rendering.text_eq_of_agreeOff hmade.serves hserves
    (hmade.unused.trans hused.symm) rfl htoday.symm hday.symm hmade.later.agreeOff havoids)

/-- A page that stands in the end is what its file reads. -/
theorem read_eq (hpage : page ∈ pages c today files)
    (hstands : after.node? page.location = some (.file (page.content c))) :
    after.read page.target = .ok (page.content c) := by
  obtain ⟨mid, hwrite, hkeeps⟩ := (h.made hpage).written
  exact FileTree.read_of_write hwrite hkeeps hstands

/-- The template of the daily pages is a file when a page is made. -/
theorem isFile_dailyTemplate (hlooks : LooksUpUntouched c today files)
    (hpage : page ∈ pages c today files) (hdaily : page.IsDaily c today date) :
    page.rendering.files.isFile page.rendering.template = true := by
  have hpath := hlooks page hpage _ (page.rendering.looksUp_template c)
  have hwritten : page.rendering.template.Avoids files.workingDir (Written c today files) :=
    fun loc hloc hwritten => hpath loc hloc (.inr hwritten)
  rw [(h.made hpage).before.agreeOff.isFile (h.isPrepared.keeps.workingDir ▸ hwritten)]
  refine h.isPrepared.isFile (fun loc hloc hmoved => hpath loc hloc (.inl hmoved)) ?_
  rw [hdaily.template]
  exact h.isPrepared.template

/-- A published day has a page, which stands in the end if neither another day nor the front page
has its file. -/
theorem exists_page (hext : '/' ∉ c.dailyExt.toList) (hdate : date ∈ edition.archive.dates)
    (hfront : front = true →
      c.indexPath.locate files.workingDir ≠ (c.dailyPath date).locate files.workingDir) :
    ∃ page ∈ pages c today files, page.IsDaily c today date ∧
      after.node? page.location = some (.file (page.content c)) := by
  have hyear : ∀ date ∈ edition.archive.dates, 0 ≤ date.year ∧ date.year ≤ 9999 := by
    rw [h.isPrepared.archive_eq]
    exact fun date => year_of_mem_dates
  obtain ⟨page, hpage, hdaily, hnode⟩ :=
    exists_dailyPage (serves_ofArchive edition.archive c .echo) h.dailies hdate
  refine ⟨page, h.mem_pages_iff.mpr (.inl hpage), hdaily, ?_⟩
  rw [h.location_dailyPage hpage hdaily, h.filled_front.agreeOff.node]
  · rw [h.isPrepared.keeps.workingDir] at hnode
    refine hnode (edition.archive.nodup_dates.imp_of_mem ?_)
    -- different days have files of different names, so that no page replaces another
    intro d d' hd hd' hne heq
    exact hne (locate_dailyPath_inj hext (hyear d hd) (hyear d' hd') heq)
  · rintro ⟨htrue, hloc⟩
    exact hfront htrue hloc.symm

end Steps

/-- **Pages do not depend on the run they are made in.** If no file that is looked up is moved or
written and no page goes into the comics directory, each page of a run that succeeds is in the end
what its template gives by itself on the tree then, for its day, and the front page what its
template gives for no day in particular. The front page must not be a daily page as well. -/
theorem pages_eq_renderFile {progress : List Progress} (hext : '/' ∉ c.dailyExt.toList)
    (h : (publishWithProgress c today).perform files = (.ok (report, progress), after))
    (hlooks : LooksUpUntouched c today files) (hcomics : ComicsApart c today files)
    (hfront : report.indexWritten = true → ∀ p ∈ progress,
      c.indexPath.locate files.workingDir ≠ (c.dailyPath p.date).locate files.workingDir) :
    (∀ p ∈ progress, ∃ text,
      renderFile c after c.dailyTemplatePath (some p.date) today .echo = .ok text ∧
        after.read (c.dailyPath p.date) = .ok text.toUTF8) ∧
    (report.indexWritten = true → ∃ text,
      renderFile c after c.indexTemplatePath none today .echo = .ok text ∧
        after.read c.indexPath = .ok text.toUTF8) := by
  obtain ⟨edition, prepared, tags, written, hsteps, -, rfl⟩ := steps_of_publish h
  constructor
  · intro p hp
    obtain ⟨page, hpage, hdaily, hstands⟩ := hsteps.exists_page hext (date_mem_of_mem_progressOf hp)
      fun hwritten => hfront hwritten p hp
    refine ⟨page.rendering.text c, ?_, ?_⟩
    · rw [← hdaily.template]
      exact hsteps.renderFile_eq hlooks hcomics hpage
        (hsteps.isFile_dailyTemplate hlooks hpage hdaily) hdaily.asOf hdaily.day
    · rw [← hdaily.target]
      exact hsteps.read_eq hpage hstands
  · intro hwritten
    rcases writeIndex_eq_ok hsteps.index with ⟨hfalse, -⟩ | ⟨-, hfile, hwrite⟩
    · rw [hwritten] at hfalse
      cases hfalse
    have hpage := hsteps.frontPage_mem hwritten
    have hstands : after.node? (frontPage c today tags written edition.latest).location =
        some (.file ((frontPage c today tags written edition.latest).content c)) :=
      FileTree.node?_of_write hwrite
    obtain ⟨names, hlatest⟩ := edition.exists_last?
    refine ⟨(frontPage c today tags written edition.latest).rendering.text c, ?_, ?_⟩
    · exact hsteps.renderFile_eq hlooks hcomics hpage hfile rfl (by rw [hlatest]; rfl)
    · have hread := hsteps.read_eq hpage hstands
      rwa [target_frontPage] at hread

/-! A comic is live and another one staged, and the front page links to the day before. -/

/-- A site with an upload directory of its own. -/
def stagedSite : Config := { uploadDir := "up/" }

def firstDay : Date := ⟨2024, 1, 1, by decide⟩

def secondDay : Date := ⟨2024, 1, 2, by decide⟩

def twoComics : FileTree where
  workingDir := []
  nodes :=
    [(["pages"], .directory),
      (["pages", "dailytemplate.html"], .file "***comic*** ***nav_prev***".toUTF8),
      (["pages", "index.html"], .file "***nav_prev***".toUTF8),
      (["comics"], .directory),
      (["comics", "20240101.png"], .file "a".toUTF8),
      (["up"], .directory),
      (["up", "20240102.png"], .file "b".toUTF8)]
  distinct := by decide

/-- The two pages and the front page of `twoComics`. -/
theorem pages_eq_renderFile_two_comics :
    ∃ after, '/' ∉ stagedSite.dailyExt.toList ∧
      (publishWithProgress stagedSite secondDay).perform twoComics =
        (.ok (⟨1, 2, true, some secondDay⟩, [⟨firstDay, 1, 2⟩, ⟨secondDay, 2, 2⟩]), after) ∧
      LooksUpUntouched stagedSite secondDay twoComics ∧
      ComicsApart stagedSite secondDay twoComics ∧
      (∀ p ∈ [⟨firstDay, 1, 2⟩, (⟨secondDay, 2, 2⟩ : Progress)],
        stagedSite.indexPath.locate [] ≠ (stagedSite.dailyPath p.date).locate []) ∧
      (∀ p ∈ [⟨firstDay, 1, 2⟩, (⟨secondDay, 2, 2⟩ : Progress)], ∃ text,
        renderFile stagedSite after stagedSite.dailyTemplatePath (some p.date) secondDay .echo =
          .ok text ∧ after.read (stagedSite.dailyPath p.date) = .ok text.toUTF8) ∧
      ∃ text, renderFile stagedSite after stagedSite.indexTemplatePath none secondDay .echo =
        .ok text ∧ after.read stagedSite.indexPath = .ok text.toUTF8 := by
  obtain ⟨after, hrun⟩ : ∃ after, (publishWithProgress stagedSite secondDay).perform twoComics =
      (.ok (⟨1, 2, true, some secondDay⟩, [⟨firstDay, 1, 2⟩, ⟨secondDay, 2, 2⟩]), after) :=
    Change.exists_outcome (by decide +kernel)
  have hext : '/' ∉ stagedSite.dailyExt.toList := by decide
  have hlooks : LooksUpUntouched stagedSite secondDay twoComics :=
    looksUpUntouched_of_lookedUp 50 (by decide +kernel)
  have hcomics : ComicsApart stagedSite secondDay twoComics := by decide +kernel
  have hfront : ∀ p ∈ [⟨firstDay, 1, 2⟩, (⟨secondDay, 2, 2⟩ : Progress)],
      stagedSite.indexPath.locate [] ≠ (stagedSite.dailyPath p.date).locate [] := by
    decide +kernel
  obtain ⟨hdaily, hindex⟩ := pages_eq_renderFile hext hrun hlooks hcomics fun _ => hfront
  exact ⟨after, hext, hrun, hlooks, hcomics, hfront, hdaily, hindex rfl⟩

end Webcomic.Site
