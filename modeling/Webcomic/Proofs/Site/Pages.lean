import Webcomic.Proofs.Files.Change
import Webcomic.Proofs.Site.Preparation
import Webcomic.Proofs.Site.Rendering
import Webcomic.Site.Publish

/-!
# The pages of a run

A run makes its pages one after the other, each from the tree and with the tags that the pages
before it have left. `pages` lists them as they are made, up to the first that cannot be written.

- `Page.Made`: what holds of each page of a run that succeeds. Its tags serve the archive, its tree
  differs from those before and after it by pages only, and it is written.
- `BothServe`: on trees that agree on what a page looks up, tags that serve the same archive give
  the same page (`content_dailyPage_eq`, `content_frontPage_eq`).
-/

namespace Webcomic.Site

open Calendar Files Template

/-- A page that a run makes, and the file that it is written to. -/
structure Page where
  rendering : Rendering
  target : Path

/-- The location that a page is written to. -/
def Page.location (page : Page) : Location :=
  page.target.locate page.rendering.files.workingDir

/-- The bytes that are written. -/
def Page.content (c : Config) (page : Page) : ByteArray :=
  (page.rendering.text c).toUTF8

/-- The page can be written. -/
def Page.isWritten (c : Config) (page : Page) : Bool :=
  (page.rendering.files.write page.target (page.content c)).isOk

variable {c : Config} {today date latest : Date} {tags tags' : PageTags Memory}
  {files mid after : FileTree} {dates : List Date} {page : Page} {archive : Archive}

/-! ## The pages, as they are made -/

/-- The daily page of a day. -/
def dailyPage (c : Config) (today : Date) (tags : PageTags Memory) (files : FileTree)
    (date : Date) : Page :=
  ⟨⟨tags.resetForDay, files, c.dailyTemplatePath, today, date⟩, c.dailyPath date⟩

/-- The daily pages of some days. -/
def dailyPages (c : Config) (today : Date) : PageTags Memory → FileTree → List Date → List Page
  | _, _, [] => []
  | tags, files, date :: dates =>
    dailyPage c today tags files date ::
      match files.write (c.dailyPath date) ((dailyPage c today tags files date).content c) with
      | .error _ => []
      | .ok mid =>
        dailyPages c today ((dailyPage c today tags files date).rendering.tagsAfter c) mid dates

/-- The front page for a day. -/
def frontPage (c : Config) (today : Date) (tags : PageTags Memory) (files : FileTree)
    (latest : Date) : Page :=
  ⟨⟨tags.resetForPage, files, c.indexTemplatePath, today, latest⟩, c.indexPath⟩

theorem target_frontPage (c : Config) (today : Date) (tags : PageTags Memory) (files : FileTree)
    (latest : Date) : (frontPage c today tags files latest).target = c.indexPath := rfl

/-- The front page, if there is a template for it. -/
def frontPage? (c : Config) (today : Date) (tags : PageTags Memory) (files : FileTree)
    (latest : Date) : Option Page :=
  if files.isFile c.indexTemplatePath then some (frontPage c today tags files latest) else none

/-- The tags that a run starts with. -/
def firstTags (c : Config) (archive : Archive) : PageTags Memory :=
  PageTags.ofArchive Memory.whole .blank archive c .echo

/-- Writes the daily pages of some days, in order. -/
def writeDailies (c : Config) (today : Date) (tags : PageTags Memory) (dates : List Date) :
    Change (PageTags Memory) :=
  dates.foldlM (writeDaily c today) tags

/-- The pages that are made once a run is prepared. -/
def editionPages (c : Config) (today : Date) (edition : Edition) (files : FileTree) : List Page :=
  dailyPages c today (firstTags c edition.archive) files edition.archive.dates ++
    match
      (writeDailies c today (firstTags c edition.archive) edition.archive.dates).perform files with
    | (.error _, _) => []
    | (.ok tags, files) => (frontPage? c today tags files edition.latest).toList

/-- The pages of a run. -/
def pages (c : Config) (today : Date) (files : FileTree) : List Page :=
  match (prepare c today).perform files with
  | (.error _, _) => []
  | (.ok edition, files) => editionPages c today edition files

/-! ## One page after the other -/

theorem perform_writeDaily (c : Config) (today : Date) (tags : PageTags Memory) (date : Date)
    (files : FileTree) :
    (writeDaily c today tags date).perform files =
      match files.write (c.dailyPath date) ((dailyPage c today tags files date).content c) with
      | .ok after => (.ok ((dailyPage c today tags files date).rendering.tagsAfter c), after)
      | .error fault => (.error (.files fault), files) := by
  rw [writeDaily, Change.perform_bind, Change.perform_get]
  dsimp only
  rw [Change.perform_bind, Change.perform_write]
  have hcontent : (dailyPage c today tags files date).content c =
      (tags.resetForDay.page c files c.dailyTemplatePath today date).1.toUTF8 := rfl
  rw [hcontent]
  cases files.write (c.dailyPath date)
    (tags.resetForDay.page c files c.dailyTemplatePath today date).1.toUTF8 <;> rfl

theorem writeDaily_eq_ok (h : (writeDaily c today tags date).perform files = (.ok tags', after)) :
    files.write (c.dailyPath date) ((dailyPage c today tags files date).content c) = .ok after ∧
      tags' = (dailyPage c today tags files date).rendering.tagsAfter c := by
  rw [perform_writeDaily] at h
  split at h
  next hwrite =>
    obtain ⟨htags, rfl⟩ := Prod.mk.inj h
    exact ⟨hwrite, (Except.ok.inj htags).symm⟩
  · exact absurd (congrArg Prod.fst h) nofun

/-- Daily pages that are written: the first of them, and then the others. -/
theorem writeDailies_cons_eq_ok
    (h : (writeDailies c today tags (date :: dates)).perform files = (.ok tags', after)) :
    ∃ mid, files.write (c.dailyPath date) ((dailyPage c today tags files date).content c) =
        .ok mid ∧
      (writeDailies c today ((dailyPage c today tags files date).rendering.tagsAfter c)
        dates).perform mid = (.ok tags', after) := by
  rw [writeDailies, List.foldlM_cons] at h
  obtain ⟨tags₁, mid, hfirst, hrest⟩ := Change.bind_eq_ok.mp h
  obtain ⟨hwrite, rfl⟩ := writeDaily_eq_ok hfirst
  exact ⟨mid, hwrite, hrest⟩

/-- The next page is made with the tags that a page leaves, on the tree that it was written to. -/
theorem dailyPages_cons
    (h : files.write (c.dailyPath date) ((dailyPage c today tags files date).content c) = .ok mid) :
    dailyPages c today tags files (date :: dates) =
      dailyPage c today tags files date :: dailyPages c today
        ((dailyPage c today tags files date).rendering.tagsAfter c) mid dates := by
  conv => lhs; unfold dailyPages
  rewrite [h]
  rfl

/-- A page that cannot be written is the last. -/
theorem dailyPages_cons_of_error {fault : Fault}
    (h : files.write (c.dailyPath date) ((dailyPage c today tags files date).content c) =
      .error fault) :
    dailyPages c today tags files (date :: dates) = [dailyPage c today tags files date] := by
  conv => lhs; unfold dailyPages
  rewrite [h]
  rfl

/-- Whether a page is written is whether the write succeeds. -/
theorem isWritten_dailyPage {outcome : Except Fault FileTree}
    (h : files.write (c.dailyPath date) ((dailyPage c today tags files date).content c) =
      outcome) : (dailyPage c today tags files date).isWritten c = outcome.isOk := by
  show (files.write (c.dailyPath date) ((dailyPage c today tags files date).content c)).isOk = _
  rw [h]

/-- All pages are written in a run that succeeds. -/
theorem countP_dailyPages
    (h : (writeDailies c today tags dates).perform files = (.ok tags', after)) :
    (dailyPages c today tags files dates).countP (Page.isWritten c) = dates.length := by
  induction dates generalizing tags files with
  | nil => rfl
  | cons date dates ih =>
    obtain ⟨mid, hwrite, hrest⟩ := writeDailies_cons_eq_ok h
    rw [dailyPages_cons hwrite, List.countP_cons, ih hrest, isWritten_dailyPage hwrite]
    rfl

theorem perform_writeIndex (c : Config) (today : Date) (tags : PageTags Memory) (latest : Date)
    (files : FileTree) :
    (writeIndex c today tags latest).perform files =
      if files.isFile c.indexTemplatePath then
        match files.write c.indexPath ((frontPage c today tags files latest).content c) with
        | .ok after => (.ok true, after)
        | .error fault => (.error (.files fault), files)
      else (.ok false, files) := by
  rw [writeIndex, Change.perform_bind, Change.perform_get]
  dsimp only
  split
  · rw [Change.perform_bind, Change.perform_write]
    have hcontent : (frontPage c today tags files latest).content c =
        (tags.resetForPage.page c files c.indexTemplatePath today latest).1.toUTF8 := rfl
    rw [hcontent]
    cases files.write c.indexPath
      (tags.resetForPage.page c files c.indexTemplatePath today latest).1.toUTF8 <;> rfl
  · rfl

/-- The front page is written if there is a template for it. -/
theorem writeIndex_eq_ok {front : Bool}
    (h : (writeIndex c today tags latest).perform files = (.ok front, after)) :
    (front = false ∧ files.isFile c.indexTemplatePath = false ∧ after = files) ∨
      (front = true ∧ files.isFile c.indexTemplatePath = true ∧
        files.write c.indexPath ((frontPage c today tags files latest).content c) = .ok after) := by
  rw [perform_writeIndex] at h
  split at h
  next hfile =>
    split at h
    next hwrite =>
      obtain ⟨htrue, rfl⟩ := Prod.mk.inj h
      exact .inr ⟨(Except.ok.inj htrue).symm, hfile, hwrite⟩
    · exact absurd (congrArg Prod.fst h) nofun
  next hfile =>
    obtain ⟨hfalse, rfl⟩ := Prod.mk.inj h
    exact .inl ⟨(Except.ok.inj hfalse).symm, by simpa using hfile, rfl⟩

/-! ## What holds of each page -/

/-- The location is that of a daily page. -/
def DailyLocation (c : Config) (wd : Location) (dates : List Date) (loc : Location) : Prop :=
  ∃ date ∈ dates, loc = (c.dailyPath date).locate wd

/-- What holds of a page that a run makes between two trees. In between only files of `X` are
written. -/
structure Page.Made (c : Config) (archive : Archive) (X : Location → Prop)
    (files after : FileTree) (page : Page) : Prop where
  serves : Serves archive c .echo page.rendering.tags
  unused : page.rendering.tags.1.memory.used = 0
  before : files.Filled X page.rendering.files
  later : page.rendering.files.Filled X after
  written : ∃ mid, page.rendering.files.write page.target (page.content c) = .ok mid ∧
    mid.Keeps after

/-- A page that is made later in a run, after changes of the same kind, is made in the run. -/
theorem Page.Made.of_later {X : Location → Prop} (h : page.Made c archive X mid after)
    (hfilled : files.Filled X mid) : page.Made c archive X files after where
  serves := h.serves
  unused := h.unused
  before := hfilled.trans h.before
  later := h.later
  written := h.written

theorem Page.Made.of_earlier {X : Location → Prop} (h : page.Made c archive X files mid)
    (hfilled : mid.Filled X after) : page.Made c archive X files after where
  serves := h.serves
  unused := h.unused
  before := h.before
  later := h.later.trans hfilled
  written := by
    obtain ⟨mid', hwrite, hkeeps⟩ := h.written
    exact ⟨mid', hwrite, hkeeps.trans hfilled.keeps⟩

theorem Page.Made.mono {X Y : Location → Prop} (h : page.Made c archive X files after)
    (hXY : ∀ loc, X loc → Y loc) : page.Made c archive Y files after where
  serves := h.serves
  unused := h.unused
  before := h.before.mono hXY
  later := h.later.mono hXY
  written := h.written

/-- A daily page that is written is made, with the tags that are reset for its day. -/
theorem made_dailyPage (hserves : Serves archive c .echo tags) {X : Location → Prop}
    (hwrite : files.write (c.dailyPath date) ((dailyPage c today tags files date).content c) =
      .ok mid) (hkeeps : mid.Keeps after) (hlater : files.Filled X after) :
    (dailyPage c today tags files date).Made c archive X files after where
  serves := hserves.resetForDay
  unused := hserves.used_resetForDay
  before := .refl _ _
  later := hlater
  written := ⟨mid, hwrite, hkeeps⟩

/-- The tags after a daily page go on to serve. -/
theorem serves_dailyPage (hserves : Serves archive c .echo tags) (today : Date) (files : FileTree)
    (date : Date) :
    Serves archive c .echo ((dailyPage c today tags files date).rendering.tagsAfter c) :=
  Rendering.serves_tagsAfter (r := (dailyPage c today tags files date).rendering)
    hserves.resetForDay

/-- Every daily page is made with tags that serve, for the day of the run. -/
theorem serves_of_mem_dailyPages (hserves : Serves archive c .echo tags)
    (h : page ∈ dailyPages c today tags files dates) :
    Serves archive c .echo page.rendering.tags ∧ page.rendering.today = today := by
  induction dates generalizing tags files with
  | nil => cases h
  | cons date dates ih =>
    cases hwrite : files.write (c.dailyPath date)
        ((dailyPage c today tags files date).content c) with
    | error fault =>
      rw [dailyPages_cons_of_error hwrite, List.mem_singleton] at h
      subst h
      exact ⟨hserves.resetForDay, rfl⟩
    | ok mid =>
      rw [dailyPages_cons hwrite] at h
      rcases List.mem_cons.mp h with rfl | h
      · exact ⟨hserves.resetForDay, rfl⟩
      · -- the pages to come are made with the tags that the first has left
        exact ih (serves_dailyPage hserves today files date) h

/-- **Daily pages that are written change nothing but their files**, and leave tags that go on to
serve. -/
theorem filled_of_writeDailies (hserves : Serves archive c .echo tags)
    (h : (writeDailies c today tags dates).perform files = (.ok tags', after)) :
    Serves archive c .echo tags' ∧
      files.Filled (DailyLocation c files.workingDir dates) after := by
  induction dates generalizing tags files with
  | nil =>
    cases h
    exact ⟨hserves, .refl _ _⟩
  | cons date dates ih =>
    obtain ⟨mid, hwrite, hrest⟩ := writeDailies_cons_eq_ok h
    have hfirst := FileTree.filled_of_write hwrite
    obtain ⟨hserves', hothers⟩ := ih (serves_dailyPage hserves today files date) hrest
    refine ⟨hserves', (hfirst.mono ?_).trans (hothers.mono ?_)⟩
    · intro loc hloc
      exact ⟨date, List.mem_cons_self, hloc⟩
    · rintro loc ⟨date', hmem, hloc⟩
      exact ⟨date', List.mem_cons_of_mem _ hmem, hfirst.workingDir ▸ hloc⟩

/-- The page is the daily page of a day. -/
structure Page.IsDaily (c : Config) (today date : Date) (page : Page) : Prop where
  target : page.target = c.dailyPath date
  template : page.rendering.template = c.dailyTemplatePath
  asOf : page.rendering.today = today
  day : page.rendering.date = date

theorem Page.IsDaily.location {X : Location → Prop} (h : page.IsDaily c today date)
    (hmade : page.Made c archive X files after) :
    page.location = (c.dailyPath date).locate files.workingDir := by
  rw [Page.location, h.target, hmade.before.workingDir]

/-- **Every daily page is made.** -/
theorem made_of_mem_dailyPages (hserves : Serves archive c .echo tags)
    (h : (writeDailies c today tags dates).perform files = (.ok tags', after)) :
    ∀ page ∈ dailyPages c today tags files dates,
      page.Made c archive (DailyLocation c files.workingDir dates) files after ∧
        ∃ date ∈ dates, page.IsDaily c today date := by
  induction dates generalizing tags files with
  | nil => exact fun page hmem => absurd hmem List.not_mem_nil
  | cons date dates ih =>
    obtain ⟨mid, hwrite, hrest⟩ := writeDailies_cons_eq_ok h
    have hserves' := serves_dailyPage hserves today files date
    have hfirst := FileTree.filled_of_write hwrite
    rw [dailyPages_cons hwrite]
    intro page hmem
    rcases List.mem_cons.mp hmem with rfl | hmem
    · exact ⟨made_dailyPage hserves hwrite (filled_of_writeDailies hserves' hrest).2.keeps
        (filled_of_writeDailies hserves h).2, date, List.mem_cons_self, rfl, rfl, rfl, rfl⟩
    · obtain ⟨hmade, date', hdate, hdaily⟩ := ih hserves' hrest page hmem
      -- the rest of the run writes no other files than the whole run
      have hmore : ∀ loc, DailyLocation c mid.workingDir dates loc →
          DailyLocation c files.workingDir (date :: dates) loc := by
        rintro loc ⟨date'', hmem'', hloc⟩
        exact ⟨date'', List.mem_cons_of_mem _ hmem'', hfirst.workingDir ▸ hloc⟩
      have hbefore : files.Filled (DailyLocation c files.workingDir (date :: dates)) mid :=
        hfirst.mono fun loc hloc => ⟨date, List.mem_cons_self, hloc⟩
      exact ⟨(hmade.mono hmore).of_later hbefore, date', List.mem_cons_of_mem _ hdate, hdaily⟩

/-- Each day has its page, and the page is there in the end if no other has its location. -/
theorem exists_dailyPage (hserves : Serves archive c .echo tags)
    (h : (writeDailies c today tags dates).perform files = (.ok tags', after))
    (hdate : date ∈ dates) :
    ∃ page ∈ dailyPages c today tags files dates, page.IsDaily c today date ∧
      ((dates.Pairwise fun d d' =>
          (c.dailyPath d).locate files.workingDir ≠ (c.dailyPath d').locate files.workingDir) →
        after.node? ((c.dailyPath date).locate files.workingDir) =
          some (.file (page.content c))) := by
  induction dates generalizing tags files with
  | nil => cases hdate
  | cons first dates ih =>
    obtain ⟨mid, hwrite, hrest⟩ := writeDailies_cons_eq_ok h
    have hserves' := serves_dailyPage hserves today files first
    have hwd := (FileTree.filled_of_write hwrite).workingDir
    rw [dailyPages_cons hwrite]
    rcases List.mem_cons.mp hdate with rfl | hdate
    · refine ⟨_, List.mem_cons_self, ⟨rfl, rfl, rfl, rfl⟩, fun hdistinct => ?_⟩
      rw [(filled_of_writeDailies hserves' hrest).2.agreeOff.node, FileTree.node?_of_write hwrite]
      -- no later page goes to the same file
      rintro ⟨date', hmem, heq⟩
      rw [hwd] at heq
      exact (List.pairwise_cons.mp hdistinct).1 date' hmem heq
    · obtain ⟨page, hmem, hdaily, hnode⟩ := ih hserves' hrest hdate
      rw [hwd] at hnode
      exact ⟨page, List.mem_cons_of_mem _ hmem, hdaily,
        fun hdistinct => hnode (List.pairwise_cons.mp hdistinct).2⟩

/-- What writing the front page changes. -/
theorem filled_of_writeIndex {front : Bool}
    (h : (writeIndex c today tags latest).perform files = (.ok front, after)) :
    files.Filled (fun loc => front = true ∧ loc = c.indexPath.locate files.workingDir) after := by
  rcases writeIndex_eq_ok h with ⟨-, -, rfl⟩ | ⟨rfl, -, hwrite⟩
  · exact .refl _ _
  · exact (FileTree.filled_of_write hwrite).mono fun loc hloc => ⟨rfl, hloc⟩

/-! ## The same pages on two trees -/

/-- Both tags serve an archive. -/
def BothServe (archive : Archive) (c : Config) (tags tags' : PageTags Memory) : Prop :=
  Serves archive c .echo tags ∧ Serves archive c .echo tags'

theorem bothServe_firstTags (c : Config) (archive : Archive) :
    BothServe archive c (firstTags c archive) (firstTags c archive) :=
  ⟨serves_ofArchive archive c .echo, serves_ofArchive archive c .echo⟩

/-- Tags that serve alike go on to do so after a page of the same day. -/
theorem bothServe_dailyPage (hserve : BothServe archive c tags tags') (today date : Date)
    (files files' : FileTree) :
    BothServe archive c ((dailyPage c today tags files date).rendering.tagsAfter c)
      ((dailyPage c today tags' files' date).rendering.tagsAfter c) :=
  ⟨serves_dailyPage hserve.1 today files date, serves_dailyPage hserve.2 today files' date⟩

section

variable {files' : FileTree} {X : Location → Prop} (hserve : BothServe archive c tags tags')
  (hagree : files.AgreeOff X files')
include hserve hagree

/-- A daily page is the same on trees that agree on what it looks up. -/
theorem content_dailyPage_eq
    (hlooks : ∀ path, (dailyPage c today tags files date).rendering.LooksUp c path →
      path.Avoids files.workingDir X) :
    (dailyPage c today tags' files' date).content c =
      (dailyPage c today tags files date).content c :=
  congrArg String.toUTF8 (Rendering.text_eq_of_agreeOff hserve.1.resetForDay hserve.2.resetForDay
    (hserve.1.used_resetForDay.trans hserve.2.used_resetForDay.symm) rfl rfl rfl hagree hlooks)

/-- So is the front page. -/
theorem content_frontPage_eq
    (hlooks : ∀ path, (frontPage c today tags files latest).rendering.LooksUp c path →
      path.Avoids files.workingDir X) :
    (frontPage c today tags' files' latest).content c =
      (frontPage c today tags files latest).content c :=
  congrArg String.toUTF8 (Rendering.text_eq_of_agreeOff hserve.1.resetForPage hserve.2.resetForPage
    (hserve.1.used_resetForPage.trans hserve.2.used_resetForPage.symm) rfl rfl rfl hagree hlooks)

end

end Webcomic.Site
