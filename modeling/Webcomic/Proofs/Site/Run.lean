import Webcomic.Proofs.Site.Pages

/-!
# Runs

A run counts its pages as they are written, and tells of each. What this comes to is known when it
has been prepared: all it does is to write one page after the other, so it counts and tells of the
days in turn, up to the first page that cannot be written (`perform_publishDays`). So the report of
a run that succeeds can be worked out at its end (`publishWithProgress_eq`), and what any run has
told is the beginning of what it would tell (`told_of_prepare`).

`Steps` are the steps of a run that succeeds. It writes to the locations of its days and of the
front page (`Steps.written_iff`), changes nothing else once it is prepared (`Steps.filled`), and
makes each of its pages (`Steps.made`).
-/

namespace Webcomic.Site

open Calendar Files Template

variable {c : Config} {today date latest : Date} {tags tags' : PageTags Memory}
  {files mid after : FileTree} {dates : List Date} {page : Page} {archive : Archive}
  {before : List Progress}

/-! ## Counting and telling -/

/-- Each of some days with its position among them. -/
def progressOf (dates : List Date) : List Progress :=
  dates.mapIdx fun n date => ⟨date, n + 1, dates.length⟩

/-- A daily page that is written is counted and told of. -/
theorem perform_publishDay (count : Nat) (report : Report) (index : Nat) :
    (publishDay c today count (tags, report) (date, index)).perform before files =
      match files.write (c.dailyPath date) ((dailyPage c today tags files date).content c) with
      | .ok after =>
        ((.ok ((dailyPage c today tags files date).rendering.tagsAfter c,
            { report with pagesWritten := report.pagesWritten + 1, latest := some date }),
          before ++ [⟨date, index + 1, count⟩]), after)
      | .error fault => ((.error (.files fault), before), files) := by
  show (Telling.silent (writeDaily c today tags date) >>= _).perform before files = _
  rw [Telling.perform_bind, Telling.perform_silent, perform_writeDaily]
  cases files.write (c.dailyPath date) ((dailyPage c today tags files date).content c) with
  | error fault => rfl
  | ok after =>
    dsimp only
    rw [Telling.perform_bind, Telling.perform_tell]
    exact Telling.perform_pure _ _ _

/-- **The daily pages are counted and told of as they are written**, up to the first that cannot
be. -/
theorem perform_publishDays (count : Nat) (report : Report) (index : Nat) :
    ((dates.zipIdx index).foldlM (publishDay c today count) (tags, report)).perform before files =
      ((((writeDailies c today tags dates).perform files).1.map fun tags =>
          (tags, { report with
            pagesWritten := report.pagesWritten + dates.length
            latest := dates.getLast?.or report.latest }),
        before ++ ((dates.zipIdx index).map fun (date, index) => ⟨date, index + 1, count⟩).take
          ((dailyPages c today tags files dates).countP (Page.isWritten c))),
        ((writeDailies c today tags dates).perform files).2) := by
  induction dates generalizing tags files report index before with
  | nil =>
    rw [dailyPages, List.countP_nil, List.take_zero, List.append_nil]
    rfl
  | cons date dates ih =>
    rw [List.zipIdx_cons, List.foldlM_cons, Telling.perform_bind, perform_publishDay, writeDailies,
      List.foldlM_cons, Change.perform_bind, perform_writeDaily, List.map_cons]
    cases hwrite : files.write (c.dailyPath date)
        ((dailyPage c today tags files date).content c) with
    | error fault =>
      rw [dailyPages_cons_of_error hwrite, List.countP_singleton, isWritten_dailyPage hwrite]
      simp [Except.isOk, Except.toBool, Except.map]
    | ok mid =>
      -- the last day to be written is the latest, and this one only if it is the last
      have hlast : dates.getLast?.or (some date) = (date :: dates).getLast?.or report.latest := by
        rw [List.getLast?_cons]
        cases dates.getLast? <;> rfl
      dsimp only
      rw [ih, dailyPages_cons hwrite, List.countP_cons, isWritten_dailyPage hwrite,
        List.append_assoc, hlast, List.length_cons, Nat.add_assoc, Nat.add_comm 1]
      rfl

/-- The same run, with the report and the progress worked out at its end. -/
def publishInSteps (c : Config) (today : Date) : Change (Report × List Progress) := do
  let edition ← prepare c today
  let dates := edition.archive.dates
  let tags ← writeDailies c today (firstTags c edition.archive) dates
  let indexWritten ← writeIndex c today tags edition.latest
  return (⟨edition.filesMoved, dates.length, indexWritten, some edition.latest⟩, progressOf dates)

theorem progressOf_eq (dates : List Date) :
    progressOf dates = dates.zipIdx.map fun (date, index) => ⟨date, index + 1, dates.length⟩ :=
  List.mapIdx_eq_zipIdx_map

/-- **What a run comes to**: it ends as if the report were worked out at the end, and has told of
the daily pages that could be written. -/
theorem perform_publishTelling (c : Config) (today : Date) (files : FileTree) :
    (publishTelling c today).perform [] files =
      ((((publishInSteps c today).perform files).1.map Prod.fst,
        match (prepare c today).perform files with
        | (.error _, _) => []
        | (.ok edition, prepared) =>
          (progressOf edition.archive.dates).take
            ((dailyPages c today (firstTags c edition.archive) prepared
              edition.archive.dates).countP (Page.isWritten c))),
        ((publishInSteps c today).perform files).2) := by
  show (Telling.silent (prepare c today) >>= _).perform [] files = _
  rw [Telling.perform_bind, Telling.perform_silent, publishInSteps, Change.perform_bind]
  rcases (prepare c today).perform files with ⟨_ | edition, prepared⟩
  · rfl
  dsimp only
  -- all that is told is told here: the parts before and behind are silent
  rw [Telling.perform_bind, perform_publishDays, ← progressOf_eq, ← firstTags, List.nil_append,
    edition.getLast?_dates, Change.perform_bind]
  rcases (writeDailies c today (firstTags c edition.archive) edition.archive.dates).perform prepared
    with ⟨_ | tags, written⟩
  · rfl
  show (Telling.silent (writeIndex c today tags edition.latest) >>= _).perform _ written = _
  rw [Telling.perform_bind, Telling.perform_silent, Nat.zero_add]
  dsimp only
  rw [Change.perform_bind]
  rcases (writeIndex c today tags edition.latest).perform written with ⟨_ | _, _⟩ <;> rfl

/-- **The report of a run can be worked out at its end.** -/
theorem publishWithProgress_eq (c : Config) (today : Date) :
    publishWithProgress c today = publishInSteps c today := by
  refine funext fun files => ?_
  show (publishTelling c today).recorded.perform files = (publishInSteps c today).perform files
  rw [Telling.perform_recorded, perform_publishTelling]
  generalize h : (publishInSteps c today).perform files = outcome
  obtain ⟨_ | ⟨report, progress⟩, after⟩ := outcome
  · rfl
  -- nothing has kept the run from telling of all pages
  obtain ⟨edition, prepared, hprepare, hpages⟩ := Change.bind_eq_ok.mp h
  obtain ⟨tags, written, hdailies, hindex⟩ := Change.bind_eq_ok.mp hpages
  obtain ⟨front, after', -, hreport⟩ := Change.bind_eq_ok.mp hindex
  cases hreport
  rw [hprepare]
  dsimp only
  rw [countP_dailyPages hdailies, List.take_of_length_le (by simp [progressOf])]
  rfl

/-- What a run tells its listener: after each daily page that was written, how far it has come. A
run that fails has told of the pages before. -/
def told (c : Config) (today : Date) (files : FileTree) : List Progress :=
  ((publishTelling c today).perform [] files).1.2

/-- A run tells of its days in turn, as many as have a page that could be written. -/
theorem told_of_prepare {edition : Edition} {prepared : FileTree}
    (h : (prepare c today).perform files = (.ok edition, prepared)) :
    told c today files = (progressOf edition.archive.dates).take
      ((dailyPages c today (firstTags c edition.archive) prepared edition.archive.dates).countP
        (Page.isWritten c)) := by
  rw [told, perform_publishTelling, h]

/-- A run that cannot be prepared tells nothing. -/
theorem told_of_prepare_error {e : Error} {prepared : FileTree}
    (h : (prepare c today).perform files = (.error e, prepared)) : told c today files = [] := by
  rw [told, perform_publishTelling, h]

/-- A run that succeeds has told all that it returns. -/
theorem told_of_publish {report : Report} {progress : List Progress}
    (h : (publishWithProgress c today).perform files = (.ok (report, progress), after)) :
    told c today files = progress := by
  rw [publishWithProgress, Telling.perform_recorded] at h
  rw [told]
  -- what is told is kept beside the outcome, whatever that is
  generalize (publishTelling c today).perform [] files = outcome at h ⊢
  obtain ⟨⟨_ | _, progress⟩, _⟩ := outcome
  · cases h
  · cases h
    rfl

/-! ## The steps of a run -/

/-- A run writes a page to the location. -/
def Written (c : Config) (today : Date) (files : FileTree) (loc : Location) : Prop :=
  ∃ page ∈ pages c today files, loc = page.location

instance (loc : Location) : Decidable (Written c today files loc) := by
  unfold Written; infer_instance

/-- The steps of a run that succeeds: it is prepared, writes the daily pages and then the front
page, if there is one. -/
structure Steps (c : Config) (today : Date) (files : FileTree) (edition : Edition)
    (prepared : FileTree) (tags : PageTags Memory) (written : FileTree) (front : Bool)
    (after : FileTree) : Prop where
  prepare : (Site.prepare c today).perform files = (.ok edition, prepared)
  dailies : (writeDailies c today (firstTags c edition.archive) edition.archive.dates).perform
    prepared = (.ok tags, written)
  index : (writeIndex c today tags edition.latest).perform written = (.ok front, after)

/-- **A run that succeeds has gone through all its steps.** -/
theorem steps_of_publish {report : Report} {progress : List Progress}
    (h : (publishWithProgress c today).perform files = (.ok (report, progress), after)) :
    ∃ edition prepared tags written,
      Steps c today files edition prepared tags written report.indexWritten after ∧
      report = ⟨edition.filesMoved, edition.archive.dates.length, report.indexWritten,
        some edition.latest⟩ ∧
      progress = progressOf edition.archive.dates := by
  rw [publishWithProgress_eq] at h
  obtain ⟨edition, prepared, hprepare, hpages⟩ := Change.bind_eq_ok.mp h
  obtain ⟨tags, written, hdailies, hindex⟩ := Change.bind_eq_ok.mp hpages
  obtain ⟨front, after', hwrite, hreport⟩ := Change.bind_eq_ok.mp hindex
  cases hreport
  exact ⟨edition, prepared, tags, written, ⟨hprepare, hdailies, hwrite⟩, rfl, rfl⟩

/-- The pages of an edition that is written are the daily pages and then the front page, if there is
one. -/
theorem editionPages_eq {edition : Edition} {prepared written : FileTree}
    (hdailies : (writeDailies c today (firstTags c edition.archive) edition.archive.dates).perform
      prepared = (.ok tags, written)) :
    editionPages c today edition prepared =
      dailyPages c today (firstTags c edition.archive) prepared edition.archive.dates ++
        (frontPage? c today tags written edition.latest).toList := by
  rw [editionPages, hdailies]

theorem pages_of_prepare {edition : Edition} {prepared : FileTree}
    (hprepare : (prepare c today).perform files = (.ok edition, prepared)) :
    pages c today files = editionPages c today edition prepared := by
  unfold pages
  rewrite [hprepare]
  dsimp only

/-- A page is made in a run that could be prepared. It is a daily page, or the front page once all
of these are written. -/
theorem exists_of_mem_pages (h : page ∈ pages c today files) :
    ∃ edition prepared, (prepare c today).perform files = (.ok edition, prepared) ∧
      (page ∈ dailyPages c today (firstTags c edition.archive) prepared edition.archive.dates ∨
        ∃ tags written,
          (writeDailies c today (firstTags c edition.archive) edition.archive.dates).perform
            prepared = (.ok tags, written) ∧
          page = frontPage c today tags written edition.latest) := by
  generalize hprepare : (prepare c today).perform files = outcome at h
  obtain ⟨_ | edition, prepared⟩ := outcome
  · unfold pages at h
    rewrite [hprepare] at h
    cases h
  refine ⟨edition, prepared, rfl, ?_⟩
  rw [pages_of_prepare hprepare, editionPages, List.mem_append] at h
  refine h.imp_right fun hfront => ?_
  split at hfront
  · cases hfront
  next tags written hdailies =>
    rw [Option.mem_toList, frontPage?, Option.ite_none_right_eq_some] at hfront
    exact ⟨tags, written, hdailies, (Option.some.inj hfront.2).symm⟩

/-- The tags of every page serve an archive, also in a run that fails. -/
theorem serves_of_mem_pages (h : page ∈ pages c today files) :
    ∃ archive, Serves archive c .echo page.rendering.tags ∧ page.rendering.today = today := by
  obtain ⟨edition, prepared, -, hpage⟩ := exists_of_mem_pages h
  have hfirst := serves_ofArchive edition.archive c .echo
  rcases hpage with hdaily | ⟨tags, written, hdailies, rfl⟩
  · exact ⟨edition.archive, serves_of_mem_dailyPages hfirst hdaily⟩
  · exact ⟨edition.archive, (filled_of_writeDailies hfirst hdailies).1.resetForPage, rfl⟩

namespace Steps

variable {edition : Edition} {prepared written : FileTree} {front : Bool}
  (h : Steps c today files edition prepared tags written front after)
include h

theorem isPrepared : Prepared c today files edition prepared :=
  prepared_of_prepare h.prepare

theorem serves : Serves edition.archive c .echo tags :=
  (filled_of_writeDailies (serves_ofArchive edition.archive c .echo) h.dailies).1

theorem filled_written :
    prepared.Filled (DailyLocation c files.workingDir edition.archive.dates) written :=
  h.isPrepared.keeps.workingDir ▸
    (filled_of_writeDailies (serves_ofArchive edition.archive c .echo) h.dailies).2

theorem workingDir_written : written.workingDir = files.workingDir :=
  h.filled_written.workingDir.trans h.isPrepared.keeps.workingDir

/-- The last step of a run changes at most the file of the front page. -/
theorem filled_front :
    written.Filled (fun loc => front = true ∧ loc = c.indexPath.locate files.workingDir) after :=
  h.workingDir_written ▸ filled_of_writeIndex h.index

/-- **The pages of a run** are its daily pages and the front page, if that is written. -/
theorem mem_pages_iff :
    page ∈ pages c today files ↔
      page ∈ dailyPages c today (firstTags c edition.archive) prepared edition.archive.dates ∨
      front = true ∧ page = frontPage c today tags written edition.latest := by
  rw [pages_of_prepare h.prepare, editionPages_eq h.dailies, List.mem_append, frontPage?]
  refine or_congr_right ?_
  rcases writeIndex_eq_ok h.index with ⟨rfl, hfile, -⟩ | ⟨rfl, hfile, -⟩ <;> simp [hfile]

theorem frontPage_mem (hfront : front = true) :
    frontPage c today tags written edition.latest ∈ pages c today files :=
  h.mem_pages_iff.mpr (.inr ⟨hfront, rfl⟩)

/-- Each daily page is made, for one of the days. -/
theorem made_dailyPage
    (hpage : page ∈
      dailyPages c today (firstTags c edition.archive) prepared edition.archive.dates) :
    page.Made c edition.archive (DailyLocation c files.workingDir edition.archive.dates) prepared
        written ∧ ∃ date ∈ edition.archive.dates, page.IsDaily c today date := by
  rw [← h.isPrepared.keeps.workingDir]
  exact made_of_mem_dailyPages (serves_ofArchive edition.archive c .echo) h.dailies page hpage

theorem location_dailyPage {date : Date}
    (hpage : page ∈ dailyPages c today (firstTags c edition.archive) prepared edition.archive.dates)
    (hdaily : page.IsDaily c today date) :
    page.location = (c.dailyPath date).locate files.workingDir := by
  rw [hdaily.location (h.made_dailyPage hpage).1, h.isPrepared.keeps.workingDir]

theorem location_frontPage :
    (frontPage c today tags written edition.latest).location =
      c.indexPath.locate files.workingDir := by
  rw [← h.workingDir_written]
  rfl

/-- **The locations that a run writes to** are those of its days, and that of the front page. -/
theorem written_iff {loc : Location} :
    Written c today files loc ↔
      DailyLocation c files.workingDir edition.archive.dates loc ∨
        front = true ∧ loc = c.indexPath.locate files.workingDir := by
  constructor
  · rintro ⟨page, hpage, hloc⟩
    rcases h.mem_pages_iff.mp hpage with hpage | ⟨hfront, rfl⟩
    · obtain ⟨-, date, hdate, hdaily⟩ := h.made_dailyPage hpage
      exact .inl ⟨date, hdate, hloc.trans (h.location_dailyPage hpage hdaily)⟩
    · exact .inr ⟨hfront, hloc.trans h.location_frontPage⟩
  · rintro (⟨date, hdate, hloc⟩ | ⟨hfront, hloc⟩)
    · obtain ⟨page, hpage, hdaily, -⟩ :=
        exists_dailyPage (serves_ofArchive edition.archive c .echo) h.dailies hdate
      exact ⟨page, h.mem_pages_iff.mpr (.inl hpage),
        hloc.trans (h.location_dailyPage hpage hdaily).symm⟩
    · exact ⟨_, h.frontPage_mem hfront, hloc.trans h.location_frontPage.symm⟩

theorem filled_front_written : written.Filled (Written c today files) after :=
  h.filled_front.mono fun _ hloc => h.written_iff.mpr (.inr hloc)

theorem filled_written_dailies : prepared.Filled (Written c today files) written :=
  h.filled_written.mono fun _ hloc => h.written_iff.mpr (.inl hloc)

/-- **A prepared run changes nothing but the files of its pages.** -/
theorem filled : prepared.Filled (Written c today files) after :=
  h.filled_written_dailies.trans h.filled_front_written

/-- **Every page of a run is made.** -/
theorem made (hpage : page ∈ pages c today files) :
    page.Made c edition.archive (Written c today files) prepared after := by
  rcases h.mem_pages_iff.mp hpage with hpage | ⟨hfront, rfl⟩
  · exact ((h.made_dailyPage hpage).1.mono fun _ hloc => h.written_iff.mpr (.inl hloc)).of_earlier
      h.filled_front_written
  · rcases writeIndex_eq_ok h.index with ⟨hfalse, -⟩ | ⟨-, -, hwrite⟩
    · rw [hfront] at hfalse
      cases hfalse
    · exact ⟨h.serves.resetForPage, h.serves.used_resetForPage, h.filled_written_dailies,
        h.filled_front_written, after, hwrite, .refl _⟩

end Steps

end Webcomic.Site
