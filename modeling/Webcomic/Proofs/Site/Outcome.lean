import Webcomic.Proofs.Site.Noninterference
import Webcomic.Proofs.Site.Report

/-!
# What a run leaves behind, however it ends

A run can be stopped almost anywhere: by a directory that cannot be made or listed, by the third
file that is to be moved, by the fifth page. Whatever it has come to, it has gone some way along one
course (`Course`): directories were made on the way to the comics directory, the first of the files
that are due were moved, directories were made on the way to the daily pages, and then pages were
written. `Ends` says what else is known of the files when the run ends with an error.

So in the end (`publish_leaves`) only the places of the files that are due, of the live days and of
the front page can hold something else, a run without a template or without a comic has moved
nothing, and no comic is lost: each file that is due is where it was or has arrived, unless a page
was written over it.
-/

namespace Webcomic.Site

open Calendar Files Template Archive

variable {α β : Type} {c : Config} {today date latest : Date}
  {start files mid arrived after : FileTree}
  {name : String} {names done : List String} {upload comics : Path} {loc : Location}
  {tags : PageTags Memory} {dates : List Date} {edition : Edition} {page : Page}
  {shown : List Page}

/-! ## How a run ends -/

/-- The results that a run ends with, and what they say of the files: `start` before the run and
`after` it. -/
inductive Ends (c : Config) (start after : FileTree) : Except Error α → Prop where
  | ok (a : α) : Ends c start after (.ok a)
  /-- Without a template for the daily pages nothing is done. -/
  | template : after = start → Ends c start after (.error (.templateMissing c.dailyTemplatePath))
  /-- Without a live comic only directories are made, on the way to the comics directory. -/
  | archive : start.Grown (· ∈ (c.directory .comics).lookups start.workingDir) after →
      Ends c start after (.error (.emptyArchive (c.directory .comics)))
  | move (source target : Path) (fault : Fault) :
      Ends c start after (.error (.move source target fault))
  | fault (fault : Fault) : Ends c start after (.error (.files fault))

/-- A change that ends with the error of its first step ends like that step. -/
theorem Ends.of_error {e : Error} (h : Ends c start after (.error e : Except Error α)) :
    Ends c start after (.error e : Except Error β) := by
  cases h with
  | template heq => exact .template heq
  | archive hgrown => exact .archive hgrown
  | move source target fault => exact .move source target fault
  | fault fault => exact .fault fault

/-! ## Promotion -/

/-- Files that are moved until one cannot be: the first of them are. -/
theorem exists_done_of_moveFiles (start : FileTree) {result : Except Error Unit}
    (h : (names.forM (moveFile upload comics)).perform files = (result, after)) :
    ∃ done, done <+: names ∧
      (done.forM (moveFile upload comics)).perform files = (.ok (), after) ∧
      Ends c start after result := by
  induction names generalizing files with
  | nil =>
    cases h
    exact ⟨[], List.prefix_refl [], rfl, .ok ()⟩
  | cons name names ih =>
    rcases Change.bind_eq h with ⟨e, hstop, rfl⟩ | ⟨⟨⟩, mid, hmove, hrest⟩
    · -- a move that fails changes nothing, so none has been made
      rw [moveFile, Change.perform_step] at hstop
      split at hstop
      · cases hstop
      next hmove =>
        cases hmoved : files.move (upload.join name) (comics.join name) with
        | ok mid =>
          rw [hmoved] at hmove
          cases hmove
        | error fault =>
          rw [hmoved] at hmove
          cases hmove
          cases hstop
          exact ⟨[], List.nil_prefix, rfl, .move _ _ fault⟩
    · obtain ⟨done, hprefix, hdone, hends⟩ := ih hrest
      exact ⟨name :: done, List.cons_prefix_cons.mpr ⟨rfl, hprefix⟩,
        Change.bind_eq_ok.mpr ⟨(), mid, hmove, hdone⟩, hends⟩

/-- What a promotion has done when it ends: directories on the way to the comics directory were
made, and then some files moved, the first of those that are due. -/
structure Promoting (c : Config) (today : Date) (files : FileTree) (done : List String)
    (after : FileTree) : Prop where
  due : done <+: staged c today files
  exists_made : ∃ made, files.Grown (· ∈ (c.directory .comics).lookups files.workingDir) made ∧
    (done.forM (moveFile (c.directory .upload) (c.directory .comics))).perform made =
      (.ok (), after)

namespace Promoting

/-- Nothing was moved. -/
theorem of_grown (h : files.Grown (· ∈ (c.directory .comics).lookups files.workingDir) after) :
    Promoting c today files [] after :=
  ⟨List.nil_prefix, after, h, rfl⟩

theorem grown_of_nil (h : Promoting c today files [] after) :
    files.Grown (· ∈ (c.directory .comics).lookups files.workingDir) after := by
  obtain ⟨-, made, hgrown, hmoves⟩ := h
  cases hmoves
  exact hgrown

variable (h : Promoting c today files done after)
include h

theorem workingDir : after.workingDir = files.workingDir := by
  obtain ⟨-, made, hgrown, hmoves⟩ := h
  rw [(keeps_of_moveFiles hmoves).1.workingDir, hgrown.workingDir]

theorem isName_of_mem (hnamed : files.Named) : ∀ name ∈ done, IsName name :=
  fun _ hname => isName_of_mem_staged hnamed (h.due.subset hname)

/-- Other places hold what they held, or a directory that was made. -/
theorem node (hloc : ¬ Moved c today files loc) :
    after.node? loc = files.node? loc ∨ loc ∈ (c.directory .comics).lookups files.workingDir ∧
      files.node? loc = none ∧ after.node? loc = some .directory := by
  obtain ⟨hdue, made, hgrown, hmoves⟩ := h
  have hstays : after.node? loc = made.node? loc := by
    refine (keeps_of_moveFiles hmoves).2.node loc ?_
    rw [hgrown.workingDir]
    exact fun ⟨hne, name, hname, heq⟩ => hloc ⟨hne, name, hdue.subset hname, heq⟩
  rw [hstays]
  exact hgrown.node loc

section

variable (hnamed : files.Named) {content : ByteArray}
  (hnode : files.node? ((c.directory .upload).locate files.workingDir ++ [name]) =
    some (.file content))
include hnamed hnode

/-- A file that was not moved, or to the same place, is where it was. -/
theorem stays
    (hleft : name ∈ done →
      (c.directory .upload).locate files.workingDir =
        (c.directory .comics).locate files.workingDir) :
    after.node? ((c.directory .upload).locate files.workingDir ++ [name]) =
      some (.file content) := by
  have hnames := h.isName_of_mem hnamed
  obtain ⟨hdue, made, hgrown, hmoves⟩ := h
  by_cases hname : name ∈ done
  · -- then all moves lead to the same place, and change nothing
    rw [(keeps_of_moveFiles hmoves).2.node _, hgrown.file_iff.mpr hnode]
    rw [hgrown.workingDir]
    exact fun hmoved => hmoved.1 (hleft hname)
  · rw [node?_of_moveFiles_of_not_mem hnames hmoves hname, hgrown.file_iff.mpr hnode]

/-- A file that was moved to another place has arrived there. -/
theorem arrives (hname : name ∈ done)
    (hne : (c.directory .upload).locate files.workingDir ≠
      (c.directory .comics).locate files.workingDir) :
    after.node? ((c.directory .comics).locate files.workingDir ++ [name]) = some (.file content) ∧
      after.node? ((c.directory .upload).locate files.workingDir ++ [name]) = none := by
  have hnames := h.isName_of_mem hnamed
  obtain ⟨hdue, made, hgrown, hmoves⟩ := h
  have hmoved := node?_of_moveFiles hnames ((nodup_staged c today files).sublist hdue.sublist)
    (hgrown.workingDir ▸ hne) hmoves hname
  rwa [hgrown.workingDir, hgrown.file_iff.mpr hnode] at hmoved

/-- **A staged file is where it was, or has arrived.** -/
theorem not_lost :
    after.node? ((c.directory .upload).locate files.workingDir ++ [name]) = some (.file content) ∨
      after.node? ((c.directory .comics).locate files.workingDir ++ [name]) =
          some (.file content) ∧
        after.node? ((c.directory .upload).locate files.workingDir ++ [name]) = none := by
  by_cases hmoved : name ∈ done ∧ (c.directory .upload).locate files.workingDir ≠
      (c.directory .comics).locate files.workingDir
  · exact .inr (h.arrives hnamed hnode hmoved.1 hmoved.2)
  · exact .inl (h.stays hnamed hnode fun hname => not_not.mp fun hne => hmoved ⟨hname, hne⟩)

end

/-- What was moved is a file of the comics directory. -/
theorem exists_file (hnamed : files.Named) (hname : name ∈ done) :
    ∃ content, after.node? ((c.directory .comics).locate files.workingDir ++ [name]) =
      some (.file content) := by
  obtain ⟨⟨content, hnode⟩, -⟩ := mem_staged.mp (h.due.subset hname)
  by_cases heq : (c.directory .upload).locate files.workingDir =
      (c.directory .comics).locate files.workingDir
  · exact ⟨content, heq ▸ h.stays hnamed hnode fun _ => heq⟩
  · exact ⟨content, (h.arrives hnamed hnode hname heq).1⟩

/-- **Without a live comic nothing was moved**: it would be live. -/
theorem eq_nil (hnamed : files.Named)
    (hempty : ((ofEntries
      (after.entries ((c.directory .comics).locate files.workingDir))).upTo today).isEmpty = true) :
    done = [] := by
  refine List.eq_nil_iff_forall_not_mem.mpr fun name hname => ?_
  -- the day of the file is in the archive
  obtain ⟨-, date, hdate, hdue⟩ := mem_staged.mp (h.due.subset hname)
  obtain ⟨content, hnode⟩ := h.exists_file hnamed hname
  have hlive := mem_dates_upTo_ofEntries.mpr
    ⟨hdue, name, hdate, content, FileTree.mem_entries.mpr hnode⟩
  rw [Archive.isEmpty, List.isEmpty_iff] at hempty
  rw [Archive.dates, hempty] at hlive
  cases hlive

end Promoting

/-- **What a promotion has done, however it ends.** -/
theorem promoting_of_promote {result : Except Error Nat}
    (h : (promote (c.directory .upload) (c.directory .comics) today).perform files =
      (result, after)) :
    ∃ done, Promoting c today files done after ∧ Ends c files after result := by
  cases promote_outcome h with
  | same hsame => exact ⟨[], .of_grown (.refl _ _), .ok 0⟩
  | unlisted fault hsame =>
    exact ⟨[], .of_grown (FileTree.grown_makeDirectories _ _), .fault fault⟩
  | stopped hsame hmake hresolve hmoves =>
    obtain ⟨hgrown, -, hstaged⟩ := grown_of_made today hmake hresolve
    rw [hstaged] at hmoves
    obtain ⟨done, hdue, hdone, hends⟩ := exists_done_of_moveFiles files hmoves
    exact ⟨done, ⟨hdue, _, hgrown, hdone⟩, hends.of_error⟩
  | moved hsame hmake hresolve hmoves =>
    obtain ⟨hgrown, -, hstaged⟩ := grown_of_made today hmake hresolve
    rw [hstaged] at hmoves
    exact ⟨_, ⟨List.prefix_refl _, _, hgrown, hmoves⟩, .ok _⟩

/-! ## Preparation -/

/-- **What a preparation has done, however it ends.** -/
theorem promoting_of_prepare {result : Except Error Edition} (hnamed : files.Named)
    (h : (prepare c today).perform files = (result, after)) :
    ∃ done arrived, Promoting c today files done arrived ∧
      arrived.Grown (· ∈ (c.directory .daily).lookups files.workingDir) after ∧
      Ends c files after result := by
  cases prepare_outcome h with
  | template hfile => exact ⟨[], files, .of_grown (.refl _ _), .refl _ _, .template rfl⟩
  | stopped hfile hpromote =>
    obtain ⟨done, hdone, hends⟩ := promoting_of_promote hpromote
    exact ⟨done, after, hdone, .refl _ _, hends.of_error⟩
  | unread fault hfile hpromote =>
    obtain ⟨done, hdone, -⟩ := promoting_of_promote hpromote
    exact ⟨done, after, hdone, .refl _ _, .fault fault⟩
  | empty hfile hpromote hresolve hempty =>
    obtain ⟨done, hdone, -⟩ := promoting_of_promote hpromote
    obtain rfl := FileTree.eq_locate_of_resolve hresolve
    rw [hdone.workingDir] at hempty
    -- a file that had been moved would be in the archive, which is empty
    obtain rfl := hdone.eq_nil hnamed hempty
    exact ⟨[], after, hdone, .refl _ _, .archive hdone.grown_of_nil⟩
  | @unmade mid _ fault hfile hpromote =>
    obtain ⟨done, hdone, -⟩ := promoting_of_promote hpromote
    have hgrown := FileTree.grown_makeDirectories mid (c.directory .daily)
    rw [hdone.workingDir] at hgrown
    exact ⟨done, mid, hdone, hgrown, .fault fault⟩
  | @prepared mid _ _ _ hfile hpromote _ _ hmake =>
    obtain ⟨done, hdone, -⟩ := promoting_of_promote hpromote
    have hgrown := FileTree.grown_makeDirectories mid (c.directory .daily)
    rw [hmake, hdone.workingDir] at hgrown
    exact ⟨done, mid, hdone, hgrown, .ok _⟩

/-! ## Pages -/

/-- One of the pages was written to the location. -/
def Landed (c : Config) (shown : List Page) (loc : Location) : Prop :=
  ∃ page ∈ shown, page.isWritten c = true ∧ page.location = loc

theorem Landed.mono {more : List Page} (h : Landed c shown loc) (hmore : shown ⊆ more) :
    Landed c more loc := by
  obtain ⟨page, hpage, hwritten⟩ := h
  exact ⟨page, hmore hpage, hwritten⟩

/-- **Daily pages change nothing but the files of those that could be written.** -/
theorem filled_landed_of_writeDailies (start : FileTree)
    {result : Except Error (PageTags Memory)}
    (h : (writeDailies c today tags dates).perform files = (result, after)) :
    files.Filled (Landed c (dailyPages c today tags files dates)) after ∧
      Ends c start after result := by
  induction dates generalizing tags files with
  | nil =>
    cases h
    exact ⟨.refl _ _, .ok _⟩
  | cons date dates ih =>
    rw [writeDailies, List.foldlM_cons] at h
    rcases Change.bind_eq h with ⟨e, hstop, rfl⟩ | ⟨tags', mid, hfirst, hrest⟩
    · rw [perform_writeDaily] at hstop
      split at hstop
      · have hresult := congrArg Prod.fst hstop
        cases hresult
      next fault hwrite =>
        obtain ⟨he, rfl⟩ := Prod.mk.inj hstop
        obtain rfl := Except.error.inj he
        exact ⟨.refl _ _, .fault fault⟩
    · -- the first page is written, and the others into the tree with it
      obtain ⟨hwrite, rfl⟩ := writeDaily_eq_ok hfirst
      obtain ⟨hothers, hends⟩ := ih hrest
      have hwritten : (dailyPage c today tags files date).isWritten c = true :=
        isWritten_dailyPage hwrite
      rw [dailyPages_cons hwrite]
      refine ⟨((FileTree.filled_of_write hwrite).mono ?_).trans (hothers.mono ?_), hends⟩
      · exact fun loc hloc => ⟨_, List.mem_cons_self, hwritten, hloc.symm⟩
      · exact fun loc hlanded => hlanded.mono (List.subset_cons_self _ _)

/-- Nor does the front page. -/
theorem filled_landed_of_writeIndex (start : FileTree) {result : Except Error Bool}
    (h : (writeIndex c today tags latest).perform files = (result, after)) :
    files.Filled (Landed c (frontPage? c today tags files latest).toList) after ∧
      Ends c start after result := by
  rw [perform_writeIndex] at h
  rw [frontPage?]
  split at h
  next hfile =>
    rw [if_pos hfile]
    split at h
    next hwrite =>
      obtain ⟨rfl, rfl⟩ := Prod.mk.inj h
      refine ⟨(FileTree.filled_of_write hwrite).mono ?_, .ok _⟩
      rintro loc rfl
      refine ⟨_, List.mem_singleton_self _, ?_, rfl⟩
      show (files.write c.indexPath _).isOk = true
      rw [hwrite]
      rfl
    next fault hwrite =>
      obtain ⟨rfl, rfl⟩ := Prod.mk.inj h
      exact ⟨.refl _ _, .fault fault⟩
  · obtain ⟨rfl, rfl⟩ := Prod.mk.inj h
    exact ⟨.refl _ _, .ok _⟩

theorem location_of_mem_dailyPages (h : page ∈ dailyPages c today tags files dates) :
    ∃ date ∈ dates, page.location = (c.dailyPath date).locate files.workingDir := by
  induction dates generalizing tags files with
  | nil => cases h
  | cons date dates ih =>
    cases hwrite : files.write (c.dailyPath date)
        ((dailyPage c today tags files date).content c) with
    | error fault =>
      rw [dailyPages_cons_of_error hwrite, List.mem_singleton] at h
      subst h
      exact ⟨date, List.mem_cons_self, rfl⟩
    | ok mid =>
      rw [dailyPages_cons hwrite] at h
      rcases List.mem_cons.mp h with rfl | h
      · exact ⟨date, List.mem_cons_self, rfl⟩
      · obtain ⟨date', hdate, hloc⟩ := ih h
        rw [(FileTree.filled_of_write hwrite).workingDir] at hloc
        exact ⟨date', List.mem_cons_of_mem _ hdate, hloc⟩

/-- **A run makes pages only for live days**, and the front page. -/
theorem location_of_mem_pages (h : page ∈ pages c today files) :
    (∃ date, Live c today files date ∧
        page.location = (c.dailyPath date).locate files.workingDir) ∨
      page.location = c.indexPath.locate files.workingDir := by
  obtain ⟨edition, prepared, hprepare, hpage⟩ := exists_of_mem_pages h
  have hwd := (prepared_of_prepare hprepare).keeps.workingDir
  rcases hpage with hdaily | ⟨tags, written, hdailies, rfl⟩
  · obtain ⟨date, hdate, hloc⟩ := location_of_mem_dailyPages hdaily
    exact .inl ⟨date, (mem_dates_iff_live hprepare).mp hdate, hwd ▸ hloc⟩
  · have hwritten := (filled_landed_of_writeDailies files hdailies).1.workingDir
    refine .inr ?_
    rw [← hwd, ← hwritten]
    rfl

/-! ## The whole run -/

/-- The way that a run goes, however far it comes. -/
structure Course (c : Config) (today : Date) (files after : FileTree) : Prop where
  exists_steps : ∃ done arrived prepared, Promoting c today files done arrived ∧
    arrived.Grown (· ∈ (c.directory .daily).lookups files.workingDir) prepared ∧
    prepared.Filled (Landed c (pages c today files)) after

/-- **Every run goes this way**, whether it succeeds or fails. -/
theorem course_of_publish {result : Except Error (Report × List Progress)} (hnamed : files.Named)
    (h : (publishWithProgress c today).perform files = (result, after)) :
    Course c today files after ∧ Ends c files after result := by
  rw [publishWithProgress_eq] at h
  rcases Change.bind_eq h with ⟨e, hprepare, rfl⟩ | ⟨edition, prepared, hprepare, hpages⟩
  · obtain ⟨done, arrived, hdone, hgrown, hends⟩ := promoting_of_prepare hnamed hprepare
    exact ⟨⟨done, arrived, after, hdone, hgrown, .refl _ _⟩, hends.of_error⟩
  obtain ⟨done, arrived, hdone, hgrown, -⟩ := promoting_of_prepare hnamed hprepare
  -- the pages of the run are its daily pages and then, if these were written, the front page
  have hshown := pages_of_prepare hprepare
  rw [editionPages] at hshown
  rcases Change.bind_eq hpages with ⟨e, hdailies, rfl⟩ | ⟨tags, written, hdailies, hindex⟩
  · obtain ⟨hfilled, hends⟩ := filled_landed_of_writeDailies files hdailies
    refine ⟨⟨done, arrived, prepared, hdone, hgrown, hfilled.mono fun loc hlanded => ?_⟩,
      hends.of_error⟩
    exact hlanded.mono (hshown ▸ List.subset_append_left _ _)
  have hdailies' : (writeDailies c today (firstTags c edition.archive)
      edition.archive.dates).perform prepared = (.ok tags, written) := hdailies
  rw [hdailies'] at hshown
  have hfilled := (filled_landed_of_writeDailies files hdailies').1.mono fun loc hlanded =>
    hlanded.mono (hshown ▸ List.subset_append_left _ _)
  have hfront : ∀ {result : Except Error Bool} {after : FileTree},
      (writeIndex c today tags edition.latest).perform written = (result, after) →
        Course c today files after ∧ Ends c files after result := by
    intro result after hwrite
    obtain ⟨hlast, hends⟩ := filled_landed_of_writeIndex files hwrite
    refine ⟨⟨done, arrived, prepared, hdone, hgrown, hfilled.trans (hlast.mono ?_)⟩, hends⟩
    exact fun loc hlanded => hlanded.mono (hshown ▸ List.subset_append_right _ _)
  rcases Change.bind_eq hindex with ⟨e, hwrite, rfl⟩ | ⟨front, after', hwrite, hreport⟩
  · obtain ⟨hcourse, hends⟩ := hfront hwrite
    exact ⟨hcourse, hends.of_error⟩
  · cases hreport
    exact ⟨(hfront hwrite).1, .ok _⟩

namespace Course

variable (h : Course c today files after)
include h

/-- **Other places hold what they held**, or a directory that was made. -/
theorem node (hmoved : ¬ Moved c today files loc) (hlanded : ¬ Landed c (pages c today files) loc) :
    after.node? loc = files.node? loc ∨ Road c files.workingDir loc ∧
      files.node? loc = none ∧ after.node? loc = some .directory := by
  obtain ⟨done, arrived, prepared, hdone, hgrown, hfilled⟩ := h
  rw [hfilled.agreeOff.node loc hlanded]
  rcases hgrown.node loc with hsame | ⟨hroad, hnone, hdir⟩
  · rw [hsame]
    exact (hdone.node hmoved).imp_right fun hmade => ⟨.inl hmade.1, hmade.2⟩
  · -- nothing was there before, for what is there is not taken away
    refine .inr ⟨.inr hroad, ?_, hdir⟩
    rcases hdone.node hmoved with hsame | ⟨-, hbefore, -⟩
    · rw [← hsame, hnone]
    · exact hbefore

/-- **No comic is lost.** -/
theorem not_lost (hnamed : files.Named) {content : ByteArray}
    (hnode : files.node? ((c.directory .upload).locate files.workingDir ++ [name]) =
      some (.file content)) :
    Landed c (pages c today files) ((c.directory .upload).locate files.workingDir ++ [name]) ∨
    Landed c (pages c today files) ((c.directory .comics).locate files.workingDir ++ [name]) ∨
    after.node? ((c.directory .upload).locate files.workingDir ++ [name]) = some (.file content) ∨
    after.node? ((c.directory .comics).locate files.workingDir ++ [name]) = some (.file content) ∧
      (after.node? ((c.directory .upload).locate files.workingDir ++ [name]) = none ∨
        Road c files.workingDir ((c.directory .upload).locate files.workingDir ++ [name]) ∧
          after.node? ((c.directory .upload).locate files.workingDir ++ [name]) =
            some .directory) := by
  obtain ⟨done, arrived, prepared, hdone, hgrown, hfilled⟩ := h
  -- where no page was written, both places are as they were when the run was prepared
  by_cases hupload : Landed c (pages c today files)
      ((c.directory .upload).locate files.workingDir ++ [name])
  · exact .inl hupload
  by_cases hcomics : Landed c (pages c today files)
      ((c.directory .comics).locate files.workingDir ++ [name])
  · exact .inr (.inl hcomics)
  refine .inr (.inr ?_)
  rw [hfilled.agreeOff.node _ hupload, hfilled.agreeOff.node _ hcomics, hgrown.file_iff,
    hgrown.file_iff]
  refine (hdone.not_lost hnamed hnode).imp_right fun ⟨harrived, hgone⟩ => ⟨harrived, ?_⟩
  rcases hgrown.node ((c.directory .upload).locate files.workingDir ++ [name]) with
    hsame | ⟨hroad, -, hdir⟩
  · exact .inl (hsame.trans hgone)
  · exact .inr ⟨.inr hroad, hdir⟩

end Course

/-- **What a run leaves behind, however it ends.** Every place holds what it held before, but that
directories were made on the way to the comics directory or the daily pages, files that are due
were moved from the upload directory to the comics directory, and pages written for live days and
for the front. Without a template for the daily pages nothing has changed, and without a live comic
nothing but directories on the way to the comics directory. A file that is due is where it was, or
is in the comics directory and not where it was, unless a page was written to one of these places;
only a directory that the run made can be where it was. -/
theorem publish_leaves {result : Except Error Report} (hnamed : files.Named)
    (h : (publish c today).perform files = (result, after)) :
    (∀ loc, after.node? loc = files.node? loc ∨
      (Road c files.workingDir loc ∧ files.node? loc = none ∧ after.node? loc = some .directory) ∨
      Moved c today files loc ∨
      Landed c (pages c today files) loc ∧
        ((∃ date, Live c today files date ∧
          loc = ((c.directory .daily).join (c.dailyFileName date)).locate files.workingDir) ∨
        loc = c.indexPath.locate files.workingDir)) ∧
    (∀ path, result = .error (.templateMissing path) → after = files) ∧
    (∀ dir, result = .error (.emptyArchive dir) →
      files.Grown (· ∈ (c.directory .comics).lookups files.workingDir) after) ∧
    (∀ name ∈ staged c today files, ∀ content,
      files.node? ((c.directory .upload).locate files.workingDir ++ [name]) =
        some (.file content) →
      Landed c (pages c today files) ((c.directory .upload).locate files.workingDir ++ [name]) ∨
      Landed c (pages c today files) ((c.directory .comics).locate files.workingDir ++ [name]) ∨
      after.node? ((c.directory .upload).locate files.workingDir ++ [name]) =
        some (.file content) ∨
      after.node? ((c.directory .comics).locate files.workingDir ++ [name]) =
          some (.file content) ∧
        (after.node? ((c.directory .upload).locate files.workingDir ++ [name]) = none ∨
          Road c files.workingDir ((c.directory .upload).locate files.workingDir ++ [name]) ∧
            after.node? ((c.directory .upload).locate files.workingDir ++ [name]) =
              some .directory)) := by
  rw [perform_publish] at h
  -- the progress that is told along with the report is of no interest here
  generalize hrun : (publishWithProgress c today).perform files = outcome at h
  obtain ⟨result', after'⟩ := outcome
  obtain ⟨rfl, rfl⟩ := Prod.mk.inj h
  obtain ⟨hcourse, hends⟩ := course_of_publish hnamed hrun
  refine ⟨fun loc => ?_, fun path hresult => ?_, fun dir hresult => ?_,
    fun name _ content hnode => hcourse.not_lost hnamed hnode⟩
  · by_cases hmoved : Moved c today files loc
    · exact .inr (.inr (.inl hmoved))
    by_cases hlanded : Landed c (pages c today files) loc
    · refine .inr (.inr (.inr ⟨hlanded, ?_⟩))
      obtain ⟨page, hpage, -, rfl⟩ := hlanded
      exact location_of_mem_pages hpage
    · exact (hcourse.node hmoved hlanded).imp_right .inl
  · cases hends with
    | template heq => exact heq
    | _ => cases hresult
  · cases hends with
    | archive hgrown => exact hgrown
    | _ => cases hresult

/-! The second of two files that are due cannot be moved, because a directory has its name. -/

def blockedMove : FileTree where
  workingDir := []
  nodes :=
    [(["pages"], .directory),
      (["pages", "dailytemplate.html"], .file "x".toUTF8),
      (["comics"], .directory),
      (["comics", "20240102.png"], .directory),
      (["up"], .directory),
      (["up", "20240101.png"], .file "a".toUTF8),
      (["up", "20240102.png"], .file "b".toUTF8)]
  distinct := by decide

/-- The first file of `blockedMove` has arrived, and the second is where it was. -/
theorem publish_leaves_blocked_move :
    ∃ after, blockedMove.Named ∧
      (publish stagedSite secondDay).perform blockedMove =
        (.error (.move "./up/20240102.png" "./comics/20240102.png" .isADirectory), after) ∧
      after.node? ["comics", "20240101.png"] = some (.file "a".toUTF8) ∧
      after.node? ["up", "20240102.png"] = some (.file "b".toUTF8) := by
  have hnamed : blockedMove.Named := by decide +kernel
  obtain ⟨after, hrun⟩ : ∃ after, (publish stagedSite secondDay).perform blockedMove =
      (.error (.move "./up/20240102.png" "./comics/20240102.png" .isADirectory), after) :=
    Change.exists_outcome (by decide +kernel)
  obtain rfl : ((publish stagedSite secondDay).perform blockedMove).2 = after :=
    congrArg Prod.snd hrun
  have hpages : pages stagedSite secondDay blockedMove = [] :=
    List.length_eq_zero_iff.mp (by decide +kernel)
  have hupload : (stagedSite.directory .upload).locate blockedMove.workingDir = ["up"] := by
    decide +kernel
  have hcomics : (stagedSite.directory .comics).locate blockedMove.workingDir = ["comics"] := by
    decide +kernel
  obtain ⟨-, -, -, hlost⟩ := publish_leaves hnamed hrun
  rw [hpages, hupload, hcomics] at hlost
  refine ⟨_, hnamed, hrun, ?_, ?_⟩
  · rcases hlost "20240101.png" (by decide +kernel) "a".toUTF8 (by decide +kernel) with
      ⟨page, hpage, -⟩ | ⟨page, hpage, -⟩ | hstays | ⟨harrived, -⟩
    · cases hpage
    · cases hpage
    · exact absurd hstays (by decide +kernel)
    · exact harrived
  · rcases hlost "20240102.png" (by decide +kernel) "b".toUTF8 (by decide +kernel) with
      ⟨page, hpage, -⟩ | ⟨page, hpage, -⟩ | hstays | ⟨harrived, -⟩
    · cases hpage
    · cases hpage
    · exact hstays
    · exact absurd harrived (by decide +kernel)

end Webcomic.Site
