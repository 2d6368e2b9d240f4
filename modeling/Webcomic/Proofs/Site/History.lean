import Webcomic.Proofs.Site.Independence

/-!
# Publishing does not depend on what was published before

A run for one day and then a run for a later day leave the tree that the later run leaves alone,
with the same report but for the number of files that were moved (`publish_twice`).

The first run moves some of the files that the later one would have moved; the second moves the
rest. So once it is prepared, the tree differs from that of the later run alone only where the first
run has written pages (`Halfway.agreeOff_prepared`), and the archives are the same. From then on
both make the same pages, and the places where the trees differ become fewer with each
(`agreeOff_of_writeDailies`), until none is left: each page of the first run is made again.
-/

namespace Webcomic.Site

open Calendar Files Template Archive

variable {c : Config} {before today : Date} {files first mid second direct : FileTree}
  {edition edition₂ edition' : Edition} {loc : Location} {name : String} {X : Location → Prop}

/-! ## What was moved by half -/

/-- A tree, how a run was prepared for a day, and the tree after that run, which has written files
of `X` only. None of these is in the comics or the upload directory. -/
structure Halfway (c : Config) (before : Date) (files first mid : FileTree) (edition : Edition)
    (X : Location → Prop) : Prop where
  named : files.Named
  prepared : Prepared c before files edition first
  filled : first.Filled X mid
  comics : ∀ name, ¬ X ((c.directory .comics).locate files.workingDir ++ [name])
  upload : ∀ name, ¬ X ((c.directory .upload).locate files.workingDir ++ [name])

namespace Halfway

variable (h : Halfway c before files first mid edition X)
include h

theorem workingDir : mid.workingDir = files.workingDir :=
  h.filled.workingDir.trans h.prepared.keeps.workingDir

theorem node?_comics (name : String) :
    mid.node? ((c.directory .comics).locate files.workingDir ++ [name]) =
      first.node? ((c.directory .comics).locate files.workingDir ++ [name]) :=
  h.filled.agreeOff.node _ (h.comics name)

theorem node?_upload (name : String) :
    mid.node? ((c.directory .upload).locate files.workingDir ++ [name]) =
      first.node? ((c.directory .upload).locate files.workingDir ++ [name]) :=
  h.filled.agreeOff.node _ (h.upload name)

theorem isName_of_mem_staged : ∀ name ∈ staged c today files, IsName name :=
  fun _ hname => Site.isName_of_mem_staged h.named hname

section

variable (hne : (c.directory .upload).locate files.workingDir ≠
  (c.directory .comics).locate files.workingDir)
include hne

/-- A file that is not moved for the first day is staged halfway if it was. -/
theorem file_upload_iff (hname : name ∉ staged c before files) {content : ByteArray} :
    mid.node? ((c.directory .upload).locate files.workingDir ++ [name]) = some (.file content) ↔
      files.node? ((c.directory .upload).locate files.workingDir ++ [name]) =
        some (.file content) := by
  rw [h.node?_upload, h.prepared.file_iff]
  rwa [moved_upload_iff h.isName_of_mem_staged hne]

/-- **The files that are due later and were not moved yet are still staged**, and no others. -/
theorem mem_staged_iff :
    name ∈ staged c today mid ↔ name ∈ staged c today files ∧ name ∉ staged c before files := by
  rw [mem_staged, h.workingDir]
  constructor
  · rintro ⟨⟨content, hnode⟩, hdue⟩
    have hleft : name ∉ staged c before files := by
      intro hname
      obtain ⟨-, hgone⟩ := h.prepared.relocated h.isName_of_mem_staged hne name hname
      rw [h.node?_upload] at hnode
      -- a moved file is gone, and what was made in its place is no file
      by_cases hroad : Road c files.workingDir
          ((c.directory .upload).locate files.workingDir ++ [name])
      · rw [h.prepared.road _ hroad] at hnode
        cases hnode
      · rw [hgone hroad] at hnode
        cases hnode
    exact ⟨mem_staged.mpr ⟨⟨content, (h.file_upload_iff hne hleft).mp hnode⟩, hdue⟩, hleft⟩
  · rintro ⟨hname, hleft⟩
    obtain ⟨⟨content, hnode⟩, hdue⟩ := mem_staged.mp hname
    exact ⟨⟨content, (h.file_upload_iff hne hleft).mpr hnode⟩, hdue⟩

theorem isName_of_mem_staged_mid : ∀ name ∈ staged c today mid, IsName name :=
  fun _ hname => h.isName_of_mem_staged _ ((h.mem_staged_iff hne).mp hname).1

/-- A file that is due later and was not moved yet is what it was. -/
theorem node?_upload_of_mem (hname : name ∈ staged c today mid) :
    mid.node? ((c.directory .upload).locate files.workingDir ++ [name]) =
      files.node? ((c.directory .upload).locate files.workingDir ++ [name]) := by
  obtain ⟨hdue, hleft⟩ := (h.mem_staged_iff hne).mp hname
  obtain ⟨⟨content, hnode⟩, -⟩ := mem_staged.mp hdue
  rw [hnode, h.file_upload_iff hne hleft]
  exact hnode

variable (hle : before ≤ today) (h₂ : Prepared c today mid edition₂ second)
  (h' : Prepared c today files edition' direct)
include hle h₂ h'

/-- Each file arrives in the comics directory, by the first run or by the second. -/
theorem node?_comics_eq
    (hroad : ¬ Road c files.workingDir ((c.directory .comics).locate files.workingDir ++ [name])) :
    second.node? ((c.directory .comics).locate files.workingDir ++ [name]) =
      direct.node? ((c.directory .comics).locate files.workingDir ++ [name]) := by
  have hwd := h.workingDir
  have hroad₂ : ¬ Road c mid.workingDir
      ((c.directory .comics).locate mid.workingDir ++ [name]) := by
    rwa [hwd]
  have hsecond := h₂.node?_comics (h.isName_of_mem_staged_mid hne) (hwd ▸ hne) hroad₂
  rw [hwd] at hsecond
  rw [hsecond, h'.node?_comics h.isName_of_mem_staged hne hroad, h.node?_comics,
    h.prepared.node?_comics h.isName_of_mem_staged hne hroad]
  -- a file is due for the first day, or for the later alone, or for neither
  by_cases hsoon : name ∈ staged c before files
  · have hdue := (staged_sublist hle c files).subset hsoon
    have hmoved : name ∉ staged c today mid := fun hname =>
      ((h.mem_staged_iff hne).mp hname).2 hsoon
    rw [if_neg hmoved, if_pos hsoon, if_pos hdue]
  by_cases hdue : name ∈ staged c today files
  · have hleft : name ∈ staged c today mid := (h.mem_staged_iff hne).mpr ⟨hdue, hsoon⟩
    rw [if_pos hleft, if_pos hdue, h.node?_upload_of_mem hne hleft]
  · have hleft : name ∉ staged c today mid := fun hname =>
      hdue ((h.mem_staged_iff hne).mp hname).1
    rw [if_neg hleft, if_neg hsoon, if_neg hdue]

/-- And each leaves the upload directory. -/
theorem node?_upload_eq
    (hroad : ¬ Road c files.workingDir ((c.directory .upload).locate files.workingDir ++ [name])) :
    second.node? ((c.directory .upload).locate files.workingDir ++ [name]) =
      direct.node? ((c.directory .upload).locate files.workingDir ++ [name]) := by
  have hwd := h.workingDir
  have hroad₂ : ¬ Road c mid.workingDir
      ((c.directory .upload).locate mid.workingDir ++ [name]) := by
    rwa [hwd]
  have hsecond := h₂.node?_upload (h.isName_of_mem_staged_mid hne) (hwd ▸ hne) hroad₂
  rw [hwd] at hsecond
  rw [hsecond, h'.node?_upload h.isName_of_mem_staged hne hroad, h.node?_upload,
    h.prepared.node?_upload h.isName_of_mem_staged hne hroad]
  by_cases hsoon : name ∈ staged c before files
  · have hdue := (staged_sublist hle c files).subset hsoon
    rw [if_pos hsoon, if_pos hdue, ite_self]
  by_cases hdue : name ∈ staged c today files
  · rw [if_pos ((h.mem_staged_iff hne).mpr ⟨hdue, hsoon⟩), if_pos hdue]
  · have hleft : name ∉ staged c today mid := fun hname =>
      hdue ((h.mem_staged_iff hne).mp hname).1
    rw [if_neg hleft, if_neg hsoon, if_neg hdue]

end

/-- **Prepared halfway, the tree is as if it had been prepared at once**, but for what was written
after the first preparation. -/
theorem agreeOff_prepared (hle : before ≤ today) (h₂ : Prepared c today mid edition₂ second)
    (h' : Prepared c today files edition' direct) : direct.AgreeOff X second := by
  have hwd := h.workingDir
  refine ⟨h₂.keeps.workingDir.trans (hwd.trans h'.keeps.workingDir.symm), fun loc hX => ?_⟩
  by_cases hroad : Road c files.workingDir loc
  · rw [h'.road loc hroad, h₂.road loc (hwd ▸ hroad)]
  by_cases hcomics : ∃ name, loc = (c.directory .comics).locate files.workingDir ++ [name] ∧
      (c.directory .upload).locate files.workingDir ≠ (c.directory .comics).locate files.workingDir
  · obtain ⟨name, rfl, hne⟩ := hcomics
    exact h.node?_comics_eq hne hle h₂ h' hroad
  by_cases hupload : ∃ name, loc = (c.directory .upload).locate files.workingDir ++ [name] ∧
      (c.directory .upload).locate files.workingDir ≠ (c.directory .comics).locate files.workingDir
  · obtain ⟨name, rfl, hne⟩ := hupload
    exact h.node?_upload_eq hne hle h₂ h' hroad
  -- elsewhere nothing is moved
  have hstays : ∀ {t : FileTree} {day : Date}, t.workingDir = files.workingDir →
      ((c.directory .upload).locate files.workingDir ≠
        (c.directory .comics).locate files.workingDir → ∀ name ∈ staged c day t, IsName name) →
      ¬ Moved c day t loc := by
    intro t day ht hnames hmoved
    have hne := ht ▸ hmoved.1
    obtain ⟨-, name, -, hloc | hloc⟩ := (moved_iff (hnames hne)).mp hmoved
    · exact hupload ⟨name, ht ▸ hloc, hne⟩
    · exact hcomics ⟨name, ht ▸ hloc, hne⟩
  rw [h₂.node?_eq (hstays hwd h.isName_of_mem_staged_mid) (hwd ▸ hroad),
    h.filled.agreeOff.node loc hX,
    h.prepared.node?_eq (hstays rfl fun _ => h.isName_of_mem_staged) hroad,
    h'.node?_eq (hstays rfl fun _ => h.isName_of_mem_staged) hroad]

theorem archive_eq (hle : before ≤ today) (h₂ : Prepared c today mid edition₂ second)
    (h' : Prepared c today files edition' direct) : edition₂.archive = edition'.archive := by
  have hagree := h.agreeOff_prepared hle h₂ h'
  rw [h₂.archive_eq, h'.archive_eq, h.workingDir]
  refine upTo_ofEntries_congr (second.nodup_entries _) (direct.nodup_entries _) fun name _ _ _ => ?_
  simp only [FileTree.mem_entries, hagree.node _ (h.comics name)]

/-- The days that are published for the first day are published for the later. -/
theorem dates_subset (hle : before ≤ today) (h' : Prepared c today files edition' direct) :
    ∀ date ∈ edition.archive.dates, date ∈ edition'.archive.dates := by
  intro date hdate
  rw [h.prepared.mem_dates] at hdate
  obtain ⟨hlive, name, hname, content, hnode⟩ := hdate
  rw [h'.mem_dates]
  refine ⟨hlive.trans hle, name, hname, ?_⟩
  by_cases hsame : (c.directory .upload).locate files.workingDir =
      (c.directory .comics).locate files.workingDir
  · rw [h.prepared.file_iff _ _ fun hmoved => hmoved.1 hsame] at hnode
    exact ⟨content, (h'.file_iff _ _ fun hmoved => hmoved.1 hsame).mpr hnode⟩
  by_cases hdue : name ∈ staged c today files
  · -- a staged file of that name takes the place of the other
    obtain ⟨⟨content', hstaged⟩, -⟩ := mem_staged.mp hdue
    have harrived := h'.relocated h.isName_of_mem_staged hsame name hdue
    exact ⟨content', harrived.1.trans hstaged⟩
  · -- the file was there before either run, and neither moves it
    have hsoon : name ∉ staged c before files :=
      fun hmem => hdue ((staged_sublist hle c files).subset hmem)
    rw [h.prepared.file_iff] at hnode
    · exact ⟨content, (h'.file_iff _ _
        (mt (moved_comics_iff h.isName_of_mem_staged hsame).mp hdue)).mpr hnode⟩
    · exact mt (moved_comics_iff h.isName_of_mem_staged hsame).mp hsoon

/-! ### The number of files that are moved -/

/-- Directories that name one location are seen to be the same halfway: by now both are there. -/
theorem same_of_locate_eq
    (heq : (c.directory .upload).locate files.workingDir =
      (c.directory .comics).locate files.workingDir) :
    mid.same (c.directory .upload) (c.directory .comics) = true := by
  have hstays : ∀ (p : Path) (loc : Location) (node : Node), files.resolve p = .ok (loc, node) →
      ∃ node', mid.resolve p = .ok (loc, node') := by
    intro p loc node hp
    obtain ⟨_, hp⟩ := h.prepared.resolve (fun hmoved => hmoved.1 heq) hp
    exact h.filled.resolve hp
  rcases h.prepared.upload with hsame | hupload
  · -- they were seen to be the same, and what they lead to has stayed
    exact FileTree.same_of_resolve (hstays _) (hstays _) hsame
  · -- or both were directories when the first run had made them
    rw [FileTree.same, h.filled.keeps.resolve_directory hupload,
      h.filled.keeps.resolve_directory h.prepared.comics, heq]
    exact decide_eq_true rfl

/-- What is due later has been moved already, or is still staged. -/
theorem perm_staged (hle : before ≤ today)
    (hne : (c.directory .upload).locate files.workingDir ≠
      (c.directory .comics).locate files.workingDir) :
    (staged c before files ++ staged c today mid).Perm (staged c today files) := by
  have hdisjoint : (staged c before files).Disjoint (staged c today mid) :=
    fun _ hsoon hleft => ((h.mem_staged_iff hne).mp hleft).2 hsoon
  rw [List.perm_ext_iff_of_nodup
    ((nodup_staged c before files).append (nodup_staged c today mid) hdisjoint)
    (nodup_staged c today files)]
  intro name
  rw [List.mem_append, h.mem_staged_iff hne]
  constructor
  · rintro (hsoon | ⟨hdue, -⟩)
    · exact (staged_sublist hle c files).subset hsoon
    · exact hdue
  · intro hdue
    exact (Classical.em (name ∈ staged c before files)).imp_right fun hleft => ⟨hdue, hleft⟩

/-- **The numbers add up** if the directories differ. If they do not, the second run moves nothing,
and the others count what is due unless they see it. -/
theorem filesMoved_add_iff (hle : before ≤ today) (h₂ : Prepared c today mid edition₂ second)
    (h' : Prepared c today files edition' direct) :
    edition.filesMoved + edition₂.filesMoved = edition'.filesMoved ↔
      ((c.directory .upload).locate files.workingDir =
          (c.directory .comics).locate files.workingDir →
        files.same (c.directory .upload) (c.directory .comics) = true ∨
          staged c before files = staged c today files) := by
  have hwd := h.workingDir
  rw [h.prepared.count, h₂.count, h'.count]
  by_cases heq : (c.directory .upload).locate files.workingDir =
      (c.directory .comics).locate files.workingDir
  · -- the second run moves nothing, so the others must count the same
    rw [h.same_of_locate_eq heq, if_pos rfl, Nat.add_zero]
    cases files.same (c.directory .upload) (c.directory .comics) with
    | true => simp
    | false =>
      simp only [Bool.false_eq_true, if_false, heq, forall_const, false_or]
      exact ⟨(staged_sublist hle c files).eq_of_length, congrArg List.length⟩
  · -- different directories are never taken for one, so that every run counts what it moves
    have hdiffer : ∀ {t : FileTree}, t.workingDir = files.workingDir →
        t.same (c.directory .upload) (c.directory .comics) = false := by
      intro t ht
      refine Bool.eq_false_iff.mpr fun hsame => heq ?_
      rw [← ht]
      exact FileTree.locate_eq_of_same hsame
    rw [hdiffer rfl, hdiffer hwd]
    simp only [Bool.false_eq_true, if_false, heq, false_implies, iff_true]
    rw [← List.length_append]
    exact (h.perm_staged hle heq).length_eq

/-- **Nothing is left to move for the same day.** -/
theorem filesMoved_eq_zero (h₂ : Prepared c before mid edition₂ second) :
    edition₂.filesMoved = 0 := by
  rw [h₂.count]
  split
  · rfl
  next hdiffer =>
    have hne := fun heq => hdiffer (h.same_of_locate_eq heq)
    refine List.length_eq_zero_iff.mpr (List.eq_nil_iff_forall_not_mem.mpr fun name hname => ?_)
    obtain ⟨hsoon, hleft⟩ := (h.mem_staged_iff hne).mp hname
    exact hleft hsoon

end Halfway

/-! ## The pages of two runs -/

section

variable {archive : Archive} {tags tags' tags₁ tags₁' : PageTags Memory} {t t' s s' : FileTree}
  {dates : List Date} {latest : Date} (hserve : BothServe archive c tags tags')
  (hagree : t.AgreeOff X t')
include hserve hagree

/-- **With each daily page that both runs write, their trees agree at one more place.** -/
theorem agreeOff_of_writeDailies
    (hlooks : ∀ page ∈ dailyPages c today tags t dates, ∀ path, page.rendering.LooksUp c path →
      path.Avoids t.workingDir X)
    (h : (writeDailies c today tags dates).perform t = (.ok tags₁, s))
    (h' : (writeDailies c today tags' dates).perform t' = (.ok tags₁', s')) :
    s.AgreeOff (fun loc => X loc ∧ ¬ DailyLocation c t.workingDir dates loc) s' := by
  induction dates generalizing X tags tags' t t' with
  | nil =>
    cases h
    cases h'
    exact hagree.mono fun loc hloc => ⟨hloc, fun ⟨_, hmem, _⟩ => List.not_mem_nil hmem⟩
  | cons date dates ih =>
    obtain ⟨mid, hwrite, hrest⟩ := writeDailies_cons_eq_ok h
    obtain ⟨mid', hwrite', hrest'⟩ := writeDailies_cons_eq_ok h'
    rw [dailyPages_cons hwrite] at hlooks
    rw [content_dailyPage_eq hserve hagree (hlooks _ List.mem_cons_self)] at hwrite'
    obtain ⟨htarget, hmid⟩ := FileTree.set_of_write hwrite
    obtain ⟨-, hmid'⟩ := FileTree.set_of_write hwrite'
    have hwd : mid.workingDir = t.workingDir := (FileTree.filled_of_write hwrite).workingDir
    -- both have written the same, so the trees agree there from now on
    have hmids : mid.AgreeOff (fun loc => X loc ∧ loc ≠ (c.dailyPath date).locate t.workingDir)
        mid' := by
      rw [hmid, hmid', hagree.workingDir]
      exact hagree.set (FileTree.namesEntry_of_writeTarget htarget).1.ne_nil
    have hrests := ih (bothServe_dailyPage hserve today date _ _) hmids ?_ hrest hrest'
    · refine hrests.mono fun loc hloc => ⟨hloc.1.1, ?_⟩
      rintro ⟨date', hmem, heq⟩
      rcases List.mem_cons.mp hmem with rfl | hmem
      · exact hloc.1.2 heq
      · exact hloc.2 ⟨date', hmem, hwd ▸ heq⟩
    · rw [hwd]
      exact fun page hpage path hpath loc hloc hX =>
        hlooks page (List.mem_cons_of_mem _ hpage) path hpath loc hloc hX.1

/-- The front page is written by both runs or by neither. -/
theorem agreeOff_of_writeIndex {front front' : Bool}
    (hfile : t'.isFile c.indexTemplatePath = t.isFile c.indexTemplatePath)
    (hlooks : front = true → ∀ path,
      (frontPage c today tags t latest).rendering.LooksUp c path → path.Avoids t.workingDir X)
    (h : (writeIndex c today tags latest).perform t = (.ok front, s))
    (h' : (writeIndex c today tags' latest).perform t' = (.ok front', s')) :
    front' = front ∧ s.AgreeOff (fun loc => X loc ∧
      ¬ (front = true ∧ loc = c.indexPath.locate t.workingDir)) s' := by
  -- the template is there for both runs or for neither
  rcases writeIndex_eq_ok h with ⟨rfl, hno, rfl⟩ | ⟨rfl, hyes, hwrite⟩
  · rcases writeIndex_eq_ok h' with ⟨rfl, -, rfl⟩ | ⟨-, hyes', -⟩
    · exact ⟨rfl, hagree.mono fun loc hloc => ⟨hloc, nofun⟩⟩
    · rw [hfile, hno] at hyes'
      cases hyes'
  · rcases writeIndex_eq_ok h' with ⟨-, hno', -⟩ | ⟨rfl, -, hwrite'⟩
    · rw [hfile, hyes] at hno'
      cases hno'
    · rw [content_frontPage_eq hserve hagree (hlooks rfl)] at hwrite'
      obtain ⟨htarget, hmid⟩ := FileTree.set_of_write hwrite
      obtain ⟨-, hmid'⟩ := FileTree.set_of_write hwrite'
      refine ⟨rfl, ?_⟩
      rw [hmid, hmid', hagree.workingDir]
      refine (hagree.set (FileTree.namesEntry_of_writeTarget htarget).1.ne_nil).mono ?_
      exact fun loc hloc => ⟨hloc.1, fun hfront => hloc.2 hfront.2⟩

end

/-! ## Runs that stay out of each other's way -/

/-- Some runs, by their days and the trees that they start from, such that no file that pages of one
of them look up is moved or written by any of them, and none writes a page into the comics or the
upload directory. -/
structure Undisturbed (c : Config) (runs : List (Date × FileTree)) : Prop where
  looks : ∀ run ∈ runs, ∀ page ∈ pages c run.1 run.2, ∀ path, page.rendering.LooksUp c path →
    ∀ other ∈ runs, path.Avoids run.2.workingDir fun loc =>
      Moved c other.1 other.2 loc ∨ Written c other.1 other.2 loc
  apart : ∀ run ∈ runs, ∀ page ∈ pages c run.1 run.2,
    page.location.dropLast ≠ (c.directory .comics).locate run.2.workingDir ∧
      page.location.dropLast ≠ (c.directory .upload).locate run.2.workingDir

/-- A run that is in nobody's way. -/
theorem Steps.halfway {tags : PageTags Memory} {written : FileTree} {front : Bool}
    (h : Steps c before files edition first tags written front mid) (hnamed : files.Named)
    (hapart : ∀ page ∈ pages c before files,
      page.location.dropLast ≠ (c.directory .comics).locate files.workingDir ∧
        page.location.dropLast ≠ (c.directory .upload).locate files.workingDir) :
    Halfway c before files first mid edition (Written c before files) where
  named := hnamed
  prepared := h.isPrepared
  filled := h.filled
  comics := by
    rintro name ⟨page, hpage, hloc⟩
    refine (hapart page hpage).1 ?_
    rw [← hloc, List.dropLast_concat]
  upload := by
    rintro name ⟨page, hpage, hloc⟩
    refine (hapart page hpage).2 ?_
    rw [← hloc, List.dropLast_concat]

section

variable {tags₁ tags₂ tags : PageTags Memory} {written₁ written₂ written after result : FileTree}
  {front₁ front₂ front : Bool}
  (h₁ : Steps c before files edition first tags₁ written₁ front₁ mid)
  (h₂ : Steps c today mid edition₂ second tags₂ written₂ front₂ after)
  (hfree : Undisturbed c [(before, files), (today, mid), (today, files)])
include h₁ h₂ hfree

/-- If the first run writes the front page, so does the second. -/
theorem front_of_front (hfront : front₁ = true) : front₂ = true := by
  rcases writeIndex_eq_ok h₁.index with ⟨hfalse, -⟩ | ⟨-, hfile, -⟩
  · rw [hfront] at hfalse
    cases hfalse
  -- the template is looked up, and so is nowhere that a run moves a file or writes a page
  have hlooks : ∀ other ∈ [(before, files), (today, mid), (today, files)],
      c.indexTemplatePath.Avoids files.workingDir fun loc =>
        Moved c other.1 other.2 loc ∨ Written c other.1 other.2 loc :=
    hfree.looks (before, files) (by simp) _ (h₁.frontPage_mem hfront) _
      (Rendering.looksUp_template _ c)
  have hwritten₁ : c.indexTemplatePath.Avoids files.workingDir (Written c before files) :=
    fun loc hloc hwritten => hlooks (before, files) (by simp) loc hloc (.inr hwritten)
  have hmoved₂ : c.indexTemplatePath.Avoids files.workingDir (Moved c today mid) :=
    fun loc hloc hmoved => hlooks (today, mid) (by simp) loc hloc (.inl hmoved)
  have hwd := h₁.filled.workingDir.trans h₁.isPrepared.keeps.workingDir
  have hwritten₂ : c.indexTemplatePath.Avoids second.workingDir
      (DailyLocation c mid.workingDir edition₂.archive.dates) := by
    intro loc hloc hdaily
    rw [h₂.isPrepared.keeps.workingDir, hwd] at hloc
    exact hlooks (today, mid) (by simp) loc hloc (.inr (h₂.written_iff.mpr (.inl hdaily)))
  have hmid : mid.isFile c.indexTemplatePath = true := by
    rw [h₁.filled_front_written.agreeOff.isFile (h₁.workingDir_written ▸ hwritten₁), hfile]
  have hsecond : second.isFile c.indexTemplatePath = true :=
    h₂.isPrepared.isFile (hwd ▸ hmoved₂) hmid
  rcases writeIndex_eq_ok h₂.index with ⟨-, hno, -⟩ | ⟨htrue, -, -⟩
  · rw [h₂.filled_written.agreeOff.isFile hwritten₂, hsecond] at hno
    cases hno
  · exact htrue

/-- Where a run does not look up the template of the front page, there is none. -/
theorem isFile_indexTemplate_eq (h : Steps c today files edition' direct tags written front result)
    (hagree : written.AgreeOff X written₂) (hX : ∀ loc, X loc → Written c before files loc) :
    written₂.isFile c.indexTemplatePath = written.isFile c.indexTemplatePath := by
  have hwd := h₁.filled.workingDir.trans h₁.isPrepared.keeps.workingDir
  have hcongr : c.indexTemplatePath.Avoids files.workingDir (Written c before files) →
      written₂.isFile c.indexTemplatePath = written.isFile c.indexTemplatePath := by
    intro havoids
    refine hagree.isFile fun loc hloc hXloc => havoids loc ?_ (hX loc hXloc)
    rwa [h.workingDir_written] at hloc
  -- a run that writes the front page looks up its template, so the first run has not written it
  rcases writeIndex_eq_ok h.index with ⟨-, hno, -⟩ | ⟨hfront, -, -⟩
  · rcases writeIndex_eq_ok h₂.index with ⟨-, hno₂, -⟩ | ⟨hfront₂, -, -⟩
    · rw [hno, hno₂]
    · refine hcongr fun loc hloc hwritten => ?_
      rw [← hwd] at hloc
      exact hfree.looks (today, mid) (by simp) _ (h₂.frontPage_mem hfront₂) _
        (Rendering.looksUp_template _ c) (before, files) (by simp) loc hloc (.inr hwritten)
  · refine hcongr fun loc hloc hwritten => ?_
    exact hfree.looks (today, files) (by simp) _ (h.frontPage_mem hfront) _
      (Rendering.looksUp_template _ c) (before, files) (by simp) loc hloc (.inr hwritten)

/-- **Two runs leave what the later one leaves alone.** -/
theorem Steps.twice (hle : before ≤ today) (hnamed : files.Named)
    (h : Steps c today files edition' direct tags written front result) :
    edition₂.archive = edition'.archive ∧ edition₂.latest = edition'.latest ∧ front₂ = front ∧
      after.AgreeOff (fun _ => False) result := by
  have half := h₁.halfway hnamed (hfree.apart (before, files) (by simp))
  have harchive := half.archive_eq hle h₂.isPrepared h.isPrepared
  have hlatest : edition₂.latest = edition'.latest := by
    obtain ⟨names₂, hlast₂⟩ := edition₂.exists_last?
    obtain ⟨names, hlast⟩ := edition'.exists_last?
    rw [harchive, hlast] at hlast₂
    exact (congrArg Prod.fst (Option.some.inj hlast₂)).symm
  have hagree := half.agreeOff_prepared hle h₂.isPrepared h.isPrepared
  have hwd := h.isPrepared.keeps.workingDir
  -- what pages of the later run alone look up, the first run has not written
  have hlooks : ∀ page ∈ pages c today files, ∀ path, page.rendering.LooksUp c path →
      path.Avoids files.workingDir (Written c before files) :=
    fun page hpage path hpath loc hloc hwritten =>
      hfree.looks (today, files) (by simp) page hpage path hpath (before, files) (by simp) loc hloc
        (.inr hwritten)
  have hdailies₂ := h₂.dailies
  have hindex₂ := h₂.index
  rw [harchive] at hdailies₂
  rw [hlatest] at hindex₂
  have hwritten := agreeOff_of_writeDailies (bothServe_firstTags c edition'.archive) hagree
    (fun page hpage path hpath => hwd ▸ hlooks page (h.mem_pages_iff.mpr (.inl hpage)) path hpath)
    h.dailies hdailies₂
  have hfile := isFile_indexTemplate_eq h₁ h₂ hfree h hwritten fun _ hloc => hloc.1
  obtain ⟨hfronts, hresult⟩ :=
    agreeOff_of_writeIndex ⟨h.serves, harchive ▸ h₂.serves⟩ hwritten hfile
      (fun hfront path hpath loc hloc hleft => hlooks _ (h.frontPage_mem hfront) path hpath loc
        (h.workingDir_written ▸ hloc) hleft.1) h.index hindex₂
  refine ⟨harchive, hlatest, hfronts, (hresult.mono fun loc hloc => ?_).symm⟩
  -- each page of the first run has been made again
  obtain ⟨⟨hloc, hdaily⟩, hnotFront⟩ := hloc
  rw [hwd] at hdaily
  rw [h.workingDir_written] at hnotFront
  rcases h₁.written_iff.mp hloc with ⟨date, hdate, heq⟩ | ⟨hfront₁, heq⟩
  · exact hdaily ⟨date, half.dates_subset hle h.isPrepared date hdate, heq⟩
  · exact hnotFront ⟨hfronts ▸ front_of_front h₁ h₂ hfree hfront₁, heq⟩

end

/-- **Publishing does not depend on what was published before.** A run for a day and then one for
the same or a later day leave what the later run leaves alone, and the later reports are the same
but for the number of files that were moved. A run for the same day moves nothing and changes
nothing.

The numbers of moved files add up where the upload directory and the comics directory are different
or are seen to be the same. They are compared before the comics directory is made, so a run that
makes it counts each file that is due, though it stays where it is. -/
theorem publish_twice {report₁ report₂ report : Report}
    {progress₁ progress₂ progress : List Progress} (hle : before ≤ today) (hnamed : files.Named)
    (h₁ : (publishWithProgress c before).perform files = (.ok (report₁, progress₁), mid))
    (h₂ : (publishWithProgress c today).perform mid = (.ok (report₂, progress₂), after))
    (h : (publishWithProgress c today).perform files = (.ok (report, progress), result))
    (hfree : Undisturbed c [(before, files), (today, mid), (today, files)]) :
    (after.workingDir = result.workingDir ∧ ∀ loc, after.node? loc = result.node? loc) ∧
    { report₂ with filesMoved := report.filesMoved } = report ∧ progress₂ = progress ∧
    (before = today → report₂.filesMoved = 0 ∧
      after.workingDir = mid.workingDir ∧ ∀ loc, after.node? loc = mid.node? loc) ∧
    (report₁.filesMoved + report₂.filesMoved = report.filesMoved ↔
      ((c.directory .upload).locate files.workingDir =
          (c.directory .comics).locate files.workingDir →
        files.same (c.directory .upload) (c.directory .comics) = true ∨
          staged c before files = staged c today files)) := by
  obtain ⟨edition, first, tags₁, written₁, hsteps₁, hreport₁, -⟩ := steps_of_publish h₁
  obtain ⟨edition₂, second, tags₂, written₂, hsteps₂, hreport₂, hprogress₂⟩ := steps_of_publish h₂
  obtain ⟨edition', direct, tags, written, hsteps, hreport, hprogress⟩ := steps_of_publish h
  have half := hsteps₁.halfway hnamed (hfree.apart (before, files) (by simp))
  obtain ⟨harchive, hlatest, hfront, hagree⟩ := hsteps₁.twice hsteps₂ hfree hle hnamed hsteps
  have hresult : after.workingDir = result.workingDir ∧ ∀ loc, after.node? loc = result.node? loc :=
    ⟨hagree.workingDir.symm, fun loc => (hagree.node loc id).symm⟩
  refine ⟨hresult, ?_, ?_, ?_, ?_⟩
  · rw [hreport₂, hreport, harchive, hlatest, hfront]
  · rw [hprogress₂, hprogress, harchive]
  · rintro rfl
    obtain rfl : mid = result := congrArg Prod.snd (h₁.symm.trans h)
    refine ⟨?_, hresult⟩
    rw [hreport₂]
    exact half.filesMoved_eq_zero hsteps₂.isPrepared
  · rw [hreport₁, hreport₂, hreport]
    exact half.filesMoved_add_iff hle hsteps₂.isPrepared hsteps.isPrepared

/-! The comics directory is the upload directory, by way of a directory that the first run makes. -/

theorem undisturbed_of_lookedUp {runs : List (Date × FileTree)} (steps : Nat)
    (hlooks : ∀ run ∈ runs, ∀ page ∈ pages c run.1 run.2,
      ∃ paths ∈ page.rendering.lookedUp c steps, ∀ path ∈ paths, ∀ other ∈ runs,
        path.Avoids run.2.workingDir fun loc =>
          Moved c other.1 other.2 loc ∨ Written c other.1 other.2 loc)
    (hapart : ∀ run ∈ runs, ∀ page ∈ pages c run.1 run.2,
      page.location.dropLast ≠ (c.directory .comics).locate run.2.workingDir ∧
        page.location.dropLast ≠ (c.directory .upload).locate run.2.workingDir) :
    Undisturbed c runs where
  looks := by
    intro run hrun page hpage path hpath
    obtain ⟨paths, hpaths, havoids⟩ := hlooks run hrun page hpage
    exact havoids path (hpath.mem_lookedUp hpaths)
  apart := hapart

/-- A site whose comics are published where they are uploaded. -/
def detourSite : Config := { uploadDir := "up", comicsDir := "new/../up" }

def twoStaged : FileTree where
  workingDir := []
  nodes :=
    [(["pages"], .directory),
      (["pages", "dailytemplate.html"], .file "x".toUTF8),
      (["up"], .directory),
      (["up", "20240101.png"], .file "a".toUTF8),
      (["up", "20240102.png"], .file "b".toUTF8)]
  distinct := by decide

/-- The first day of `twoStaged` and then the second, and the second alone: one file is counted,
then none, and two at once. -/
theorem publish_twice_two_staged :
    ∃ mid after result, firstDay ≤ secondDay ∧ twoStaged.Named ∧
      (publishWithProgress detourSite firstDay).perform twoStaged =
        (.ok (⟨1, 1, false, some firstDay⟩, [⟨firstDay, 1, 1⟩]), mid) ∧
      (publishWithProgress detourSite secondDay).perform mid =
        (.ok (⟨0, 2, false, some secondDay⟩, [⟨firstDay, 1, 2⟩, ⟨secondDay, 2, 2⟩]), after) ∧
      (publishWithProgress detourSite secondDay).perform twoStaged =
        (.ok (⟨2, 2, false, some secondDay⟩, [⟨firstDay, 1, 2⟩, ⟨secondDay, 2, 2⟩]), result) ∧
      Undisturbed detourSite [(firstDay, twoStaged), (secondDay, mid), (secondDay, twoStaged)] ∧
      ∀ loc, after.node? loc = result.node? loc := by
  have hnamed : twoStaged.Named := by decide +kernel
  obtain ⟨mid, h₁⟩ : ∃ mid, (publishWithProgress detourSite firstDay).perform twoStaged =
      (.ok (⟨1, 1, false, some firstDay⟩, [⟨firstDay, 1, 1⟩]), mid) :=
    Change.exists_outcome (by decide +kernel)
  obtain rfl : ((publishWithProgress detourSite firstDay).perform twoStaged).2 = mid :=
    congrArg Prod.snd h₁
  obtain ⟨after, h₂⟩ : ∃ after, (publishWithProgress detourSite secondDay).perform
      ((publishWithProgress detourSite firstDay).perform twoStaged).2 =
        (.ok (⟨0, 2, false, some secondDay⟩, [⟨firstDay, 1, 2⟩, ⟨secondDay, 2, 2⟩]), after) :=
    Change.exists_outcome (by decide +kernel)
  obtain ⟨result, h⟩ : ∃ result, (publishWithProgress detourSite secondDay).perform twoStaged =
      (.ok (⟨2, 2, false, some secondDay⟩, [⟨firstDay, 1, 2⟩, ⟨secondDay, 2, 2⟩]), result) :=
    Change.exists_outcome (by decide +kernel)
  have hfree : Undisturbed detourSite [(firstDay, twoStaged),
      (secondDay, ((publishWithProgress detourSite firstDay).perform twoStaged).2),
      (secondDay, twoStaged)] :=
    undisturbed_of_lookedUp 50 (by decide +kernel) (by decide +kernel)
  have htwice := publish_twice (by decide) hnamed h₁ h₂ h hfree
  exact ⟨_, after, result, by decide, hnamed, h₁, h₂, h, hfree, htwice.1.2⟩

end Webcomic.Site
