import Webcomic.Proofs.Archive.Contents
import Webcomic.Proofs.Files.Listing
import Webcomic.Proofs.Site.Change
import Webcomic.Site.Publish

/-!
# What preparing a run does to the files

Before it writes a page, a run moves the staged comics that are due and makes the directories it
needs. `Prepared` says what the tree is then: the locations of the moved files aside (`Moved`),
every file is where it was, the ways to the directories are there (`Road`), each moved file is in
the comics directory, and the archive that is published is the live archive of the tree.

`PromoteOutcome` and `PrepareOutcome` list the ways in which a promotion and a preparation can end,
also those that fail. What is known of either is read off them.
-/

namespace Webcomic.Site

open Calendar Files Archive

variable {c : Config} {today : Date} {files mid after : FileTree} {loc : Location} {name : String}
  {names : List String} {upload comics : Path} {entries : List (String × Node)}

/-! ## The files that are due -/

/-- The names of the comic files that are due. -/
def dueFiles (today : Date) (entries : List (String × Node)) : List String :=
  ((datedFiles entries).filter fun (date, _) => date ≤ today).map Prod.snd

theorem mem_dueFiles :
    name ∈ dueFiles today entries ↔
      (∃ content, (name, .file content) ∈ entries) ∧
        ∃ date, dateOfName? name = some date ∧ date ≤ today := by
  rw [dueFiles, List.mem_map]
  constructor
  · rintro ⟨⟨date, name⟩, hmem, rfl⟩
    obtain ⟨hdated, hdue⟩ := List.mem_filter.mp hmem
    obtain ⟨hfile, hdate⟩ := mem_datedFiles.mp hdated
    exact ⟨hfile, date, hdate, by simpa using hdue⟩
  · rintro ⟨hfile, date, hdate, hdue⟩
    refine ⟨(date, name), List.mem_filter.mpr ⟨mem_datedFiles.mpr ⟨hfile, hdate⟩, ?_⟩, rfl⟩
    simpa using hdue

theorem nodup_dueFiles (h : (entries.map Prod.fst).Nodup) : (dueFiles today entries).Nodup :=
  (h.sublist (sublist_datedFiles entries)).sublist (List.filter_sublist.map _)

theorem dueFiles_plain : dueFiles today (entries.filter (·.2.isFile)) = dueFiles today entries := by
  rw [dueFiles, datedFiles_plain]
  rfl

theorem dueFiles_cons (entry : String × Node) (entries : List (String × Node)) :
    dueFiles today (entry :: entries) = dueFiles today [entry] ++ dueFiles today entries := by
  have hdated : datedFiles (entry :: entries) = datedFiles [entry] ++ datedFiles entries :=
    List.filterMap_append (l := [entry])
  rw [dueFiles, hdated, List.filter_append, List.map_append]
  rfl

/-- What is dated later makes no difference. -/
theorem dueFiles_filter {keep : String × Node → Bool}
    (h : ∀ entry, keep entry = false → ∀ date, dateOfName? entry.1 = some date → today < date) :
    dueFiles today (entries.filter keep) = dueFiles today entries := by
  induction entries with
  | nil => rfl
  | cons entry entries ih =>
    cases hkeep : keep entry with
    | true => rw [List.filter_cons_of_pos hkeep, dueFiles_cons, ih, ← dueFiles_cons]
    | false =>
      have hnil : dueFiles today [entry] = [] := by
        refine List.eq_nil_iff_forall_not_mem.mpr fun name hname => ?_
        obtain ⟨⟨content, hmem⟩, date, hdate, hdue⟩ := mem_dueFiles.mp hname
        obtain rfl := List.mem_singleton.mp hmem
        exact absurd hdue (h _ hkeep date hdate).not_ge
      rw [List.filter_cons_of_neg (by simp [hkeep]), dueFiles_cons, hnil, List.nil_append, ih]

/-- The staged files that are due. -/
def staged (c : Config) (today : Date) (files : FileTree) : List String :=
  dueFiles today (files.entries ((c.directory .upload).locate files.workingDir))

/-- A run moves a file from here or to here. -/
def Moved (c : Config) (today : Date) (files : FileTree) (loc : Location) : Prop :=
  (c.directory .upload).locate files.workingDir ≠ (c.directory .comics).locate files.workingDir ∧
    ∃ name ∈ staged c today files,
      loc = ((c.directory .upload).join name).locate files.workingDir ∨
        loc = ((c.directory .comics).join name).locate files.workingDir

instance (loc : Location) : Decidable (Moved c today files loc) := by
  unfold Moved; infer_instance

/-- The location is on the way to a directory that a run makes. -/
def Road (c : Config) (wd : Location) (loc : Location) : Prop :=
  loc ∈ (c.directory .comics).lookups wd ∨ loc ∈ (c.directory .daily).lookups wd

theorem mem_staged :
    name ∈ staged c today files ↔
      (∃ content, files.node? ((c.directory .upload).locate files.workingDir ++ [name]) =
        some (.file content)) ∧ ∃ date, dateOfName? name = some date ∧ date ≤ today := by
  rw [staged, mem_dueFiles]
  simp only [FileTree.mem_entries]

theorem nodup_staged (c : Config) (today : Date) (files : FileTree) :
    (staged c today files).Nodup :=
  nodup_dueFiles (files.nodup_entries _)

/-- Staged files have names. -/
theorem isName_of_mem_staged (hnamed : files.Named) (h : name ∈ staged c today files) :
    IsName name := by
  obtain ⟨⟨content, hnode⟩, -⟩ := mem_staged.mp h
  exact hnamed _ _ _ hnode

/-- The files that are moved, by their places in the two directories. -/
theorem moved_iff (hnames : ∀ name ∈ staged c today files, IsName name) :
    Moved c today files loc ↔
      (c.directory .upload).locate files.workingDir ≠
          (c.directory .comics).locate files.workingDir ∧
        ∃ name ∈ staged c today files,
          loc = (c.directory .upload).locate files.workingDir ++ [name] ∨
            loc = (c.directory .comics).locate files.workingDir ++ [name] := by
  refine and_congr_right fun _ => exists_congr fun name => and_congr_right fun hname => ?_
  rw [Path.locate_join (hnames name hname), Path.locate_join (hnames name hname)]

theorem moved_comics_iff (hnames : ∀ name ∈ staged c today files, IsName name)
    (hne : (c.directory .upload).locate files.workingDir ≠
      (c.directory .comics).locate files.workingDir) :
    Moved c today files ((c.directory .comics).locate files.workingDir ++ [name]) ↔
      name ∈ staged c today files := by
  rw [moved_iff hnames]
  constructor
  · rintro ⟨-, name', hmem, hloc | hloc⟩
    · exact absurd (List.append_inj' hloc rfl).1.symm hne
    · obtain rfl : name = name' := List.singleton_inj.mp (List.append_cancel_left hloc)
      exact hmem
  · exact fun hmem => ⟨hne, name, hmem, .inr rfl⟩

theorem moved_upload_iff (hnames : ∀ name ∈ staged c today files, IsName name)
    (hne : (c.directory .upload).locate files.workingDir ≠
      (c.directory .comics).locate files.workingDir) :
    Moved c today files ((c.directory .upload).locate files.workingDir ++ [name]) ↔
      name ∈ staged c today files := by
  rw [moved_iff hnames]
  constructor
  · rintro ⟨-, name', hmem, hloc | hloc⟩
    · obtain rfl : name = name' := List.singleton_inj.mp (List.append_cancel_left hloc)
      exact hmem
    · exact absurd (List.append_inj' hloc rfl).1 hne
  · exact fun hmem => ⟨hne, name, hmem, .inl rfl⟩

/-- What is due stays due. -/
theorem staged_sublist {before : Date} (h : before ≤ today) (c : Config) (files : FileTree) :
    (staged c before files).Sublist (staged c today files) := by
  refine (List.monotone_filter_right _ ?_).map _
  rintro ⟨date, name⟩ hdue
  simp only [decide_eq_true_eq] at hdue ⊢
  exact hdue.trans h

/-! ## Moving -/

theorem Path.locate_join_congr {p q name : Path} {wd : Location} (h : p.locate wd = q.locate wd) :
    (p.join name).locate wd = (q.join name).locate wd := by
  by_cases habs : name.isAbsolute = true
  · rw [Path.join, Path.join, if_pos habs, if_pos habs]
  · have hrel : name.isAbsolute = false := by simpa using habs
    rw [Path.locate, Path.locate, Path.names_join hrel, Path.names_join hrel, Path.start_join hrel,
      Path.start_join hrel, List.foldl_append, List.foldl_append, ← Path.locate, ← Path.locate, h]

theorem move_of_moveFile (h : (moveFile upload comics name).perform files = (.ok (), after)) :
    files.move (upload.join name) (comics.join name) = .ok after := by
  rw [moveFile, Change.perform_step] at h
  cases hmove : files.move (upload.join name) (comics.join name) with
  | error fault =>
    rw [hmove] at h
    cases h
  | ok mid =>
    rw [hmove] at h
    cases h
    rfl

/-- A move takes the directories along, and changes nothing but the two places. -/
theorem keeps_of_move {source target : Path} (h : files.move source target = .ok after) :
    files.Keeps after ∧
      files.AgreeOff (fun loc => source.locate files.workingDir ≠ target.locate files.workingDir ∧
        (loc = source.locate files.workingDir ∨ loc = target.locate files.workingDir)) after := by
  obtain ⟨content, hold, htarget, rfl⟩ := FileTree.exists_of_move h
  obtain ⟨hentry, -, hnew⟩ := FileTree.namesEntry_of_moveTarget htarget
  split
  · exact ⟨.refl _, .refl _ _⟩
  next hne =>
    constructor
    · refine ⟨rfl, fun loc hloc => ?_⟩
      by_cases hroot : loc = []
      · rw [hroot]
        rfl
      -- a directory is neither what is moved nor what is overwritten
      rw [FileTree.node?_of_move hentry.ne_nil hroot, if_neg, if_neg, hloc]
      · rintro rfl
        rw [hold] at hloc
        cases hloc
      · rintro rfl
        exact hnew hloc
    · refine ⟨rfl, fun loc hloc => ?_⟩
      by_cases hroot : loc = []
      · rw [hroot]
        rfl
      rw [FileTree.node?_of_move hentry.ne_nil hroot, if_neg, if_neg]
      · exact fun heq => hloc ⟨Ne.symm hne, .inl heq⟩
      · exact fun heq => hloc ⟨Ne.symm hne, .inr heq⟩

/-- Moving files changes nothing but their places. -/
theorem keeps_of_moveFiles
    (h : (names.forM (moveFile upload comics)).perform files = (.ok (), after)) :
    files.Keeps after ∧
      files.AgreeOff (fun loc => upload.locate files.workingDir ≠ comics.locate files.workingDir ∧
        ∃ name ∈ names, loc = (upload.join name).locate files.workingDir ∨
          loc = (comics.join name).locate files.workingDir) after := by
  induction names generalizing files with
  | nil =>
    cases h
    exact ⟨.refl _, .refl _ _⟩
  | cons name names ih =>
    obtain ⟨⟨⟩, mid, hmove, hrest⟩ := Change.bind_eq_ok.mp h
    obtain ⟨hkeeps, hagree⟩ := keeps_of_move (move_of_moveFile hmove)
    obtain ⟨hkeeps', hagree'⟩ := ih hrest
    -- the places of the other files are located from the same working directory
    rw [hkeeps.workingDir] at hagree'
    refine ⟨hkeeps.trans hkeeps', (hagree.mono ?_).trans (hagree'.mono ?_)⟩
    · rintro loc ⟨hne, hloc⟩
      exact ⟨fun heq => hne (Path.locate_join_congr heq), name, List.mem_cons_self, hloc⟩
    · rintro loc ⟨hne, name', hmem, hloc⟩
      exact ⟨hne, name', List.mem_cons_of_mem _ hmem, hloc⟩

/-- A move takes a file from one place to another. -/
theorem node?_of_moveFile (hname : IsName name)
    (hne : upload.locate files.workingDir ≠ comics.locate files.workingDir)
    (h : files.move (upload.join name) (comics.join name) = .ok after) :
    after.node? (comics.locate files.workingDir ++ [name]) =
        files.node? (upload.locate files.workingDir ++ [name]) ∧
      after.node? (upload.locate files.workingDir ++ [name]) = none := by
  obtain ⟨content, hold, htarget, hafter⟩ := FileTree.exists_of_move h
  rw [Path.locate_join hname, Path.locate_join hname] at hafter
  rw [Path.locate_join hname] at hold
  have hplaces : comics.locate files.workingDir ++ [name] ≠
      upload.locate files.workingDir ++ [name] :=
    fun heq => hne (List.append_cancel_right heq).symm
  rw [if_neg hplaces] at hafter
  rw [hafter, FileTree.node?_of_move (by simp) (by simp),
    FileTree.node?_of_move (by simp) (by simp), hold]
  simp [hplaces.symm]

/-- The places of different files differ. -/
theorem concat_ne {other : String} (h : name ≠ other) (dir dir' : Location) :
    dir ++ [name] ≠ dir' ++ [other] :=
  fun heq => h (List.singleton_inj.mp (List.append_inj' heq rfl).2)

/-- A file that is not among those that are moved stays where it is, in every directory. -/
theorem node?_of_moveFiles_of_not_mem (hnames : ∀ name ∈ names, IsName name)
    (h : (names.forM (moveFile upload comics)).perform files = (.ok (), after))
    (hname : name ∉ names) (dir : Location) :
    after.node? (dir ++ [name]) = files.node? (dir ++ [name]) := by
  refine (keeps_of_moveFiles h).2.node _ ?_
  rintro ⟨-, other, hmem, hloc⟩
  have hdiffer : name ≠ other := fun heq => hname (heq ▸ hmem)
  rw [Path.locate_join (hnames other hmem), Path.locate_join (hnames other hmem)] at hloc
  exact hloc.elim (concat_ne hdiffer _ _) (concat_ne hdiffer _ _)

/-- **Moved files are where they were to be moved, and no longer where they were.** -/
theorem node?_of_moveFiles (hnames : ∀ name ∈ names, IsName name) (hnodup : names.Nodup)
    (hne : upload.locate files.workingDir ≠ comics.locate files.workingDir)
    (h : (names.forM (moveFile upload comics)).perform files = (.ok (), after))
    (hname : name ∈ names) :
    after.node? (comics.locate files.workingDir ++ [name]) =
        files.node? (upload.locate files.workingDir ++ [name]) ∧
      after.node? (upload.locate files.workingDir ++ [name]) = none := by
  induction names generalizing files with
  | nil => cases hname
  | cons first names ih =>
    obtain ⟨⟨⟩, mid, hmove, hrest⟩ := Change.bind_eq_ok.mp h
    obtain ⟨hfirst, hnodup⟩ := List.nodup_cons.mp hnodup
    have hisName := hnames first List.mem_cons_self
    have hrestNames := fun name hname => hnames name (List.mem_cons_of_mem first hname)
    have hmoved := move_of_moveFile hmove
    obtain ⟨hkeeps, hagree⟩ := keeps_of_move hmoved
    rw [Path.locate_join hisName, Path.locate_join hisName] at hagree
    rcases List.mem_cons.mp hname with rfl | hmem
    · -- the others leave it where the first move has taken it
      rw [node?_of_moveFiles_of_not_mem hrestNames hrest hfirst,
        node?_of_moveFiles_of_not_mem hrestNames hrest hfirst]
      exact node?_of_moveFile hisName hne hmoved
    · have hdiffer : name ≠ first := fun heq => hfirst (heq ▸ hmem)
      have hwd := hkeeps.workingDir
      have htail := ih hrestNames hnodup (hwd ▸ hne) hrest hmem
      rw [hwd] at htail
      refine ⟨htail.1.trans (hagree.node _ ?_), htail.2⟩
      rintro ⟨-, hloc⟩
      exact hloc.elim (concat_ne hdiffer _ _) (concat_ne hdiffer _ _)

/-! ## Promotion -/

/-- Moving what is due and counting it on the way comes to moving it and then counting it. -/
theorem foldlM_moveIfDue (dated : List (Date × String)) (moved : Nat) :
    dated.foldlM (moveIfDue upload comics today) moved = do
      let names := (dated.filter fun (date, _) => date ≤ today).map Prod.snd
      names.forM (moveFile upload comics)
      return moved + names.length := by
  induction dated generalizing moved with
  | nil => rfl
  | cons file dated ih =>
    obtain ⟨date, name⟩ := file
    rw [List.foldlM_cons]
    by_cases hdue : date ≤ today
    · -- the counter is one ahead of the count of the rest
      have hmove : moveIfDue upload comics today moved (date, name) = do
          moveFile upload comics name
          return moved + 1 := if_neg hdue.not_gt
      rw [List.filter_cons_of_pos (by simpa using hdue), hmove]
      simp only [bind_assoc, pure_bind, ih, List.map_cons, List.length_cons, List.forM,
        Nat.add_assoc, Nat.add_comm 1]
    · have hstay : moveIfDue upload comics today moved (date, name) = pure moved :=
        if_pos (not_le.mp hdue)
      rw [List.filter_cons_of_neg (by simpa using hdue), hstay, pure_bind, ih]

theorem promote_eq (upload comics : Path) (today : Date) :
    promote upload comics today = do
      if (← get).same upload comics then
        return 0
      else
        Change.makeDirectories comics
        let names := dueFiles today (← Change.look (·.list upload))
        names.forM (moveFile upload comics)
        return names.length := by
  simp only [promote, foldlM_moveIfDue, dueFiles, Nat.zero_add]

/-- The outcomes of a promotion, with the way to each. -/
inductive PromoteOutcome (upload comics : Path) (today : Date) (files : FileTree) :
    Except Error Nat → FileTree → Prop where
  | same : files.same upload comics = true → PromoteOutcome upload comics today files (.ok 0) files
  /-- The comics directory cannot be made, or the upload directory not listed. -/
  | unlisted (fault : Fault) : files.same upload comics = false →
      PromoteOutcome upload comics today files (.error (.files fault))
        (files.makeDirectories comics).1
  | stopped {mid after : FileTree} {dir : Location} {e : Error} :
      files.same upload comics = false → files.makeDirectories comics = (mid, none) →
      mid.resolve upload = .ok (dir, .directory) →
      ((dueFiles today (mid.entries dir)).forM (moveFile upload comics)).perform mid =
        (.error e, after) →
      PromoteOutcome upload comics today files (.error e) after
  | moved {mid after : FileTree} {dir : Location} :
      files.same upload comics = false → files.makeDirectories comics = (mid, none) →
      mid.resolve upload = .ok (dir, .directory) →
      ((dueFiles today (mid.entries dir)).forM (moveFile upload comics)).perform mid =
        (.ok (), after) →
      PromoteOutcome upload comics today files
        (.ok (dueFiles today (mid.entries dir)).length) after

/-- **A promotion ends in one of these ways.** -/
theorem promote_outcome {result : Except Error Nat}
    (h : (promote upload comics today).perform files = (result, after)) :
    PromoteOutcome upload comics today files result after := by
  rw [promote_eq] at h
  rcases Change.bind_eq h with ⟨e, hget, -⟩ | ⟨_, _, hget, hchosen⟩
  · cases hget
  cases hget
  cases hsame : files.same upload comics with
  | true =>
    rw [hsame] at hchosen
    cases hchosen
    exact .same hsame
  | false =>
    rw [hsame] at hchosen
    -- step by step: each either ends the promotion or goes on to the next
    rcases Change.bind_eq hchosen with ⟨e, hmake, rfl⟩ | ⟨⟨⟩, mid, hmake, hlisted⟩
    · obtain ⟨rfl, fault, rfl⟩ := Change.makeDirectories_eq_error hmake
      exact .unlisted fault hsame
    obtain ⟨rfl, hfault⟩ := Change.makeDirectories_eq_ok hmake
    rcases Change.bind_eq hlisted with ⟨e, hlook, rfl⟩ | ⟨listing, mid', hlook, hmoved⟩
    · obtain ⟨rfl, fault, rfl⟩ := Change.look_eq_error hlook
      exact .unlisted fault hsame
    obtain ⟨hlist, rfl⟩ := Change.look_eq_ok hlook
    obtain ⟨dir, hresolve, rfl⟩ := FileTree.exists_of_list hlist
    rcases Change.bind_eq hmoved with ⟨e, hmoves, rfl⟩ | ⟨⟨⟩, after', hmoves, hcount⟩
    · exact .stopped hsame (Prod.ext rfl hfault) hresolve hmoves
    · cases hcount
      exact .moved hsame (Prod.ext rfl hfault) hresolve hmoves

/-- The directories that are made hide no staged file and add none. -/
theorem staged_of_grown {L : Location → Prop} (h : files.Grown L after) :
    staged c today after = staged c today files := by
  rw [staged, staged, h.workingDir, ← dueFiles_plain, h.plain_entries, dueFiles_plain]

/-- What a promotion does: it makes the comics directory, and then moves files. -/
structure Promoted (c : Config) (today : Date) (files after : FileTree) (n : Nat) : Prop where
  exists_made : ∃ mid, files.Grown (· ∈ (c.directory .comics).lookups files.workingDir) mid ∧
    mid.Keeps after ∧ mid.AgreeOff (Moved c today files) after
  count : n = if files.same (c.directory .upload) (c.directory .comics) then 0
    else (staged c today files).length
  relocated : (∀ name ∈ staged c today files, IsName name) →
    (c.directory .upload).locate files.workingDir ≠ (c.directory .comics).locate files.workingDir →
    ∀ name ∈ staged c today files,
      after.node? ((c.directory .comics).locate files.workingDir ++ [name]) =
          files.node? ((c.directory .upload).locate files.workingDir ++ [name]) ∧
        after.node? ((c.directory .upload).locate files.workingDir ++ [name]) = none
  upload : files.same (c.directory .upload) (c.directory .comics) = true ∨
    after.resolve (c.directory .upload) =
      .ok ((c.directory .upload).locate files.workingDir, .directory)

/-- When the comics directory has been made, what is due in the upload directory is what was. -/
theorem grown_of_made (today : Date) {dir : Location}
    (hmake : files.makeDirectories (c.directory .comics) = (mid, none))
    (hresolve : mid.resolve (c.directory .upload) = .ok (dir, .directory)) :
    files.Grown (· ∈ (c.directory .comics).lookups files.workingDir) mid ∧
      dir = (c.directory .upload).locate files.workingDir ∧
      dueFiles today (mid.entries dir) = staged c today files := by
  have hgrown := FileTree.grown_makeDirectories files (c.directory .comics)
  rw [hmake] at hgrown
  obtain rfl := FileTree.eq_locate_of_resolve hresolve
  exact ⟨hgrown, by rw [hgrown.workingDir], staged_of_grown hgrown⟩

/-- **What a promotion does.** -/
theorem promoted_of_promote {n : Nat}
    (h : (promote (c.directory .upload) (c.directory .comics) today).perform files =
      (.ok n, after)) : Promoted c today files after n := by
  cases promote_outcome h with
  | same hsame =>
    refine ⟨⟨files, .refl _ _, .refl _, .refl _ _⟩, ?_, ?_, .inl hsame⟩
    · rw [hsame, if_pos rfl]
    · exact fun _ hne => absurd (FileTree.locate_eq_of_same hsame) hne
  | moved hsame hmake hresolve hmoves =>
    obtain ⟨hgrown, rfl, hstaged⟩ := grown_of_made today hmake hresolve
    rw [hstaged] at hmoves ⊢
    obtain ⟨hkeeps, hagree⟩ := keeps_of_moveFiles hmoves
    rw [hgrown.workingDir] at hagree
    refine ⟨⟨_, hgrown, hkeeps, hagree⟩, ?_, ?_, .inr (hkeeps.resolve_directory hresolve)⟩
    · rw [hsame]
      rfl
    · intro hnames hne name hname
      have hmoved := node?_of_moveFiles hnames (nodup_staged c today files)
        (hgrown.workingDir ▸ hne) hmoves hname
      obtain ⟨⟨content, hnode⟩, -⟩ := mem_staged.mp hname
      -- the file stood in the upload directory before the comics directory was made, too
      rw [hgrown.workingDir, hgrown.file_iff.mpr hnode] at hmoved
      rw [hnode]
      exact hmoved

/-! ## The archive of a tree -/

theorem liveArchive_of_resolve
    (h : files.resolve (c.directory .comics) = .ok (loc, .directory)) :
    liveArchive c files today = .ok ((ofEntries (files.entries loc)).upTo today) := by
  have hdirectory : files.isDirectory (c.directory .comics) = true := by
    rw [FileTree.isDirectory, h]
  rw [liveArchive, if_pos hdirectory, read_of_resolve h]
  rfl

/-- The live archive of a tree shows only in the plain files of the comics directory that are
live. -/
theorem liveArchive_congr (hk : files.Keeps after)
    (h : files.resolve (c.directory .comics) = .ok (loc, .directory))
    (hfiles : ∀ name date, dateOfName? name = some date → date ≤ today →
      ((∃ content, after.node? (loc ++ [name]) = some (.file content)) ↔
        ∃ content, files.node? (loc ++ [name]) = some (.file content))) :
    liveArchive c after today = liveArchive c files today := by
  rw [liveArchive_of_resolve h, liveArchive_of_resolve (hk.resolve_directory h)]
  refine congrArg Except.ok ?_
  refine upTo_ofEntries_congr (after.nodup_entries _) (files.nodup_entries _) ?_
  intro name date hdate hlive
  simp only [FileTree.mem_entries]
  exact hfiles name date hdate hlive

/-! ## Preparation -/

/-- The latest day of an edition. -/
def Edition.latest (edition : Edition) : Date :=
  edition.archive.dates.getLast (by
    rw [dates, ne_eq, List.map_eq_nil_iff]
    exact List.isEmpty_eq_false_iff.mp edition.inhabited)

theorem Edition.getLast?_dates (edition : Edition) :
    edition.archive.dates.getLast? = some edition.latest :=
  List.getLast?_eq_some_getLast _

theorem Edition.exists_last? (edition : Edition) :
    ∃ names, edition.archive.last? = some (edition.latest, names) := by
  have hlast := edition.getLast?_dates
  rw [dates, List.getLast?_map, Option.map_eq_some_iff] at hlast
  obtain ⟨⟨date, names⟩, hlast, rfl⟩ := hlast
  exact ⟨names, hlast⟩

/-- What has been done when a run is prepared. -/
structure Prepared (c : Config) (today : Date) (files : FileTree) (edition : Edition)
    (after : FileTree) : Prop where
  template : files.isFile c.dailyTemplatePath = true
  keeps : files.Keeps after
  /-- Nothing has changed but that files were moved and directories made. -/
  agreeOff : files.AgreeOff (fun loc => Moved c today files loc ∨ Road c files.workingDir loc) after
  /-- A file that was not moved is where it was. -/
  file_iff : ∀ loc content, ¬ Moved c today files loc →
    (after.node? loc = some (.file content) ↔ files.node? loc = some (.file content))
  road : ∀ loc, Road c files.workingDir loc → after.node? loc = some .directory
  /-- A file that was moved is in the comics directory, and no longer where it was staged. Only a
  directory that was made can be there. -/
  relocated : (∀ name ∈ staged c today files, IsName name) →
    (c.directory .upload).locate files.workingDir ≠ (c.directory .comics).locate files.workingDir →
    ∀ name ∈ staged c today files,
      after.node? ((c.directory .comics).locate files.workingDir ++ [name]) =
          files.node? ((c.directory .upload).locate files.workingDir ++ [name]) ∧
        (¬ Road c files.workingDir ((c.directory .upload).locate files.workingDir ++ [name]) →
          after.node? ((c.directory .upload).locate files.workingDir ++ [name]) = none)
  comics : after.resolve (c.directory .comics) =
    .ok ((c.directory .comics).locate files.workingDir, .directory)
  upload : files.same (c.directory .upload) (c.directory .comics) = true ∨
    after.resolve (c.directory .upload) =
      .ok ((c.directory .upload).locate files.workingDir, .directory)
  archive : liveArchive c after today = .ok edition.archive
  count : edition.filesMoved =
    if files.same (c.directory .upload) (c.directory .comics) then 0
    else (staged c today files).length

/-- A file is still there if it was not moved. -/
theorem Prepared.isFile {edition : Edition} (h : Prepared c today files edition after) {p : Path}
    (hp : p.Avoids files.workingDir (Moved c today files)) (hfile : files.isFile p = true) :
    after.isFile p = true := by
  obtain ⟨loc, content, hresolve⟩ := FileTree.exists_resolve_of_isFile hfile
  have hstays := hp loc (FileTree.mem_lookups_of_resolve_file hresolve)
  have hnode := (h.file_iff loc content hstays).mpr (FileTree.node?_of_resolve_file hresolve)
  rw [FileTree.isFile, h.keeps.resolve_file hresolve hnode]

/-- What leads to something goes on doing so, unless it leads to a file that is moved. -/
theorem Prepared.resolve {edition : Edition} (h : Prepared c today files edition after) {p : Path}
    {node : Node} (hmoved : ¬ Moved c today files loc) (hp : files.resolve p = .ok (loc, node)) :
    ∃ node', after.resolve p = .ok (loc, node') := by
  cases node with
  | directory => exact ⟨_, h.keeps.resolve_directory hp⟩
  | file content =>
    have hnode := (h.file_iff loc content hmoved).mpr (FileTree.node?_of_resolve_file hp)
    exact ⟨_, h.keeps.resolve_file hp hnode⟩

/-- Where nothing is moved and no directory is made, nothing changes. -/
theorem Prepared.node?_eq {edition : Edition} (h : Prepared c today files edition after)
    (hmoved : ¬ Moved c today files loc) (hroad : ¬ Road c files.workingDir loc) :
    after.node? loc = files.node? loc :=
  h.agreeOff.node loc fun hloc => hloc.elim hmoved hroad

section

variable {edition : Edition} (h : Prepared c today files edition after)
  (hnames : ∀ name ∈ staged c today files, IsName name)
  (hne : (c.directory .upload).locate files.workingDir ≠
    (c.directory .comics).locate files.workingDir)
include h hnames hne

/-- What the comics directory holds once a run is prepared. -/
theorem Prepared.node?_comics
    (hroad : ¬ Road c files.workingDir ((c.directory .comics).locate files.workingDir ++ [name])) :
    after.node? ((c.directory .comics).locate files.workingDir ++ [name]) =
      if name ∈ staged c today files then
        files.node? ((c.directory .upload).locate files.workingDir ++ [name])
      else files.node? ((c.directory .comics).locate files.workingDir ++ [name]) := by
  split
  next hdue => exact (h.relocated hnames hne name hdue).1
  next hstays => exact h.node?_eq (mt (moved_comics_iff hnames hne).mp hstays) hroad

/-- What the upload directory holds then. -/
theorem Prepared.node?_upload
    (hroad : ¬ Road c files.workingDir ((c.directory .upload).locate files.workingDir ++ [name])) :
    after.node? ((c.directory .upload).locate files.workingDir ++ [name]) =
      if name ∈ staged c today files then none
      else files.node? ((c.directory .upload).locate files.workingDir ++ [name]) := by
  split
  next hdue => exact (h.relocated hnames hne name hdue).2 hroad
  next hstays => exact h.node?_eq (mt (moved_upload_iff hnames hne).mp hstays) hroad

end

/-- The archive that is published is that of the comics directory, up to the day. -/
theorem Prepared.archive_eq {edition : Edition} (h : Prepared c today files edition after) :
    edition.archive = (ofEntries
      (after.entries ((c.directory .comics).locate files.workingDir))).upTo today :=
  Except.ok.inj (h.archive.symm.trans (liveArchive_of_resolve h.comics))

/-- The days that are published are those of the live files in the comics directory. -/
theorem Prepared.mem_dates {edition : Edition} (h : Prepared c today files edition after)
    {date : Date} :
    date ∈ edition.archive.dates ↔ date ≤ today ∧ ∃ name, dateOfName? name = some date ∧
      ∃ content, after.node? ((c.directory .comics).locate files.workingDir ++ [name]) =
        some (.file content) := by
  rw [h.archive_eq, mem_dates_upTo_ofEntries]
  simp only [FileTree.mem_entries]

/-- The outcomes of a preparation, with the way to each. -/
inductive PrepareOutcome (c : Config) (today : Date) (files : FileTree) :
    Except Error Edition → FileTree → Prop where
  | template : files.isFile c.dailyTemplatePath = false →
      PrepareOutcome c today files (.error (.templateMissing c.dailyTemplatePath)) files
  | stopped {after : FileTree} {e : Error} : files.isFile c.dailyTemplatePath = true →
      (promote (c.directory .upload) (c.directory .comics) today).perform files =
        (.error e, after) →
      PrepareOutcome c today files (.error e) after
  /-- The comics directory cannot be listed. -/
  | unread {mid : FileTree} {n : Nat} (fault : Fault) : files.isFile c.dailyTemplatePath = true →
      (promote (c.directory .upload) (c.directory .comics) today).perform files = (.ok n, mid) →
      PrepareOutcome c today files (.error (.files fault)) mid
  | empty {mid : FileTree} {n : Nat} {dir : Location} : files.isFile c.dailyTemplatePath = true →
      (promote (c.directory .upload) (c.directory .comics) today).perform files = (.ok n, mid) →
      mid.resolve (c.directory .comics) = .ok (dir, .directory) →
      ((ofEntries (mid.entries dir)).upTo today).isEmpty = true →
      PrepareOutcome c today files (.error (.emptyArchive (c.directory .comics))) mid
  /-- The directory of the daily pages cannot be made. -/
  | unmade {mid : FileTree} {n : Nat} (fault : Fault) : files.isFile c.dailyTemplatePath = true →
      (promote (c.directory .upload) (c.directory .comics) today).perform files = (.ok n, mid) →
      PrepareOutcome c today files (.error (.files fault))
        (mid.makeDirectories (c.directory .daily)).1
  | prepared {mid after : FileTree} {dir : Location} {edition : Edition} :
      files.isFile c.dailyTemplatePath = true →
      (promote (c.directory .upload) (c.directory .comics) today).perform files =
        (.ok edition.filesMoved, mid) →
      mid.resolve (c.directory .comics) = .ok (dir, .directory) →
      edition.archive = (ofEntries (mid.entries dir)).upTo today →
      mid.makeDirectories (c.directory .daily) = (after, none) →
      PrepareOutcome c today files (.ok edition) after

/-- **A preparation ends in one of these ways.** -/
theorem prepare_outcome {result : Except Error Edition}
    (h : (prepare c today).perform files = (result, after)) :
    PrepareOutcome c today files result after := by
  rcases Change.bind_eq h with ⟨e, hget, -⟩ | ⟨_, _, hget, hchecked⟩
  · cases hget
  cases hget
  -- in the order of the run, each step by how it can end
  cases hfile : files.isFile c.dailyTemplatePath with
  | false =>
    rw [hfile] at hchecked
    cases hchecked
    exact .template hfile
  | true =>
    rw [hfile] at hchecked
    simp only [Bool.not_true, Bool.false_eq_true, if_false] at hchecked
    rcases Change.bind_eq hchecked with ⟨e, hpromote, rfl⟩ | ⟨n, mid, hpromote, hrest⟩
    · exact .stopped hfile hpromote
    rcases Change.bind_eq hrest with ⟨e, hlook, rfl⟩ | ⟨archive, mid', hlook, hmade⟩
    · obtain ⟨rfl, fault, rfl⟩ := Change.look_eq_error hlook
      exact .unread fault hfile hpromote
    obtain ⟨hread, rfl⟩ := Change.look_eq_ok hlook
    obtain ⟨dir, hresolve, rfl⟩ := exists_of_read hread
    split at hmade
    next hempty =>
      cases hmade
      exact .empty hfile hpromote hresolve hempty
    next hinhabited =>
      rcases Change.bind_eq hmade with ⟨e, hmake, rfl⟩ | ⟨⟨⟩, after', hmake, hedition⟩
      · obtain ⟨rfl, fault, rfl⟩ := Change.makeDirectories_eq_error hmake
        exact .unmade fault hfile hpromote
      · cases hedition
        obtain ⟨hafter, hfault⟩ := Change.makeDirectories_eq_ok hmake
        exact .prepared hfile hpromote hresolve rfl (Prod.ext hafter hfault)

/-- **What a preparation does.** -/
theorem prepared_of_prepare {edition : Edition}
    (h : (prepare c today).perform files = (.ok edition, after)) :
    Prepared c today files edition after := by
  cases prepare_outcome h with
  | @prepared mid _ dir _ htemplate hpromote hresolve harchive hmake =>
    obtain ⟨⟨made, hmade, hmoveKeeps, hmoves⟩, hcount, hrelocated, hupload⟩ :=
      promoted_of_promote hpromote
    have hgrown := FileTree.grown_makeDirectories mid (c.directory .daily)
    have hdaily := FileTree.directory_of_makeDirectories (t := mid) (p := c.directory .daily)
      (by rw [hmake])
    rw [hmake] at hgrown hdaily
    have hmidKeeps := hmade.keeps.trans hmoveKeeps
    have hkeeps := hmidKeeps.trans hgrown.keeps
    obtain rfl := FileTree.eq_locate_of_resolve hresolve
    have hcomics := hgrown.keeps.resolve_directory hresolve
    rw [hmidKeeps.workingDir] at hgrown hdaily hcomics
    refine ⟨htemplate, hkeeps, ?_, ?_, ?_, ?_, hcomics,
      hupload.imp_right hgrown.keeps.resolve_directory, ?_, hcount⟩
    · refine (hmade.agreeOff.mono ?_).trans ((hmoves.mono ?_).trans (hgrown.agreeOff.mono ?_))
      · exact fun loc hloc => .inr (.inl hloc)
      · exact fun loc hloc => .inl hloc
      · exact fun loc hloc => .inr (.inr hloc)
    · intro loc content hloc
      rw [hgrown.file_iff, hmoves.node loc hloc, hmade.file_iff]
    · rintro loc (hloc | hloc)
      · rw [← hkeeps.workingDir] at hloc
        exact FileTree.lookups_of_resolve_directory (hkeeps.workingDir ▸ hcomics) loc hloc
      · exact hdaily loc hloc
    · -- the files have arrived before the directory of the daily pages is made
      intro hnames hne name hname
      obtain ⟨harrived, hdeparted⟩ := hrelocated hnames hne name hname
      obtain ⟨⟨content, hnode⟩, -⟩ := mem_staged.mp hname
      rw [hnode] at harrived ⊢
      refine ⟨hgrown.file_iff.mpr harrived, fun hroad => ?_⟩
      rw [hgrown.agreeOff.node _ fun hdaily => hroad (.inr hdaily), hdeparted]
    · rw [harchive, ← liveArchive_of_resolve hresolve]
      refine liveArchive_congr hgrown.keeps hresolve fun name date _ _ => ?_
      simp only [hgrown.file_iff]

end Webcomic.Site
