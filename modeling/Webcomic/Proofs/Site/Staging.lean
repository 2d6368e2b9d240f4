import Webcomic.Proofs.Site.Outcome

/-!
# A promotion is a lossless partition

A promotion splits the plain files of the upload directory in two: those that are due are moved to
the comics directory as they are, and all else stays as it is (`Landing`, `promotion_is_exact`).

- If it fails, each file that is due has been moved as a whole or not at all (`Stopping`).
- The files can be moved in any order. One move does not stand in the way of another
  (`canMove_iff_of_move`), so all succeed in one order if each would alone (`exists_moveFiles_iff`).
  So two trees that differ only in the order of their listings come to the same.
- Directories that are missing on the way to the comics directory are made, as its path spells the
  way out. They lie in neither directory unless the path goes back (`promotion_makes_the_way`).
-/

namespace Webcomic.Site

open Calendar Files Archive

variable {upload comics : Path} {today : Date} {files files' mid after after' : FileTree}
  {name other : String} {names names' : List String} {loc : Location} {content : ByteArray}
  {n : Nat}

/-! ## Moving in any order -/

/-- The file can be moved. -/
def CanMove (upload comics : Path) (files : FileTree) (name : String) : Prop :=
  ∃ after, files.move (upload.join name) (comics.join name) = .ok after

/-- A move of another file makes no difference. -/
theorem canMove_iff_of_move (hname : IsName name) (hother : IsName other) (hne : name ≠ other)
    (h : files.move (upload.join other) (comics.join other) = .ok after) :
    CanMove upload comics after name ↔ CanMove upload comics files name := by
  obtain ⟨hkeeps, hagree⟩ := keeps_of_move h
  have hback := FileTree.keeps_back_of_move h
  have hsource : after.node? ((upload.join name).locate files.workingDir) =
      files.node? ((upload.join name).locate files.workingDir) := by
    refine hagree.node _ ?_
    rw [Path.locate_join hname, Path.locate_join hother, Path.locate_join hother]
    exact fun hloc => hloc.2.elim (concat_ne hne _ _) (concat_ne hne _ _)
  constructor
  · refine FileTree.exists_move_of_keeps hback hkeeps ?_
    rw [hkeeps.workingDir]
    exact hsource.symm
  · exact FileTree.exists_move_of_keeps hkeeps hback hsource

/-- **Files can be moved one after another if each of them can.** -/
theorem exists_moveFiles_iff (hnames : ∀ name ∈ names, IsName name) (hnodup : names.Nodup) :
    (∃ after, (names.forM (moveFile upload comics)).perform files = (.ok (), after)) ↔
      ∀ name ∈ names, CanMove upload comics files name := by
  induction names generalizing files with
  | nil => exact ⟨fun _ => nofun, fun _ => ⟨files, rfl⟩⟩
  | cons first rest ih =>
    obtain ⟨hfirst, hnodup⟩ := List.nodup_cons.mp hnodup
    obtain ⟨hisName, hrestNames⟩ := List.forall_mem_cons.mp hnames
    -- the first move leaves the others as possible as they were
    have hothers : ∀ mid, files.move (upload.join first) (comics.join first) = .ok mid →
        ((∀ name ∈ rest, CanMove upload comics mid name) ↔
          ∀ name ∈ rest, CanMove upload comics files name) := by
      intro mid hmove
      refine forall_congr' fun name => forall_congr' fun hname => ?_
      exact canMove_iff_of_move (hrestNames name hname) hisName
        (fun heq => hfirst (heq ▸ hname)) hmove
    rw [List.forall_mem_cons]
    constructor
    · rintro ⟨after, h⟩
      obtain ⟨⟨⟩, mid, hmove, hrest⟩ := Change.bind_eq_ok.mp h
      have hmoved := move_of_moveFile hmove
      exact ⟨⟨mid, hmoved⟩, (hothers mid hmoved).mp ((ih hrestNames hnodup).mp ⟨after, hrest⟩)⟩
    · rintro ⟨⟨mid, hmoved⟩, hrest⟩
      obtain ⟨after, hafter⟩ := (ih hrestNames hnodup).mpr ((hothers mid hmoved).mpr hrest)
      have hmove : (moveFile upload comics first).perform files = (.ok (), mid) := by
        rw [moveFile, Change.perform_step, hmoved]
        rfl
      exact ⟨after, Change.bind_eq_ok.mpr ⟨(), mid, hmove, hafter⟩⟩

/-- **The order of the moves does not show.** The same files can be moved in two trees that hold the
same, in whatever order, and in the end the trees hold the same. -/
theorem moveFiles_perm (hnames : ∀ name ∈ names, IsName name) (hnodup : names.Nodup)
    (hperm : names.Perm names') (hagree : files.AgreeOff (fun _ => False) files')
    (h : (names.forM (moveFile upload comics)).perform files = (.ok (), after)) :
    ∃ after', (names'.forM (moveFile upload comics)).perform files' = (.ok (), after') ∧
      after.AgreeOff (fun _ => False) after' := by
  have hnames' : ∀ name ∈ names', IsName name := fun name hname =>
    hnames name (hperm.mem_iff.mpr hname)
  have hnodup' := hperm.nodup_iff.mp hnodup
  have hsame := fun loc => hagree.node loc not_false
  have hkeeps : files.Keeps files' :=
    ⟨hagree.workingDir, fun loc hloc => (hsame loc).trans hloc⟩
  have hback : files'.Keeps files :=
    ⟨hagree.workingDir.symm, fun loc hloc => (hsame loc).symm.trans hloc⟩
  -- each file can be moved by itself, in the one tree and so in the other
  obtain ⟨after', h'⟩ := (exists_moveFiles_iff hnames' hnodup').mpr fun name hname =>
    FileTree.exists_move_of_keeps hkeeps hback (hsame _)
      ((exists_moveFiles_iff hnames hnodup).mp ⟨after, h⟩ name (hperm.mem_iff.mpr hname))
  obtain ⟨hkeepsMoved, hagreeMoved⟩ := keeps_of_moveFiles h
  obtain ⟨hkeepsMoved', hagreeMoved'⟩ := keeps_of_moveFiles h'
  rw [hagree.workingDir] at hagreeMoved'
  refine ⟨after', h', ?_, fun loc _ => ?_⟩
  · rw [hkeepsMoved'.workingDir, hkeepsMoved.workingDir, hagree.workingDir]
  by_cases hmoved : upload.locate files.workingDir ≠ comics.locate files.workingDir ∧
      ∃ name ∈ names, loc = (upload.join name).locate files.workingDir ∨
        loc = (comics.join name).locate files.workingDir
  · obtain ⟨hne, name, hname, hloc⟩ := hmoved
    have hends := node?_of_moveFiles hnames hnodup hne h hname
    have hends' := node?_of_moveFiles hnames' hnodup' (hagree.workingDir ▸ hne) h'
      (hperm.mem_iff.mp hname)
    rw [hagree.workingDir] at hends'
    rw [Path.locate_join (hnames name hname), Path.locate_join (hnames name hname)] at hloc
    rcases hloc with rfl | rfl
    · -- the place that the file has left
      rw [hends.2, hends'.2]
    · -- the place that it has been moved to
      rw [hends.1, hends'.1, hsame]
  · rw [hagreeMoved.node loc hmoved, hagreeMoved'.node loc, hsame]
    rintro ⟨hne, name, hname, hloc⟩
    exact hmoved ⟨hne, name, hperm.mem_iff.mpr hname, hloc⟩

theorem promote_of_same (today : Date) (h : files.same upload comics = true) :
    (promote upload comics today).perform files = (.ok 0, files) := by
  refine Change.bind_eq_ok.mpr ⟨files, files, Change.perform_get files, ?_⟩
  rw [h]
  rfl

theorem promote_of_moveFiles {dir : Location} (hsame : files.same upload comics = false)
    (hmake : files.makeDirectories comics = (mid, none))
    (hresolve : mid.resolve upload = .ok (dir, .directory))
    (hmoves : ((dueFiles today (mid.entries dir)).forM (moveFile upload comics)).perform mid =
      (.ok (), after)) :
    (promote upload comics today).perform files =
      (.ok (dueFiles today (mid.entries dir)).length, after) := by
  have hlist : (Change.look (·.list upload)).perform mid = (.ok (mid.entries dir), mid) := by
    rw [Change.perform_look, FileTree.list_of_resolve hresolve]
    rfl
  have hmade : (Change.makeDirectories comics).perform files = (.ok (), mid) := by
    rw [Change.perform_makeDirectories, hmake]
  rw [promote_eq]
  refine Change.bind_eq_ok.mpr ⟨files, files, Change.perform_get files, ?_⟩
  rw [hsame]
  refine Change.bind_eq_ok.mpr ⟨(), mid, hmade, Change.bind_eq_ok.mpr ⟨_, mid, hlist, ?_⟩⟩
  exact Change.bind_eq_ok.mpr ⟨(), after, hmoves, rfl⟩

/-- **The order of the listing does not show.** What succeeds in a tree succeeds in every tree that
holds the same, with the same result, and in the end the trees hold the same. -/
theorem promote_listing_order {c : Config} (hnamed : files.Named)
    (hagree : files.AgreeOff (fun _ => False) files')
    (h : (promote (c.directory .upload) (c.directory .comics) today).perform files =
      (.ok n, after)) :
    ∃ after', (promote (c.directory .upload) (c.directory .comics) today).perform files' =
        (.ok n, after') ∧ after.AgreeOff (fun _ => False) after' := by
  have havoids : ∀ (p : Path) (wd : Location), p.Avoids wd fun _ => False :=
    fun _ _ _ _ => not_false
  have hsame := hagree.same (havoids (c.directory .upload) _) (havoids (c.directory .comics) _)
  cases promote_outcome h with
  | same htrue => exact ⟨files', promote_of_same today (hsame.trans htrue), hagree⟩
  | @moved made _ dir hfalse hmake hresolve hmoves =>
    obtain ⟨hfault, hmade⟩ := hagree.makeDirectories (havoids (c.directory .comics) _)
    rw [hmake] at hfault hmade
    have hresolve' := (hmade.resolve (havoids (c.directory .upload) _)).trans hresolve
    obtain ⟨-, -, hstaged⟩ := grown_of_made today hmake hresolve
    have hnames : ∀ name ∈ dueFiles today (made.entries dir), IsName name := by
      rw [hstaged]
      exact fun name => isName_of_mem_staged hnamed
    have hnodup : (dueFiles today (made.entries dir)).Nodup :=
      nodup_dueFiles (made.nodup_entries dir)
    -- the listings have the same files that are due, in different orders
    generalize hmake' : files'.makeDirectories (c.directory .comics) = made'
      at hfault hmade hresolve'
    obtain ⟨made', fault⟩ := made'
    dsimp only at hfault hmade hresolve'
    subst hfault
    have hperm : (dueFiles today (made.entries dir)).Perm (dueFiles today (made'.entries dir)) := by
      refine (List.perm_ext_iff_of_nodup hnodup (nodup_dueFiles (made'.nodup_entries dir))).mpr ?_
      intro name
      simp only [mem_dueFiles, FileTree.mem_entries, hmade.node _ not_false]
    obtain ⟨after', hmoves', hafter⟩ := moveFiles_perm hnames hnodup hperm hmade hmoves
    refine ⟨after', ?_, hafter⟩
    rw [promote_of_moveFiles (hsame.trans hfalse) hmake' hresolve' hmoves', hperm.length_eq]

/-! ## What a promotion does -/

/-- A plain file of the upload directory whose name is dated, on a day or before it. -/
def Due (upload : Path) (today : Date) (files : FileTree) (name : String) (content : ByteArray) :
    Prop :=
  files.node? (upload.locate files.workingDir ++ [name]) = some (.file content) ∧
    ∃ date, dateOfName? name = some date ∧ date ≤ today

/-- The file is gone from the upload directory, and in the comics directory under its name. -/
def Relocated (upload comics : Path) (files after : FileTree) (name : String)
    (content : ByteArray) : Prop :=
  after.node? (upload.locate files.workingDir ++ [name]) = none ∧
    after.node? (comics.locate files.workingDir ++ [name]) = some (.file content)

/-- A location holds what it held, or a directory that was missing on the way that the path of the
comics directory spells out. -/
def Untouched (comics : Path) (files after : FileTree) (loc : Location) : Prop :=
  after.node? loc = files.node? loc ∨
    loc ∈ comics.lookups files.workingDir ∧ files.node? loc = none ∧
      after.node? loc = some .directory

/-- The location is no place of a file that is due, in neither directory. -/
def Elsewhere (upload comics : Path) (today : Date) (files : FileTree) (loc : Location) : Prop :=
  ∀ name content, Due upload today files name content →
    loc ≠ upload.locate files.workingDir ++ [name] ∧
      loc ≠ comics.locate files.workingDir ++ [name]

/-- What a promotion has done that succeeds and counts `n` files. -/
structure Partition (upload comics : Path) (today : Date) (files after : FileTree) (n : Nat) :
    Prop where
  due : ∀ name content, Due upload today files name content →
    Relocated upload comics files after name content
  rest : ∀ loc, Elsewhere upload comics today files loc → Untouched comics files after loc
  count : ∃ names : List String, names.Nodup ∧ n = names.length ∧
    ∀ name, name ∈ names ↔ ∃ content, Due upload today files name content
  /-- Whatever order the directory is listed in, the promotion comes to the same. -/
  order : ∀ files' : FileTree, files'.workingDir = files.workingDir →
    (∀ loc, files'.node? loc = files.node? loc) →
    ∃ after', (promote upload comics today).perform files' = (.ok n, after') ∧
      after'.workingDir = after.workingDir ∧ ∀ loc, after'.node? loc = after.node? loc

/-- What a promotion has done that fails: each file that is due has been moved, or neither it nor
what is at its target has been touched. -/
structure HalfDone (upload comics : Path) (today : Date) (files after : FileTree) : Prop where
  due : ∀ name content, Due upload today files name content →
    Relocated upload comics files after name content ∨
      after.node? (upload.locate files.workingDir ++ [name]) = some (.file content) ∧
        Untouched comics files after (comics.locate files.workingDir ++ [name])
  rest : ∀ loc, Elsewhere upload comics today files loc → Untouched comics files after loc

theorem exists_due_iff {c : Config} :
    (∃ content, Due (c.directory .upload) today files name content) ↔
      name ∈ staged c today files := by
  rw [mem_staged]
  exact exists_and_right

/-- Any two directories are those of a site. -/
theorem exists_directories (upload comics : Path) :
    ∃ c : Config, c.directory .upload = upload ∧ c.directory .comics = comics := by
  have hjoin : ∀ p : Path, Path.join "" p = p := by
    intro p
    rw [Path.join]
    split
    · rfl
    · exact String.empty_append
  exact ⟨{ baseDir := "", uploadDir := upload, comicsDir := comics }, hjoin upload, hjoin comics⟩

section

variable {c : Config} {done : List String} (hnamed : files.Named)
include hnamed

theorem not_moved_of_elsewhere
    (h : Elsewhere (c.directory .upload) (c.directory .comics) today files loc) :
    ¬ Moved c today files loc := by
  rw [moved_iff fun name => isName_of_mem_staged hnamed]
  rintro ⟨-, name, hname, hloc⟩
  obtain ⟨content, hdue⟩ := exists_due_iff.mpr hname
  exact hloc.elim (h name content hdue).1 (h name content hdue).2

/-- Where a file was not moved to, nothing was touched. -/
theorem Promoting.untouched_of_not_mem (h : Promoting c today files done after)
    (hname : name ∉ done) (dir : Location) :
    Untouched (c.directory .comics) files after (dir ++ [name]) := by
  have hnames := h.isName_of_mem hnamed
  obtain ⟨-, made, hgrown, hmoves⟩ := h
  rw [Untouched, node?_of_moveFiles_of_not_mem hnames hmoves hname]
  exact hgrown.node _

variable (hne : (c.directory .upload).locate files.workingDir ≠
  (c.directory .comics).locate files.workingDir)
include hne

theorem Promoting.halfDone (h : Promoting c today files done after) :
    HalfDone (c.directory .upload) (c.directory .comics) today files after where
  due name content hdue := by
    by_cases hname : name ∈ done
    · obtain ⟨hthere, hgone⟩ := h.arrives hnamed hdue.1 hname hne
      exact .inl ⟨hgone, hthere⟩
    · exact .inr ⟨h.stays hnamed hdue.1 fun hmem => absurd hmem hname,
        h.untouched_of_not_mem hnamed hname _⟩
  rest _ hloc := h.node (not_moved_of_elsewhere hnamed hloc)

theorem partition_of_promote
    (h : (promote (c.directory .upload) (c.directory .comics) today).perform files =
      (.ok n, after)) :
    Partition (c.directory .upload) (c.directory .comics) today files after n := by
  have hpromoted := promoted_of_promote h
  obtain ⟨done, hpromoting, -⟩ := promoting_of_promote h
  refine ⟨fun name content hdue => ?_, (hpromoting.halfDone hnamed hne).rest, ?_, ?_⟩
  · have hstaged := exists_due_iff.mp ⟨content, hdue⟩
    obtain ⟨hthere, hgone⟩ :=
      hpromoted.relocated (fun _ => isName_of_mem_staged hnamed) hne name hstaged
    exact ⟨hgone, hthere.trans hdue.1⟩
  · have hsame : files.same (c.directory .upload) (c.directory .comics) ≠ true :=
      fun hsame => hne (FileTree.locate_eq_of_same hsame)
    have hcount := hpromoted.count
    rw [if_neg hsame] at hcount
    exact ⟨_, nodup_staged c today files, hcount, fun name => exists_due_iff.symm⟩
  · intro files' hwd hnode
    -- a tree that holds the same, listed in another order
    obtain ⟨after', hafter, hagree⟩ :=
      promote_listing_order hnamed ⟨hwd, fun loc _ => hnode loc⟩ h
    exact ⟨after', hafter, hagree.workingDir, fun loc => hagree.node loc not_false⟩

end

/-- **A promotion is a lossless partition.**

- If both paths lead to one directory, nothing changes and nothing is counted.
- Else, if the promotion succeeds, the plain files of the upload directory that are dated and due
  are in the comics directory, under their names and with their contents, and no longer where they
  were. They are what is counted. All else is as it was, and the order of the listing does not show.
- If it fails, each of these files has been moved in this way, or is where it was, and what is at
  its target as well. All else is as it was.
- The one exception are directories that were missing on the way that the path of the comics
  directory spells out. If neither directory lies in the other and the path does not go back, none
  of them lies in either directory. -/
theorem promotion_is_exact {result : Except Error Nat} (hnamed : files.Named)
    (h : (promote upload comics today).perform files = (result, after)) :
    (∀ dir, files.resolve upload = .ok (dir, .directory) →
      files.resolve comics = .ok (dir, .directory) → result = .ok 0 ∧ after = files) ∧
    (upload.locate files.workingDir ≠ comics.locate files.workingDir →
      (∀ n, result = .ok n → Partition upload comics today files after n) ∧
      ∀ e, result = .error e → HalfDone upload comics today files after) ∧
    (¬ upload.locate files.workingDir <+: comics.locate files.workingDir → ".." ∉ comics.names →
      ∀ loc ∈ comics.lookups files.workingDir, ¬ upload.locate files.workingDir <+: loc ∧
        (comics.locate files.workingDir <+: loc → loc = comics.locate files.workingDir)) := by
  refine ⟨fun dir hupload hcomics => ?_, fun hne => ?_, fun hapart hback loc hloc => ?_⟩
  · have hsame : files.same upload comics = true := by
      rw [FileTree.same, hupload, hcomics]
      exact decide_eq_true rfl
    obtain ⟨rfl, rfl⟩ := Prod.mk.inj ((promote_of_same today hsame).symm.trans h)
    exact ⟨rfl, rfl⟩
  · -- any two directories are those of some site
    obtain ⟨c, rfl, rfl⟩ := exists_directories upload comics
    constructor
    · rintro n rfl
      exact partition_of_promote hnamed hne h
    · rintro e rfl
      obtain ⟨done, hpromoting, -⟩ := promoting_of_promote h
      exact hpromoting.halfDone hnamed hne
  · have hprefix := Location.prefix_of_mem_visits hback hloc
    exact ⟨fun hbelow => hapart (hbelow.trans hprefix), fun hbelow =>
      hprefix.eq_of_length (Nat.le_antisymm hprefix.length_le hbelow.length_le)⟩

/-- On the first day one file of `blockedMove` is moved. On the second day the other one cannot be
moved, and stays where it is, like the directory that is in its place. -/
theorem promotion_is_exact_blocked_move :
    ∃ moved stopped, blockedMove.Named ∧
      (promote "up" "comics" firstDay).perform blockedMove = (.ok 1, moved) ∧
      moved.node? ["up", "20240101.png"] = none ∧
      moved.node? ["comics", "20240101.png"] = some (.file "a".toUTF8) ∧
      (promote "up" "comics" secondDay).perform blockedMove =
        (.error (.move "up/20240102.png" "comics/20240102.png" .isADirectory), stopped) ∧
      stopped.node? ["up", "20240102.png"] = some (.file "b".toUTF8) ∧
      stopped.node? ["comics", "20240102.png"] = some .directory := by
  have hnamed : blockedMove.Named := by decide +kernel
  obtain ⟨moved, hmoved⟩ : ∃ moved, (promote "up" "comics" firstDay).perform blockedMove =
      (.ok 1, moved) := Change.exists_outcome (by decide +kernel)
  obtain ⟨stopped, hstopped⟩ : ∃ stopped,
      (promote "up" "comics" secondDay).perform blockedMove =
        (.error (.move "up/20240102.png" "comics/20240102.png" .isADirectory), stopped) :=
    Change.exists_outcome (by decide +kernel)
  obtain rfl : ((promote "up" "comics" secondDay).perform blockedMove).2 = stopped :=
    congrArg Prod.snd hstopped
  have hupload : Path.locate blockedMove.workingDir "up" = ["up"] := by decide +kernel
  have hcomics : Path.locate blockedMove.workingDir "comics" = ["comics"] := by decide +kernel
  have hlookups : Path.lookups blockedMove.workingDir "comics" = [["comics"]] := by decide +kernel
  have hne : Path.locate blockedMove.workingDir "up" ≠
      Path.locate blockedMove.workingDir "comics" := by
    rw [hupload, hcomics]
    decide
  have hfirst : Due "up" firstDay blockedMove "20240101.png" "a".toUTF8 :=
    ⟨by decide +kernel, firstDay, by decide +kernel, le_refl _⟩
  have hsecond : Due "up" secondDay blockedMove "20240102.png" "b".toUTF8 :=
    ⟨by decide +kernel, secondDay, by decide +kernel, le_refl _⟩
  obtain ⟨-, hmovedAs, -⟩ := promotion_is_exact hnamed hmoved
  obtain ⟨-, hstoppedAs, -⟩ := promotion_is_exact hnamed hstopped
  obtain ⟨hgone, hthere⟩ := ((hmovedAs hne).1 1 rfl).due _ _ hfirst
  rw [hupload] at hgone
  rw [hcomics] at hthere
  refine ⟨moved, _, hnamed, hmoved, hgone, hthere, hstopped, ?_⟩
  rcases ((hstoppedAs hne).2 _ rfl).due _ _ hsecond with ⟨-, harrived⟩ | ⟨hstays, htarget⟩
  · rw [hcomics] at harrived
    exact absurd harrived (by decide +kernel)
  · rw [hupload] at hstays
    rw [hcomics, Untouched, hlookups] at htarget
    rcases htarget with hsame | ⟨hmade, -⟩
    · exact ⟨hstays, hsame.trans (by decide +kernel)⟩
    · exact absurd hmade (by decide)

/-! ## Directories that lie in the way -/

/-- The first file cannot be moved because a directory has its name, and another one can. -/
def twoUploads : FileTree where
  workingDir := []
  nodes :=
    [(["comics"], .directory),
      (["comics", "20240101.png"], .directory),
      (["up"], .directory),
      (["up", "20240101.png"], .file "a".toUTF8),
      (["up2"], .directory),
      (["up2", "20240102.png"], .file "b".toUTF8)]
  distinct := by decide

/-- **A way that goes back through the upload directory leaves a directory there.** It is made
whether the promotion fails or succeeds, though the comics directory is not missing. -/
theorem promotion_makes_the_way :
    let failing : Path := "up/new/../../comics"
    let succeeding : Path := "up2/new/../../comics"
    failing.locate [] = ["comics"] ∧ succeeding.locate [] = ["comics"] ∧
    (∃ after, (promote "up" failing secondDay).perform twoUploads =
        (.error (.move "up/20240101.png" "up/new/../../comics/20240101.png" .isADirectory), after) ∧
      ¬ ∀ loc, ["up"] <+: loc → Elsewhere "up" failing secondDay twoUploads loc →
        after.node? loc = twoUploads.node? loc) ∧
    ∃ after, (promote "up2" succeeding secondDay).perform twoUploads = (.ok 1, after) ∧
      ¬ ∀ loc, ["up2"] <+: loc → Elsewhere "up2" succeeding secondDay twoUploads loc →
        after.node? loc = twoUploads.node? loc := by
  intro failing succeeding
  have hundated : dateOfName? "new" = none := by decide +kernel
  have helsewhere : ∀ (upload comics : Path) (dir : Location),
      Elsewhere upload comics secondDay twoUploads (dir ++ ["new"]) := by
    rintro upload comics dir name content ⟨-, date, hdate, -⟩
    have hname : "new" ≠ name := by
      rintro rfl
      rw [hundated] at hdate
      cases hdate
    exact ⟨concat_ne hname _ _, concat_ne hname _ _⟩
  obtain ⟨stopped, hstopped⟩ : ∃ stopped, (promote "up" failing secondDay).perform twoUploads =
      (.error (.move "up/20240101.png" "up/new/../../comics/20240101.png" .isADirectory),
        stopped) :=
    Change.exists_outcome (by decide +kernel)
  obtain ⟨moved, hmoved⟩ : ∃ moved, (promote "up2" succeeding secondDay).perform twoUploads =
      (.ok 1, moved) := Change.exists_outcome (by decide +kernel)
  refine ⟨by decide +kernel, by decide +kernel, ⟨stopped, hstopped, fun hall => ?_⟩,
    moved, hmoved, fun hall => ?_⟩
  · have hnew := hall (["up"] ++ ["new"]) (List.prefix_append _ _) (helsewhere "up" failing ["up"])
    obtain rfl : ((promote "up" failing secondDay).perform twoUploads).2 = stopped :=
      congrArg Prod.snd hstopped
    exact absurd hnew (by decide +kernel)
  · have hnew := hall (["up2"] ++ ["new"]) (List.prefix_append _ _)
      (helsewhere "up2" succeeding ["up2"])
    obtain rfl : ((promote "up2" succeeding secondDay).perform twoUploads).2 = moved :=
      congrArg Prod.snd hmoved
    exact absurd hnew (by decide +kernel)

end Webcomic.Site
