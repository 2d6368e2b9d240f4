import Webcomic.Proofs.Files.Lookup

/-!
# What changing a tree changes

Every change of a tree comes down to putting a node at one location or taking one away, and to the
location that a path names for it: `writeTarget`, `directoryTarget`, `moveTarget`. These depend on
the path alone and on what is looked at for it, so trees that agree there are changed alike.

- `Filled X t t'`: nothing has changed but that files were written, at locations of `X` where no
  directory was.
- `DifferInFiles X t t'`: the directories are the same, and so are the files outside `X`.
- `Grown L t t'`: nothing has changed but that directories were made, at locations of `L` where
  nothing was. `makeDirectories` makes a tree grow on the way of its path (`grown_makeDirectories`),
  and in the end the way is there (`directory_of_makeDirectories`).
-/

namespace Webcomic.Keyed

variable {κ ν : Type} [DecidableEq κ] {key : κ} {value : ν} {list : List (κ × ν)}

theorem put_eq_append (h : get? key list = none) : put key value list = list ++ [(key, value)] := by
  induction list with
  | nil => rfl
  | cons head rest ih =>
    obtain ⟨k, v⟩ := head
    by_cases hk : k = key
    · rw [get?, if_pos hk] at h
      cases h
    · rw [get?, if_neg hk] at h
      rw [put, if_neg hk, ih h, List.cons_append]

theorem get?_filter (drop : κ → Bool) (key : κ) (list : List (κ × ν)) :
    get? key (list.filter fun (k, _) => !drop k) = if drop key then none else get? key list := by
  induction list with
  | nil => simp
  | cons head rest ih =>
    obtain ⟨k, v⟩ := head
    by_cases hk : k = key
    · subst hk
      cases hdrop : drop k with
      | true => simp [hdrop, ih]
      | false => simp [hdrop, get?]
    · cases hdrop : drop k with
      | true => simp [hdrop, ih, get?, hk]
      | false => simp [hdrop, ih, get?, hk]

end Webcomic.Keyed

namespace Webcomic.Files.FileTree

variable {t t' t'' : FileTree} {X L : Location → Prop} {p : Path} {loc l : Location} {node : Node}
  {content : ByteArray} {fault : Fault}

/-! ## One location -/

/-- No file stands at the root. -/
theorem ne_nil_of_file (h : t.node? loc = some (.file content)) : loc ≠ [] := by
  rintro rfl
  cases h

theorem ne_nil_of_none (h : t.node? loc = none) : loc ≠ [] := by
  rintro rfl
  cases h

/-- **What is set is what stands there**, and nothing else changes. -/
theorem node?_set (hne : loc ≠ []) (node : Node) (l : Location) :
    (t.set loc node).node? l = if l = loc then some node else t.node? l := by
  rw [FileTree.node?, FileTree.node?]
  by_cases hl : l = []
  · subst hl
    rw [if_pos rfl, if_neg (Ne.symm hne), if_pos rfl]
  · rw [if_neg hl, if_neg hl, set, Keyed.get?_put]
    simp only [eq_comm]

theorem node?_set_self (hne : loc ≠ []) : (t.set loc node).node? loc = some node := by
  rw [node?_set hne, if_pos rfl]

theorem node?_set_of_ne (hne : loc ≠ []) (h : l ≠ loc) : (t.set loc node).node? l = t.node? l := by
  rw [node?_set hne, if_neg h]

/-- What is discarded is gone, and nothing else is. -/
theorem node?_discard (drop : Location → Bool) (hne : l ≠ []) :
    (t.discard drop).node? l = if drop l then none else t.node? l := by
  rw [FileTree.node?, FileTree.node?, if_neg hne, if_neg hne, discard, Keyed.get?_filter]

/-- Setting a location changes what stands there and nothing else. -/
theorem agreeOff_set (hne : loc ≠ []) : AgreeOff (· = loc) t (t.set loc node) :=
  ⟨rfl, fun _ h => node?_set_of_ne hne h⟩

/-- Trees that agree go on to do so when the same is set in both. -/
theorem AgreeOff.set (h : AgreeOff X t t') (hne : loc ≠ []) :
    AgreeOff (fun l => X l ∧ l ≠ loc) (t.set loc node) (t'.set loc node) := by
  refine ⟨h.workingDir, fun l hl => ?_⟩
  rw [node?_set hne, node?_set hne]
  split
  · rfl
  next hloc => exact h.node l fun hX => hl ⟨hX, hloc⟩

/-! ## The locations that changes are made at -/

/-- A path names an entry of a directory that is there. The entry itself can be missing. -/
inductive NamesEntry (t : FileTree) (p : Path) : Location → Prop where
  | intro {dir : Location} {name : String} : t.approach p = .ok (dir, some name) →
      ¬ (name = "." ∨ name = "..") → ¬ maxName < name.utf8ByteSize → NamesEntry t p (dir ++ [name])

namespace NamesEntry

theorem eq_locate (h : NamesEntry t p loc) : loc = p.locate t.workingDir := by
  cases h with
  | intro happroach hdot _ => exact (locate_of_approach_some happroach hdot).symm

theorem ne_nil (h : NamesEntry t p loc) : loc ≠ [] := by
  cases h with
  | intro => simp

theorem mem_lookups (h : NamesEntry t p loc) : loc ∈ p.lookups t.workingDir := by
  cases h with
  | intro happroach hdot _ => exact mem_lookups_of_approach happroach hdot

/-- The way to the entry leads through directories. -/
theorem lookups (h : NamesEntry t p loc) :
    ∀ l ∈ p.lookups t.workingDir, l = loc ∨ t.node? l = some .directory := by
  cases h with
  | @intro dir name happroach hdot _ =>
    obtain ⟨before, hbefore, hlookups⟩ := lookups_of_approach happroach
    rw [hlookups]
    intro l hl
    rcases List.mem_append.mp hl with hl | hl
    · exact .inr (hbefore l hl)
    · exact .inl (by simpa [Location.visits, hdot] using hl)

theorem keeps (h : NamesEntry t p loc) (hk : Keeps t t') : NamesEntry t' p loc := by
  cases h with
  | intro happroach hdot hshort => exact .intro (hk.approach happroach) hdot hshort

theorem resolve (h : NamesEntry t p loc) (hnode : t.node? loc = some node)
    (hslash : node.isFile = true → p.endsInSlash = false) : t.resolve p = .ok (loc, node) := by
  rw [resolve_eq_ok_iff]
  cases h with
  | intro happroach hdot hshort => exact .named happroach hdot hshort hnode hslash

end NamesEntry

/-- A file is written in a directory that is there, under a name that is no directory. -/
theorem namesEntry_of_writeTarget (h : t.writeTarget p = .ok loc) :
    NamesEntry t p loc ∧ p.endsInSlash = false ∧ t.node? loc ≠ some .directory := by
  unfold writeTarget at h
  split at h
  · cases h
  · cases h
  next happroach =>
    split at h
    · cases h
    next hdot =>
      split at h
      · cases h
      next hshort =>
        split at h
        · cases h
        next hnode =>
          cases h
          simp only [not_or] at hdot
          exact ⟨.intro happroach (not_or.mpr ⟨hdot.1, hdot.2.1⟩) hshort, by simpa using hdot.2.2,
            hnode⟩

theorem writeTarget_eq_ok_iff :
    t.writeTarget p = .ok loc ↔
      NamesEntry t p loc ∧ p.endsInSlash = false ∧ t.node? loc ≠ some .directory := by
  constructor
  · exact namesEntry_of_writeTarget
  · rintro ⟨hentry, hslash, hnode⟩
    cases hentry with
    | intro happroach hdot hshort =>
      obtain ⟨hdot, hdots⟩ := not_or.mp hdot
      simp [writeTarget, happroach, hdot, hdots, hshort, hnode, hslash]

/-- A directory can be made only where nothing stands. -/
theorem namesEntry_of_directoryTarget (h : t.directoryTarget p = .ok loc) :
    NamesEntry t p loc ∧ t.node? loc = none := by
  unfold directoryTarget at h
  split at h
  · cases h
  · cases h
  next happroach =>
    split at h
    · cases h
    next hdot =>
      split at h
      · cases h
      next hshort =>
        split at h
        · cases h
        next hnode =>
          cases h
          exact ⟨.intro happroach hdot hshort, by simpa using hnode⟩

/-- A file is moved to the places where it could be written. -/
theorem namesEntry_of_moveTarget (h : t.moveTarget p = .ok loc) :
    NamesEntry t p loc ∧ p.endsInSlash = false ∧ t.node? loc ≠ some .directory := by
  unfold moveTarget at h
  split at h
  · cases h
  · cases h
  next happroach =>
    split at h
    · cases h
    next hdot =>
      split at h
      · cases h
      next hshort =>
        split at h
        · cases h
        next hnode =>
          split at h
          · cases h
          next hslash =>
            cases h
            exact ⟨.intro happroach hdot hshort, by simpa using hslash, hnode⟩

theorem moveTarget_eq_ok_iff :
    t.moveTarget p = .ok loc ↔
      NamesEntry t p loc ∧ p.endsInSlash = false ∧ t.node? loc ≠ some .directory := by
  constructor
  · exact namesEntry_of_moveTarget
  · rintro ⟨hentry, hslash, hnode⟩
    cases hentry with
    | intro happroach hdot hshort =>
      simp [moveTarget, happroach, hdot, hshort, hnode, hslash]

namespace AgreeOff

variable (h : AgreeOff X t t') (hp : p.Avoids t.workingDir X)
include h hp

/-- What stands at the last name of a path is looked at too. -/
theorem node_of_approach {dir : Location} {name : String}
    (happroach : t.approach p = .ok (dir, some name)) (hdot : ¬ (name = "." ∨ name = "..")) :
    t'.node? (dir ++ [name]) = t.node? (dir ++ [name]) :=
  h.lookups hp _ (mem_lookups_of_approach happroach hdot)

theorem writeTarget : t'.writeTarget p = t.writeTarget p := by
  unfold FileTree.writeTarget
  rw [h.approach hp]
  split
  · rfl
  · rfl
  next happroach =>
    split
    · rfl
    next hdot => rw [h.node_of_approach hp happroach fun hd => hdot (hd.imp_right .inl)]

theorem directoryTarget : t'.directoryTarget p = t.directoryTarget p := by
  unfold FileTree.directoryTarget
  rw [h.approach hp]
  split
  · rfl
  · rfl
  next happroach =>
    split
    · rfl
    next hdot => rw [h.node_of_approach hp happroach hdot]

theorem moveTarget : t'.moveTarget p = t.moveTarget p := by
  unfold FileTree.moveTarget
  rw [h.approach hp]
  split
  · rfl
  · rfl
  next happroach =>
    split
    · rfl
    next hdot => rw [h.node_of_approach hp happroach hdot]

end AgreeOff

/-! ## Writing -/

/-- A write that succeeds sets the location of the path to the content. -/
theorem set_of_write (h : t.write p content = .ok t') :
    t.writeTarget p = .ok (p.locate t.workingDir) ∧
      t' = t.set (p.locate t.workingDir) (.file content) := by
  unfold write at h
  cases htarget : t.writeTarget p with
  | error fault =>
    rw [htarget] at h
    cases h
  | ok loc =>
    rw [htarget] at h
    cases h
    rw [(namesEntry_of_writeTarget htarget).1.eq_locate]
    exact ⟨rfl, rfl⟩

/-- A tree in which some files were written at locations of `X`, and nothing else. -/
structure Filled (X : Location → Prop) (t t' : FileTree) : Prop where
  workingDir : t'.workingDir = t.workingDir
  node : ∀ loc, t'.node? loc = t.node? loc ∨
    X loc ∧ t.node? loc ≠ some .directory ∧ ∃ content, t'.node? loc = some (.file content)

namespace Filled

theorem refl (X : Location → Prop) (t : FileTree) : Filled X t t :=
  ⟨rfl, fun _ => .inl rfl⟩

theorem trans (h : Filled X t t') (h' : Filled X t' t'') : Filled X t t'' := by
  refine ⟨h'.workingDir.trans h.workingDir, fun loc => ?_⟩
  rcases h'.node loc with heq | ⟨hX, hnode, hfile⟩
  · rw [heq]
    exact h.node loc
  · rcases h.node loc with heq | ⟨-, hnode', -⟩
    · exact .inr ⟨hX, heq ▸ hnode, hfile⟩
    · exact .inr ⟨hX, hnode', hfile⟩

theorem mono {Y : Location → Prop} (h : Filled X t t') (hXY : ∀ loc, X loc → Y loc) :
    Filled Y t t' :=
  ⟨h.workingDir, fun loc => (h.node loc).imp_right fun hl => ⟨hXY loc hl.1, hl.2⟩⟩

theorem keeps (h : Filled X t t') : Keeps t t' := by
  refine ⟨h.workingDir, fun loc hloc => ?_⟩
  rcases h.node loc with heq | ⟨-, hnode, -⟩
  · rw [heq, hloc]
  · exact absurd hloc hnode

theorem agreeOff (h : Filled X t t') : AgreeOff X t t' :=
  ⟨h.workingDir, fun loc hloc => (h.node loc).resolve_right fun hl => hloc hl.1⟩

/-- Where a file was there is one. -/
theorem exists_file (h : Filled X t t') (hfile : t.node? loc = some (.file content)) :
    ∃ content', t'.node? loc = some (.file content') := by
  rcases h.node loc with heq | ⟨-, -, hfile'⟩
  · exact ⟨content, heq.trans hfile⟩
  · exact hfile'

/-- What leads to something goes on doing so. -/
theorem resolve (h : Filled X t t') (hp : t.resolve p = .ok (loc, node)) :
    ∃ node', t'.resolve p = .ok (loc, node') := by
  cases node with
  | directory => exact ⟨_, h.keeps.resolve_directory hp⟩
  | file content =>
    obtain ⟨content', hfile⟩ := h.exists_file (node?_of_resolve_file hp)
    exact ⟨_, h.keeps.resolve_file hp hfile⟩

/-- What is a plain file goes on to be one. -/
theorem isFile (h : Filled X t t') (hp : t.isFile p = true) : t'.isFile p = true := by
  obtain ⟨loc, content, hresolve⟩ := exists_resolve_of_isFile hp
  obtain ⟨content', hfile⟩ := h.exists_file (node?_of_resolve_file hresolve)
  rw [FileTree.isFile, h.keeps.resolve_file hresolve hfile]

end Filled

/-- **A written file is the only change.** -/
theorem filled_of_write (h : t.write p content = .ok t') :
    Filled (· = p.locate t.workingDir) t t' := by
  obtain ⟨htarget, rfl⟩ := set_of_write h
  obtain ⟨hentry, -, hnode⟩ := namesEntry_of_writeTarget htarget
  refine ⟨rfl, fun loc => ?_⟩
  by_cases hloc : loc = p.locate t.workingDir
  · subst hloc
    exact .inr ⟨rfl, hnode, content, node?_set_self hentry.ne_nil⟩
  · exact .inl (node?_set_of_ne hentry.ne_nil hloc)

theorem node?_of_write (h : t.write p content = .ok t') :
    t'.node? (p.locate t.workingDir) = some (.file content) := by
  obtain ⟨htarget, rfl⟩ := set_of_write h
  exact node?_set_self (namesEntry_of_writeTarget htarget).1.ne_nil

/-- What was written is found, as long as it is there and the directories are. -/
theorem resolve_of_write (h : t.write p content = .ok t') (hk : Keeps t' t'')
    (hnode : t''.node? (p.locate t.workingDir) = some (.file content)) :
    t''.resolve p = .ok (p.locate t.workingDir, .file content) := by
  obtain ⟨hentry, hslash, -⟩ := namesEntry_of_writeTarget (set_of_write h).1
  exact (hentry.keeps ((filled_of_write h).keeps.trans hk)).resolve hnode fun _ => hslash

/-- What was written is read again for as long as it stands there and no directory on its way is
lost. -/
theorem read_of_write (h : t.write p content = .ok t') (hk : Keeps t' t'')
    (hnode : t''.node? (p.locate t.workingDir) = some (.file content)) :
    t''.read p = .ok content := by
  rw [read, resolve_of_write h hk hnode]

/-- A path that was written is a file from then on. -/
theorem isFile_of_write (h : t.write p content = .ok t') : t'.isFile p = true := by
  rw [isFile, resolve_of_write h (.refl _) (node?_of_write h)]

/-! ## Trees with the same directories -/

/-- Two trees that hold the same but for the files at locations of `X`. Their directories are the
same. -/
structure DifferInFiles (X : Location → Prop) (t t' : FileTree) : Prop extends AgreeOff X t t' where
  directory_iff : ∀ loc, t'.node? loc = some .directory ↔ t.node? loc = some .directory

namespace DifferInFiles

theorem refl (X : Location → Prop) (t : FileTree) : DifferInFiles X t t :=
  ⟨.refl X t, fun _ => Iff.rfl⟩

theorem symm (h : DifferInFiles X t t') : DifferInFiles X t' t :=
  ⟨h.toAgreeOff.symm, fun loc => (h.directory_iff loc).symm⟩

theorem keeps (h : DifferInFiles X t t') : Keeps t t' :=
  ⟨h.workingDir, fun loc => (h.directory_iff loc).mpr⟩

/-- A file can be written in both trees or in none. -/
theorem writeTarget_eq_ok_iff (h : DifferInFiles X t t') :
    t'.writeTarget p = .ok loc ↔ t.writeTarget p = .ok loc := by
  rw [FileTree.writeTarget_eq_ok_iff, FileTree.writeTarget_eq_ok_iff, ne_eq, ne_eq,
    h.directory_iff loc]
  exact and_congr_left fun _ => ⟨fun hentry => hentry.keeps h.symm.keeps, fun hentry =>
    hentry.keeps h.keeps⟩

end DifferInFiles

/-- Writing a file changes no directory. -/
theorem differInFiles_of_write (h : t.write p content = .ok t') (hX : X (p.locate t.workingDir)) :
    DifferInFiles X t t' := by
  have hfilled := filled_of_write h
  refine ⟨hfilled.agreeOff.mono fun loc hloc => hloc ▸ hX, fun loc => ?_⟩
  rcases hfilled.node loc with heq | ⟨-, hnode, written, hwritten⟩
  · rw [heq]
  · rw [hwritten]
    exact iff_of_false nofun hnode

/-- Where a path names a file, a file can be written. -/
theorem exists_writeTarget_of_isFile (h : t.isFile p = true) :
    ∃ loc, t.writeTarget p = .ok loc := by
  obtain ⟨loc, content, hresolve⟩ := exists_resolve_of_isFile h
  rw [resolve_eq_ok_iff] at hresolve
  cases hresolve with
  | named happroach hdot hshort hnode hslash =>
    refine ⟨_, writeTarget_eq_ok_iff.mpr ⟨.intro happroach hdot hshort, hslash rfl, ?_⟩⟩
    rw [hnode]
    nofun

/-! ## Making directories -/

/-- A tree in which some directories of `L` were made where nothing was, and nothing else. -/
structure Grown (L : Location → Prop) (t t' : FileTree) : Prop where
  workingDir : t'.workingDir = t.workingDir
  /-- The plain files are the same, in the same order. -/
  plain : t'.nodes.filter (·.2.isFile) = t.nodes.filter (·.2.isFile)
  node : ∀ loc, t'.node? loc = t.node? loc ∨
    L loc ∧ t.node? loc = none ∧ t'.node? loc = some .directory

namespace Grown

theorem refl (L : Location → Prop) (t : FileTree) : Grown L t t :=
  ⟨rfl, rfl, fun _ => .inl rfl⟩

theorem trans (h : Grown L t t') (h' : Grown L t' t'') : Grown L t t'' := by
  refine ⟨h'.workingDir.trans h.workingDir, h'.plain.trans h.plain, fun loc => ?_⟩
  rcases h'.node loc with heq | ⟨hL, hnone, hdir⟩
  · rw [heq]
    exact h.node loc
  · rcases h.node loc with heq | ⟨-, -, hdir'⟩
    · exact .inr ⟨hL, heq ▸ hnone, hdir⟩
    · rw [hdir'] at hnone
      cases hnone

theorem mono {L' : Location → Prop} (h : Grown L t t') (hL : ∀ loc, L loc → L' loc) :
    Grown L' t t' :=
  ⟨h.workingDir, h.plain, fun loc => (h.node loc).imp_right fun hl => ⟨hL loc hl.1, hl.2⟩⟩

theorem set (hL : L loc) (h : t.node? loc = none) : Grown L t (t.set loc .directory) := by
  have hne := ne_nil_of_none h
  refine ⟨rfl, ?_, fun l => ?_⟩
  · rw [FileTree.node?, if_neg hne] at h
    show List.filter _ (Keyed.put loc .directory t.nodes) = _
    rw [Keyed.put_eq_append h, List.filter_append]
    exact List.append_nil _
  · by_cases hl : l = loc
    · subst hl
      exact .inr ⟨hL, h, node?_set_self hne⟩
    · exact .inl (node?_set_of_ne hne hl)

theorem keeps (h : Grown L t t') : Keeps t t' := by
  refine ⟨h.workingDir, fun loc hloc => ?_⟩
  rcases h.node loc with heq | ⟨-, -, hdir⟩
  · rw [heq, hloc]
  · exact hdir

theorem agreeOff (h : Grown L t t') : AgreeOff L t t' :=
  ⟨h.workingDir, fun loc hloc => (h.node loc).resolve_right fun hl => hloc hl.1⟩

/-- The files are where they were. -/
theorem file_iff (h : Grown L t t') :
    t'.node? loc = some (.file content) ↔ t.node? loc = some (.file content) := by
  rcases h.node loc with heq | ⟨-, hnone, hdir⟩
  · rw [heq]
  · rw [hnone, hdir]
    simp

end Grown

/-- A directory that is made stands at the end of a way of directories. -/
theorem set_of_makeDirectory (h : t.makeDirectory p = .ok t') :
    Grown (· ∈ p.lookups t.workingDir) t t' ∧
      ∀ l ∈ p.lookups t.workingDir, t'.node? l = some .directory := by
  unfold makeDirectory at h
  cases htarget : t.directoryTarget p with
  | error fault =>
    rw [htarget] at h
    cases h
  | ok loc =>
    rw [htarget] at h
    cases h
    obtain ⟨hentry, hnone⟩ := namesEntry_of_directoryTarget htarget
    refine ⟨.set hentry.mem_lookups hnone, fun l hl => ?_⟩
    rw [node?_set hentry.ne_nil]
    split
    · rfl
    next hne => exact (hentry.lookups l hl).resolve_left hne

/-- A path that names a directory is looked up through directories. -/
theorem directory_of_isDirectory (h : t.isDirectory p = true) :
    ∀ l ∈ p.lookups t.workingDir, t.node? l = some .directory := by
  obtain ⟨loc, hresolve⟩ := exists_resolve_of_isDirectory h
  exact lookups_of_resolve_directory hresolve

/-- Whether or not they all can be made, nothing is added but directories on the way. -/
theorem grown_makeDirectoriesUpTo (t : FileTree) (p : Path) (depth : Nat) :
    Grown (· ∈ p.lookups t.workingDir) t (t.makeDirectoriesUpTo p depth).1 := by
  induction depth generalizing p with
  | zero => exact .refl _ _
  | succ depth ih =>
    unfold makeDirectoriesUpTo
    split
    · exact .refl _ _
    split
    next hmake => exact (set_of_makeDirectory hmake).1
    · split
      · exact .refl _ _
      next parent hparent =>
        -- the way to the parent is a part of the way
        have hgrown := (ih parent).mono (Path.lookups_parent?_subset hparent)
        split
        next hrest =>
          rw [hrest] at hgrown
          exact hgrown
        next t' hrest =>
          rw [hrest] at hgrown
          split
          next hmake =>
            have hlast := (set_of_makeDirectory hmake).1
            rw [hgrown.workingDir] at hlast
            exact hgrown.trans hlast
          · exact hgrown
    · exact .refl _ _

/-- **Only directories on the way are made.** -/
theorem grown_makeDirectories (t : FileTree) (p : Path) :
    Grown (· ∈ p.lookups t.workingDir) t (t.makeDirectories p).1 :=
  grown_makeDirectoriesUpTo t p _

theorem lookups_empty (wd : Location) : Path.lookups wd "" = [] := rfl

/-- When all of them have been made, or were there, the whole way consists of directories. -/
theorem directory_of_makeDirectoriesUpTo {depth : Nat} (hdepth : p.length < depth)
    (h : t.makeDirectoriesUpTo p depth = (t', none)) :
    ∀ l ∈ p.lookups t.workingDir, t'.node? l = some .directory := by
  cases depth with
  | zero => omega
  | succ depth =>
    -- a fault is passed over only where the path names a directory already
    have hfault : ∀ {s : FileTree} {fault : Fault}, s.workingDir = t.workingDir →
        ((s, if s.isDirectory p then none else some fault) : FileTree × Option Fault) = (t', none) →
        ∀ l ∈ p.lookups t.workingDir, t'.node? l = some .directory := by
      intro s fault hwd heq
      obtain ⟨rfl, hnone⟩ := Prod.mk.inj heq
      split at hnone
      next hdir => exact hwd ▸ directory_of_isDirectory hdir
      · cases hnone
    unfold makeDirectoriesUpTo at h
    split at h
    next hempty =>
      obtain rfl : p = "" := by simpa using hempty
      rw [lookups_empty]
      exact fun l hl => absurd hl List.not_mem_nil
    split at h
    next hmake =>
      cases h
      exact (set_of_makeDirectory hmake).2
    · split at h
      · cases h
      next parent hparent =>
        have hgrown := grown_makeDirectoriesUpTo t parent depth
        split at h
        · cases h
        next t₁ hrest =>
          rw [hrest] at hgrown
          split at h
          next hmake =>
            cases h
            exact hgrown.workingDir ▸ (set_of_makeDirectory hmake).2
          · -- another has made the last directory, or there is a file in its place
            exact hfault hgrown.workingDir h
    · exact hfault rfl h

/-- **In the end the way is there.** -/
theorem directory_of_makeDirectories (h : (t.makeDirectories p).2 = none) :
    ∀ l ∈ p.lookups t.workingDir, (t.makeDirectories p).1.node? l = some .directory :=
  directory_of_makeDirectoriesUpTo (Nat.lt_succ_self _) (Prod.ext rfl h)

namespace AgreeOff

/-- A directory that can be made in one tree can be made in the other, and they go on to agree. -/
theorem makeDirectory (h : AgreeOff X t t') (hp : p.Avoids t.workingDir X) :
    (∃ s s', t.makeDirectory p = .ok s ∧ t'.makeDirectory p = .ok s' ∧ AgreeOff X s s') ∨
      ∃ fault, t.makeDirectory p = .error fault ∧ t'.makeDirectory p = .error fault := by
  rw [FileTree.makeDirectory, FileTree.makeDirectory, h.directoryTarget hp]
  cases htarget : t.directoryTarget p with
  | error fault => exact .inr ⟨fault, rfl, rfl⟩
  | ok loc =>
    have hne := (namesEntry_of_directoryTarget htarget).1.ne_nil
    exact .inl ⟨_, _, rfl, rfl, (h.set hne).mono fun _ hl => hl.1⟩

theorem makeDirectoriesUpTo (h : AgreeOff X t t') (hp : p.Avoids t.workingDir X) (depth : Nat) :
    (t'.makeDirectoriesUpTo p depth).2 = (t.makeDirectoriesUpTo p depth).2 ∧
      AgreeOff X (t.makeDirectoriesUpTo p depth).1 (t'.makeDirectoriesUpTo p depth).1 := by
  induction depth generalizing p with
  | zero => exact ⟨rfl, h⟩
  | succ depth ih =>
    by_cases hempty : p.isEmpty = true
    · simp only [FileTree.makeDirectoriesUpTo, if_pos hempty]
      exact ⟨trivial, h⟩
    rcases h.makeDirectory hp with ⟨s, s', hs, hs', hagree⟩ | ⟨fault, hf, hf'⟩
    · simp only [FileTree.makeDirectoriesUpTo, if_neg hempty, hs, hs']
      exact ⟨trivial, hagree⟩
    by_cases hmissing : fault = .notFound
    · subst hmissing
      cases hparent : p.parent? with
      | none =>
        simp only [FileTree.makeDirectoriesUpTo, if_neg hempty, hf, hf', hparent]
        exact ⟨trivial, h⟩
      | some parent =>
        have hway : parent.Avoids t.workingDir X :=
          fun l hl => hp l (Path.lookups_parent?_subset hparent hl)
        obtain ⟨hfault, hagree⟩ := ih hway
        have hwd := (grown_makeDirectoriesUpTo t parent depth).workingDir
        simp only [FileTree.makeDirectoriesUpTo, if_neg hempty, hf, hf', hparent]
        generalize t.makeDirectoriesUpTo parent depth = made at hfault hagree hwd ⊢
        generalize t'.makeDirectoriesUpTo parent depth = made' at hfault hagree ⊢
        obtain ⟨s, fault⟩ := made
        obtain ⟨s', fault'⟩ := made'
        obtain rfl : fault' = fault := hfault
        cases fault' with
        | some fault => exact ⟨rfl, hagree⟩
        | none =>
          have hp' : p.Avoids s.workingDir X := fun l hl => hp l (hwd ▸ hl)
          rcases hagree.makeDirectory hp' with ⟨r, r', hr, hr', hlast⟩ | ⟨fault, hr, hr'⟩
          · simp only [hr, hr']
            exact ⟨trivial, hlast⟩
          · simp only [hr, hr', hagree.isDirectory hp']
            exact ⟨trivial, hagree⟩
    · -- any other fault ends the attempt, with the trees as they were
      have hunfold : ∀ r : FileTree, r.makeDirectory p = .error fault →
          r.makeDirectoriesUpTo p (depth + 1) =
            (r, if r.isDirectory p then none else some fault) := by
        intro r hr
        rw [FileTree.makeDirectoriesUpTo, if_neg hempty, hr]
        cases fault with
        | notFound => exact absurd rfl hmissing
        | _ => rfl
      rw [hunfold t hf, hunfold t' hf', h.isDirectory hp]
      exact ⟨rfl, h⟩

/-- **The same directories are made in trees that agree**, with the same fault. -/
theorem makeDirectories (h : AgreeOff X t t') (hp : p.Avoids t.workingDir X) :
    (t'.makeDirectories p).2 = (t.makeDirectories p).2 ∧
      AgreeOff X (t.makeDirectories p).1 (t'.makeDirectories p).1 :=
  h.makeDirectoriesUpTo hp _

end AgreeOff

/-! ## Moving -/

/-- What a move does: nothing if the file is there already, and else it takes the file from where it
is and puts it where it is to be. -/
theorem exists_of_move {source target : Path} (h : t.move source target = .ok t') :
    ∃ content, t.node? (source.locate t.workingDir) = some (.file content) ∧
      t.moveTarget target = .ok (target.locate t.workingDir) ∧
      t' = if target.locate t.workingDir = source.locate t.workingDir then t
        else (t.discard (· = source.locate t.workingDir)).set (target.locate t.workingDir)
          (.file content) := by
  unfold move at h
  split at h
  · cases h
  · cases h
  next old content hresolve =>
    cases htarget : t.moveTarget target with
    | error fault =>
      rw [htarget] at h
      cases h
    | ok new =>
      rw [htarget] at h
      cases h
      obtain rfl := eq_locate_of_resolve hresolve
      obtain rfl := (namesEntry_of_moveTarget htarget).1.eq_locate
      exact ⟨content, node?_of_resolve_file hresolve, rfl, rfl⟩

/-- What a tree holds after a move to another place. -/
theorem node?_of_move {old new : Location} (hnew : new ≠ []) (hl : l ≠ []) :
    ((t.discard (· = old)).set new (.file content)).node? l =
      if l = new then some (.file content) else if l = old then none else t.node? l := by
  rw [node?_set hnew]
  split
  · rfl
  · rw [node?_discard _ hl]
    simp

/-! ### Moves that are possible -/

section

variable {source target : Path}

/-- A move takes a plain file to a place where there is no directory. -/
theorem exists_move_iff :
    (∃ t', t.move source target = .ok t') ↔
      (∃ content, t.resolve source = .ok (source.locate t.workingDir, .file content)) ∧
        t.moveTarget target = .ok (target.locate t.workingDir) := by
  constructor
  · rintro ⟨t', h⟩
    obtain ⟨-, -, htarget, -⟩ := exists_of_move h
    refine ⟨?_, htarget⟩
    -- the source is a file, or else there would be nothing to move
    unfold move at h
    split at h
    · cases h
    · cases h
    next hresolve =>
      obtain rfl := eq_locate_of_resolve hresolve
      exact ⟨_, hresolve⟩
  · rintro ⟨⟨content, hsource⟩, htarget⟩
    simp [move, hsource, htarget, Except.map]

/-- A move makes no directory. -/
theorem keeps_back_of_move (h : t.move source target = .ok t') : Keeps t' t := by
  obtain ⟨content, hold, htarget, rfl⟩ := exists_of_move h
  have hentry := (namesEntry_of_moveTarget htarget).1
  split
  · exact .refl _
  refine ⟨rfl, fun loc hloc => ?_⟩
  by_cases hroot : loc = []
  · rw [hroot]
    rfl
  rw [node?_of_move hentry.ne_nil hroot] at hloc
  split at hloc
  · cases hloc
  · split at hloc
    · cases hloc
    · -- it is neither where the file went nor where it came from
      exact hloc

/-- Trees with the same directories allow the same moves of files that both have. -/
theorem exists_move_of_keeps (hkeeps : Keeps t t') (hback : Keeps t' t)
    (hsource : t'.node? (source.locate t.workingDir) = t.node? (source.locate t.workingDir))
    (h : ∃ s, t.move source target = .ok s) : ∃ s, t'.move source target = .ok s := by
  rw [exists_move_iff] at h ⊢
  obtain ⟨⟨content, hresolve⟩, htarget⟩ := h
  rw [hkeeps.workingDir]
  refine ⟨⟨content, hkeeps.resolve_file hresolve ?_⟩, ?_⟩
  · rw [hsource]
    exact node?_of_resolve_file hresolve
  · obtain ⟨hentry, hslash, hnode⟩ := moveTarget_eq_ok_iff.mp htarget
    exact moveTarget_eq_ok_iff.mpr
      ⟨hentry.keeps hkeeps, hslash, fun hdir => hnode (hback.directory _ hdir)⟩

end

end Webcomic.Files.FileTree
