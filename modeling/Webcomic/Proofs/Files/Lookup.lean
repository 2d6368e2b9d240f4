import Webcomic.Files.Resolve
import Webcomic.Proofs.Files.Names

/-!
# What looking up a path depends on

A path is resolved name by name, and each name is looked at in the tree (`Path.lookups`). So trees
that hold the same at these locations resolve the path alike, whatever else they hold:

- `AgreeOff X t t'`: two trees hold the same at every location but those of `X`. A path that avoids
  `X` is read, written and listed alike in both.
- `Keeps t t'`: every directory of one tree is one of the other. A path that leads to a directory or
  a file by way of directories still does, if its end is still there.
-/

namespace Webcomic.Files

/-- A path is resolved without looking at a location of `X`. -/
def Path.Avoids (wd : Location) (X : Location → Prop) (p : Path) : Prop :=
  ∀ loc ∈ p.lookups wd, ¬ X loc

instance (wd : Location) (X : Location → Prop) [DecidablePred X] (p : Path) :
    Decidable (p.Avoids wd X) := by
  unfold Path.Avoids; infer_instance

namespace FileTree

/-- Two trees that hold the same, but for the locations of `X`. -/
structure AgreeOff (X : Location → Prop) (t t' : FileTree) : Prop where
  workingDir : t'.workingDir = t.workingDir
  node : ∀ loc, ¬ X loc → t'.node? loc = t.node? loc

/-- The directories of one tree are directories of the other. -/
structure Keeps (t t' : FileTree) : Prop where
  workingDir : t'.workingDir = t.workingDir
  directory : ∀ loc, t.node? loc = some .directory → t'.node? loc = some .directory

variable {t t' t'' : FileTree} {X Y : Location → Prop} {p : Path} {loc dir : Location}
  {names : List String} {name : String}

/-! ## The way to the last name -/

/-- The names `.` and `..` are followed without looking at the tree. -/
theorem enterDirectory_of_dots (h : name = "." ∨ name = "..") (loc : Location) :
    t.enterDirectory loc name = .ok (loc.enter name) := by
  rw [enterDirectory, if_pos h]

/-- Entering a directory looks at that directory alone. -/
theorem enterDirectory_congr
    (h : ¬ (name = "." ∨ name = "..") → t'.node? (loc ++ [name]) = t.node? (loc ++ [name])) :
    t'.enterDirectory loc name = t.enterDirectory loc name := by
  by_cases hdot : name = "." ∨ name = ".."
  · rw [enterDirectory_of_dots hdot, enterDirectory_of_dots hdot]
  · rw [enterDirectory, enterDirectory, h hdot]

/-- A directory is entered where one stands. -/
theorem directory_of_enterDirectory {loc' : Location} (h : t.enterDirectory loc name = .ok loc')
    (hdot : ¬ (name = "." ∨ name = "..")) : t.node? (loc ++ [name]) = some .directory := by
  rw [enterDirectory, if_neg hdot] at h
  split at h
  · cases h
  · split at h
    · cases h
    · cases h
    · assumption

/-- A way looks at the directories it visits, and at nothing else. -/
theorem foldlM_enterDirectory_congr
    (h : ∀ l ∈ loc.visits names, t'.node? l = t.node? l) :
    names.foldlM t'.enterDirectory loc = names.foldlM t.enterDirectory loc := by
  induction names generalizing loc with
  | nil => rfl
  | cons name names ih =>
    have hname : t'.enterDirectory loc name = t.enterDirectory loc name := by
      refine enterDirectory_congr fun hdot => h _ ?_
      rw [Location.visits, if_neg hdot]
      exact List.mem_cons_self
    rw [List.foldlM_cons, List.foldlM_cons, hname]
    cases hstep : t.enterDirectory loc name with
    | error fault => rfl
    | ok next =>
      refine ih fun l hl => h l ?_
      rw [Location.visits, ← eq_enter_of_enterDirectory hstep]
      exact List.mem_append_right _ hl

/-- A way that can be gone leads through directories. -/
theorem directory_of_foldlM {loc' : Location} (h : names.foldlM t.enterDirectory loc = .ok loc') :
    ∀ l ∈ loc.visits names, t.node? l = some .directory := by
  induction names generalizing loc with
  | nil => simp [Location.visits]
  | cons name names ih =>
    rw [List.foldlM_cons] at h
    cases hstep : t.enterDirectory loc name with
    | error fault =>
      rw [hstep] at h
      cases h
    | ok next =>
      rw [hstep] at h
      intro l hl
      rw [Location.visits, ← eq_enter_of_enterDirectory hstep, List.mem_append] at hl
      rcases hl with hl | hl
      · by_cases hdot : name = "." ∨ name = ".."
        · rw [if_pos hdot] at hl
          cases hl
        · rw [if_neg hdot, List.mem_singleton] at hl
          subst hl
          exact directory_of_enterDirectory hstep hdot
      · exact ih h l hl

/-! ## Approaching a path -/

theorem dropLast_append_getLast? (names : List String) :
    names.dropLast ++ names.getLast?.toList = names := by
  cases hlast : names.getLast? with
  | none =>
    rw [List.getLast?_eq_none_iff.mp hlast]
    rfl
  | some name =>
    obtain ⟨before, rfl⟩ := List.getLast?_eq_some_iff.mp hlast
    rw [List.dropLast_concat]
    rfl

/-- What is looked at for a path that can be approached: directories, and then the last name. -/
theorem lookups_of_approach {last : Option String} (h : t.approach p = .ok (dir, last)) :
    ∃ before, (∀ l ∈ before, t.node? l = some .directory) ∧
      p.lookups t.workingDir = before ++ dir.visits last.toList := by
  unfold approach at h
  split at h
  · cases h
  split at h
  · cases h
  split at h
  · cases h
  split at h
  · cases h
  next hdir =>
    cases h
    refine ⟨_, directory_of_foldlM hdir, ?_⟩
    rw [Path.lookups, eq_foldl_of_foldlM hdir, ← Location.visits_append]
    congr 1
    exact (dropLast_append_getLast? p.names).symm

/-- The name that an approach leaves open is the last one of the path. -/
theorem getLast?_of_approach {last : Option String} (h : t.approach p = .ok (dir, last)) :
    p.names.getLast? = last := by
  unfold approach at h
  split at h
  · cases h
  split at h
  · cases h
  split at h
  · cases h
  split at h
  · cases h
  · cases h
    rfl

/-- An approach depends on nothing but what the path looks at. -/
theorem approach_congr (hwd : t'.workingDir = t.workingDir)
    (h : ∀ l ∈ p.lookups t.workingDir, t'.node? l = t.node? l) : t'.approach p = t.approach p := by
  have hway : p.names.dropLast.foldlM t'.enterDirectory (p.start t'.workingDir) =
      p.names.dropLast.foldlM t.enterDirectory (p.start t.workingDir) := by
    rw [hwd]
    refine foldlM_enterDirectory_congr fun l hl => h l ?_
    rw [Path.lookups, ← dropLast_append_getLast? p.names, Location.visits_append]
    exact List.mem_append_left _ hl
  unfold approach
  rw [hway]

/-- The last name of a path that is approached is looked at. -/
theorem mem_lookups_of_approach (h : t.approach p = .ok (dir, some name))
    (hdot : ¬ (name = "." ∨ name = "..")) : dir ++ [name] ∈ p.lookups t.workingDir := by
  obtain ⟨before, -, hlookups⟩ := lookups_of_approach h
  rw [hlookups]
  refine List.mem_append_right _ ?_
  simp [Location.visits, hdot]

/-- A path that ends in a plain name is located in the directory it is approached through. -/
theorem locate_of_approach_some (h : t.approach p = .ok (dir, some name))
    (hdot : ¬ (name = "." ∨ name = "..")) : p.locate t.workingDir = dir ++ [name] := by
  rw [not_or] at hdot
  have hlocate := locate_of_approach h
  rwa [Option.map_some, Option.getD_some, Location.enter, if_neg hdot.1, if_neg hdot.2] at hlocate

/-- A path leads to a location and what it holds. -/
inductive Resolves (t : FileTree) (p : Path) : Location → Node → Prop where
  | nameless {dir : Location} : t.approach p = .ok (dir, none) → Resolves t p dir .directory
  | dots {dir : Location} {name : String} : t.approach p = .ok (dir, some name) →
      name = "." ∨ name = ".." → Resolves t p (dir.enter name) .directory
  | named {dir : Location} {name : String} {node : Node} :
      t.approach p = .ok (dir, some name) → ¬ (name = "." ∨ name = "..") →
      ¬ maxName < name.utf8ByteSize → t.node? (dir ++ [name]) = some node →
      (node.isFile = true → p.endsInSlash = false) → Resolves t p (dir ++ [name]) node

/-- **Where a path leads**, in three cases: it has no name, it ends in `.` or `..`, or its last name
is looked up. -/
theorem resolve_eq_ok_iff {node : Node} :
    t.resolve p = .ok (loc, node) ↔ Resolves t p loc node := by
  constructor
  · intro h
    unfold resolve at h
    split at h
    · cases h
    next happroach =>
      cases h
      exact .nameless happroach
    next happroach =>
      split at h
      next hdot =>
        cases h
        exact .dots happroach hdot
      next hdot =>
        split at h
        · cases h
        next hshort =>
          split at h
          · cases h
          next hnode =>
            cases h
            exact .named happroach hdot hshort hnode nofun
          next hnode =>
            split at h
            · cases h
            next hslash =>
              cases h
              exact .named happroach hdot hshort hnode fun _ => by simpa using hslash
  · intro h
    cases h with
    | nameless happroach => simp only [resolve, happroach]
    | dots happroach hdot => simp only [resolve, happroach, if_pos hdot]
    | @named dir name node happroach hdot hshort hnode hslash =>
      simp only [resolve, happroach, if_neg hdot, if_neg hshort, hnode]
      cases node with
      | directory => rfl
      | file content => simp [hslash rfl]

/-- What `isFile` finds has a content. -/
theorem exists_resolve_of_isFile (h : t.isFile p = true) :
    ∃ loc content, t.resolve p = .ok (loc, .file content) := by
  unfold isFile at h
  split at h
  next loc content hresolve => exact ⟨loc, content, hresolve⟩
  · cases h

theorem exists_resolve_of_isDirectory (h : t.isDirectory p = true) :
    ∃ loc, t.resolve p = .ok (loc, .directory) := by
  unfold isDirectory at h
  split at h
  next loc hresolve => exact ⟨loc, hresolve⟩
  · cases h

/-! ## Trees that agree on what is looked at -/

/-- **A path leads to the same place in trees that hold the same where it looks.** -/
theorem resolve_congr (hwd : t'.workingDir = t.workingDir)
    (h : ∀ l ∈ p.lookups t.workingDir, t'.node? l = t.node? l) : t'.resolve p = t.resolve p := by
  rw [resolve, resolve, approach_congr hwd h]
  cases happroach : t.approach p with
  | error fault => rfl
  | ok found =>
    obtain ⟨dir, last⟩ := found
    cases last with
    | none => rfl
    | some name =>
      by_cases hdot : name = "." ∨ name = ".."
      · simp only [if_pos hdot]
      · have hnode := h _ (mem_lookups_of_approach happroach hdot)
        simp only [if_neg hdot, hnode]

namespace AgreeOff

theorem refl (X : Location → Prop) (t : FileTree) : AgreeOff X t t :=
  ⟨rfl, fun _ _ => rfl⟩

theorem symm (h : AgreeOff X t t') : AgreeOff X t' t :=
  ⟨h.workingDir.symm, fun loc hloc => (h.node loc hloc).symm⟩

theorem trans (h : AgreeOff X t t') (h' : AgreeOff X t' t'') : AgreeOff X t t'' :=
  ⟨h'.workingDir.trans h.workingDir, fun loc hloc => (h'.node loc hloc).trans (h.node loc hloc)⟩

/-- Trees that agree off some locations agree off more of them. -/
theorem mono (h : AgreeOff X t t') (hXY : ∀ loc, X loc → Y loc) : AgreeOff Y t t' :=
  ⟨h.workingDir, fun loc hloc => h.node loc fun hX => hloc (hXY loc hX)⟩

variable (h : AgreeOff X t t') (hp : p.Avoids t.workingDir X)
include h hp

/-- What avoids the locations where two trees differ never sees a difference. The lemmas that follow
say so for each question that is asked about a path. -/
theorem lookups : ∀ l ∈ p.lookups t.workingDir, t'.node? l = t.node? l :=
  fun l hl => h.node l (hp l hl)

theorem approach : t'.approach p = t.approach p :=
  approach_congr h.workingDir (h.lookups hp)

theorem resolve : t'.resolve p = t.resolve p :=
  resolve_congr h.workingDir (h.lookups hp)

theorem read : t'.read p = t.read p := by
  rw [FileTree.read, FileTree.read, h.resolve hp]

theorem isFile : t'.isFile p = t.isFile p := by
  rw [FileTree.isFile, FileTree.isFile, h.resolve hp]

theorem isDirectory : t'.isDirectory p = t.isDirectory p := by
  rw [FileTree.isDirectory, FileTree.isDirectory, h.resolve hp]

theorem same {q : Path} (hq : q.Avoids t.workingDir X) : t'.same p q = t.same p q := by
  rw [FileTree.same, FileTree.same, h.resolve hp, h.resolve hq]

end AgreeOff

/-! ## Trees that keep their directories -/

namespace Keeps

theorem refl (t : FileTree) : Keeps t t := ⟨rfl, fun _ h => h⟩

theorem trans (h : Keeps t t') (h' : Keeps t' t'') : Keeps t t'' :=
  ⟨h'.workingDir.trans h.workingDir, fun loc hloc => h'.directory loc (h.directory loc hloc)⟩

/-- A way through directories can still be gone. -/
theorem approach (h : Keeps t t') {found : Location × Option String}
    (happroach : t.approach p = .ok found) : t'.approach p = .ok found := by
  obtain ⟨dir, last⟩ := found
  unfold FileTree.approach at happroach ⊢
  split at happroach
  · cases happroach
  split at happroach
  · cases happroach
  split at happroach
  · cases happroach
  split at happroach
  · cases happroach
  next hnul hempty hlong _ loc hway =>
    have hway' : p.names.dropLast.foldlM t'.enterDirectory (p.start t'.workingDir) = .ok loc := by
      rw [h.workingDir, ← hway]
      refine foldlM_enterDirectory_congr fun l hl => ?_
      have hdir := directory_of_foldlM hway l hl
      rw [h.directory l hdir, hdir]
    rw [if_neg hnul, if_neg hempty, if_neg hlong, hway']
    exact happroach

/-- What leads to a directory goes on doing so. -/
theorem resolve_directory (h : Keeps t t') (hp : t.resolve p = .ok (loc, .directory)) :
    t'.resolve p = .ok (loc, .directory) := by
  rw [resolve_eq_ok_iff] at hp ⊢
  cases hp with
  | nameless happroach => exact .nameless (h.approach happroach)
  | dots happroach hdot => exact .dots (h.approach happroach) hdot
  | named happroach hdot hshort hnode hslash =>
    exact .named (h.approach happroach) hdot hshort (h.directory _ hnode) hslash

/-- What leads to a file goes on doing so, if there is one at its location. -/
theorem resolve_file (h : Keeps t t') {content content' : ByteArray}
    (hp : t.resolve p = .ok (loc, .file content)) (hnode : t'.node? loc = some (.file content')) :
    t'.resolve p = .ok (loc, .file content') := by
  rw [resolve_eq_ok_iff] at hp ⊢
  cases hp with
  | named happroach hdot hshort _ hslash =>
    exact .named (h.approach happroach) hdot hshort hnode fun _ => hslash rfl

end Keeps

/-- A path that leads to a directory is looked up through directories only. -/
theorem lookups_of_resolve_directory (h : t.resolve p = .ok (loc, .directory)) :
    ∀ l ∈ p.lookups t.workingDir, t.node? l = some .directory := by
  rw [resolve_eq_ok_iff] at h
  cases h with
  | nameless happroach =>
    obtain ⟨before, hbefore, hlookups⟩ := lookups_of_approach happroach
    rw [hlookups]
    simpa [Location.visits] using hbefore
  | dots happroach hdot =>
    obtain ⟨before, hbefore, hlookups⟩ := lookups_of_approach happroach
    rw [hlookups]
    simpa [Location.visits, hdot] using hbefore
  | named happroach hdot _ hnode _ =>
    obtain ⟨before, hbefore, hlookups⟩ := lookups_of_approach happroach
    rw [hlookups]
    intro l hl
    rcases List.mem_append.mp hl with hl | hl
    · exact hbefore l hl
    · obtain rfl : l = _ := by simpa [Location.visits, hdot] using hl
      exact hnode

/-- A file is looked at when a path leads to it. -/
theorem mem_lookups_of_resolve_file {content : ByteArray}
    (h : t.resolve p = .ok (loc, .file content)) : loc ∈ p.lookups t.workingDir := by
  rw [resolve_eq_ok_iff] at h
  cases h with
  | named happroach hdot _ _ _ => exact mem_lookups_of_approach happroach hdot

end FileTree

end Webcomic.Files
