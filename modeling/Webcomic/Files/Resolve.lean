import Webcomic.Files.Tree

/-!
# Resolving and locating agree

Where a path can be resolved, name by name against the tree, it leads to the location that its
text alone gives. So a file that can be read lies at the location of its path, whatever spelling
the path has.
-/

namespace Webcomic.Files.FileTree

variable {t : FileTree}

theorem eq_enter_of_enterDirectory {loc loc' : Location} {name : String}
    (h : t.enterDirectory loc name = .ok loc') : loc' = loc.enter name := by
  unfold enterDirectory at h
  split at h
  · cases h; rfl
  · next hdot =>
    simp only [not_or] at hdot
    split at h
    · cases h
    · split at h
      · cases h
      · cases h
      · cases h; simp [Location.enter, hdot]

theorem eq_foldl_of_foldlM {names : List String} {loc loc' : Location}
    (h : names.foldlM t.enterDirectory loc = .ok loc') : loc' = names.foldl Location.enter loc := by
  induction names generalizing loc with
  | nil => cases h; rfl
  | cons name names ih =>
    simp only [List.foldlM_cons] at h
    cases hstep : t.enterDirectory loc name with
    | error fault => rw [hstep] at h; cases h
    | ok next =>
      rw [hstep] at h
      rw [List.foldl_cons, ← eq_enter_of_enterDirectory hstep]
      exact ih h

/-- The directory that a path is looked up in, and the last name, give the location of the path. -/
theorem locate_of_approach {p : Path} {dir : Location} {last : Option String}
    (h : t.approach p = .ok (dir, last)) :
    p.locate t.workingDir = (last.map dir.enter).getD dir := by
  simp only [approach] at h
  split at h
  · cases h
  split at h
  · cases h
  split at h
  · cases h
  split at h
  · cases h
  -- of the errors none comes to a directory: the way to the last name has been gone
  next hdir =>
    simp only [Except.ok.injEq, Prod.mk.injEq] at h
    obtain ⟨rfl, rfl⟩ := h
    rw [eq_foldl_of_foldlM hdir, Path.locate]
    cases hlast : p.names.getLast? with
    | none => simp [List.getLast?_eq_none_iff.1 hlast]
    | some name =>
      have hne : p.names ≠ [] := by rintro h; simp [h] at hlast
      rw [List.getLast?_eq_some_getLast hne, Option.some.injEq] at hlast
      conv => lhs; rw [← List.dropLast_concat_getLast hne, hlast]
      simp

/-- **A path resolves to its location.** -/
theorem eq_locate_of_resolve {p : Path} {loc : Location} {node : Node}
    (h : t.resolve p = .ok (loc, node)) : loc = p.locate t.workingDir := by
  unfold resolve at h
  split at h
  · cases h
  next ha =>
    cases h
    simpa using (locate_of_approach ha).symm
  next dir name ha =>
    rw [locate_of_approach ha, Option.map_some, Option.getD_some]
    split at h
    · cases h; rfl
    next hdot =>
      simp only [not_or] at hdot
      simp only [Location.enter, hdot, if_false]
      split at h
      · cases h
      split at h
      · cases h
      · cases h; rfl
      split at h
      · cases h
      · cases h; rfl

/-- What a path resolves to stands at its location, if it is a file. -/
theorem node?_of_resolve_file {p : Path} {loc : Location} {content : ByteArray}
    (h : t.resolve p = .ok (loc, .file content)) : t.node? loc = some (.file content) := by
  unfold resolve at h
  split at h
  · cases h
  · cases h
  split at h
  · cases h
  split at h
  · cases h
  split at h
  · cases h
  · cases h
  next hnode =>
    split at h
    · cases h
    · cases h; exact hnode

theorem mem_fileLocations_of_node? {loc : Location} {content : ByteArray}
    (h : t.node? loc = some (.file content)) : loc ∈ t.fileLocations := by
  unfold node? at h
  split at h
  · cases h
  · have := Keyed.mem_of_get? h
    simp only [fileLocations, List.mem_map, List.mem_filter]
    exact ⟨(loc, .file content), ⟨this, rfl⟩, rfl⟩

theorem resolve_of_read {p : Path} {content : ByteArray} (h : t.read p = .ok content) :
    t.resolve p = .ok (p.locate t.workingDir, .file content) := by
  unfold read at h
  split at h
  · cases h
  · cases h
  next hr =>
    cases h
    rw [hr, eq_locate_of_resolve hr]

/-- A file that can be read is one of the plain files of the tree, at the location of its path. -/
theorem mem_fileLocations_of_read {p : Path} {content : ByteArray}
    (h : t.read p = .ok content) : p.locate t.workingDir ∈ t.fileLocations :=
  mem_fileLocations_of_node? (node?_of_resolve_file (resolve_of_read h))

end Webcomic.Files.FileTree
