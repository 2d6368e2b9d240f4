import Mathlib.Data.List.Perm.Subperm
import Webcomic.Proofs.Template.OpenFiles
import Webcomic.Site.Tags

/-!
# How deep files nest

A file is read only if it is one of the plain files of the tree, and by `Tracked` no location is
read inside itself. So the files that are being read at one moment are different plain files, and
there are never more of them than the tree has, whatever the templates include and however they
spell it.

With handlers that have only files expanded this bounds the whole expansion, and every call comes to
an end. The tags of a site are of that kind.
-/

namespace Webcomic.Template

open Calendar Files

variable {M : Type} {tags : Registry M} {files : FileTree}

/-! ## The files that are being read -/

/-- The file that a task reads. A file that is let in and not opened yet is not read. -/
def Task.beingRead : Task M → Option Path
  | .read r => r.source.path?
  | _ => none

/-- The files that are being read, innermost first. -/
def Moment.beingRead (m : Moment M) : List Path :=
  m.task.beingRead.toList ++ m.stack.filterMap Frame.path?

/-- What is being read is a call in progress. -/
theorem beingRead_sublist (m : Moment M) : m.beingRead.Sublist m.inProgress := by
  obtain ⟨task, stack, d⟩ := m
  refine List.Sublist.append_right ?_ _
  cases task with
  | read r => exact List.Sublist.refl _
  | load path => exact List.nil_sublist _
  | _ => exact List.nil_sublist _

section Steps

variable {stack : List (Frame M)} {d : Desk M} {path : Path}

/-- Asking for a text or a file does not start to read a file. -/
theorem beingRead_go_call {q : Request} {wd : Location}
    (h : path ∈ (q.go wd stack d).beingRead) :
    path ∈ (⟨.call q, stack, d⟩ : Moment M).beingRead := by
  cases q with
  | text t => exact h
  | file p =>
    by_cases hopen : p.locate wd ∈ d.session.openFiles
    · rw [Request.go_of_open stack hopen] at h
      exact h
    · rw [Request.go_of_not_open stack hopen] at h
      exact h

/-- A file comes to be read by being opened. -/
theorem beingRead_go_load {p : Path} (h : path ∈ (loadFile files p stack d).beingRead) :
    path ∈ (⟨.load p, stack, d⟩ : Moment M).beingRead ∨
      ∃ content, files.read path = .ok content := by
  unfold loadFile at h
  split at h
  · exact .inl h
  next content hread =>
    rcases List.mem_cons.mp h with rfl | hstack
    · exact .inr ⟨content, hread⟩
    · exact .inl hstack

/-- Reading on is reading the same file, or being done with it. -/
theorem beingRead_go_read {r : Reading} {wd : Location}
    (h : path ∈ (r.go wd stack d).beingRead) :
    path ∈ (⟨.read r, stack, d⟩ : Moment M).beingRead := by
  unfold Reading.go at h
  split at h
  · -- the reading waits for a reply, and is read all the same
    show path ∈ (Frame.reading r : Frame M).path?.toList ++ stack.filterMap Frame.path?
    rw [← waiting_cons]
    exact h
  · exact List.mem_append_right _ h
  · exact h
  · exact List.mem_append_right _ h

theorem beingRead_go_replace {m : Marker} (h : path ∈ (replaceMarker tags m stack d).beingRead) :
    path ∈ (⟨.replace m, stack, d⟩ : Moment M).beingRead := by
  unfold replaceMarker at h
  split at h
  · exact h
  · split at h
    · exact h
    · split at h
      · exact h
      · exact h

theorem beingRead_go_perform {script : Script M} {wd : Location}
    (h : path ∈ (script.go wd stack d).beingRead) :
    path ∈ (⟨.perform script, stack, d⟩ : Moment M).beingRead := by
  cases script with
  | expand request next => exact h
  | _ => exact h

/-- What goes on with an answer was being read while it waited. -/
theorem beingRead_resume {text : String} {frame : Frame M}
    (h : path ∈ (⟨frame.resume text, stack, d⟩ : Moment M).beingRead) :
    path ∈ (⟨.answer text, frame :: stack, d⟩ : Moment M).beingRead := by
  cases frame with
  | script next => exact h
  | reading r =>
    show path ∈ (Frame.reading r :: stack).filterMap Frame.path?
    rw [waiting_cons]
    exact h

end Steps

/-- What is read at the next moment is read already, or has just been opened. -/
theorem beingRead_next {a b : Moment M} (hab : a.next? tags files = some b) {path : Path}
    (hpath : path ∈ b.beingRead) :
    path ∈ a.beingRead ∨ ∃ content, files.read path = .ok content := by
  obtain ⟨task, stack, d⟩ := a
  cases task with
  | call q =>
    cases hab
    exact .inl (beingRead_go_call hpath)
  | load p =>
    cases hab
    -- the one step at which another file comes to be read
    exact beingRead_go_load hpath
  | read r =>
    cases hab
    exact .inl (beingRead_go_read hpath)
  | replace m =>
    cases hab
    exact .inl (beingRead_go_replace hpath)
  | perform script =>
    cases hab
    exact .inl (beingRead_go_perform hpath)
  | report e =>
    cases hab
    exact .inl hpath
  | answer text =>
    cases stack with
    | nil => cases hab
    | cons frame stack =>
      cases hab
      exact .inl (beingRead_resume hpath)

/-- Every file that is being read can be read, so it is one of the plain files. -/
theorem readable_of_leads {task : Task M} (htask : task.path? = none) {d : Desk M} {m : Moment M}
    (h : Leads tags files ⟨task, [], d⟩ m) {path : Path} (hpath : path ∈ m.beingRead) :
    ∃ content, files.read path = .ok content := by
  induction h with
  | refl =>
    have hnone := (beingRead_sublist _).subset hpath
    simp [Moment.inProgress, htask] at hnone
  | tail _ hstep ih =>
    rcases beingRead_next hstep hpath with hbefore | hread
    · exact ih hbefore
    · exact hread

/-! ## The bound -/

/-- **No more files are read at one moment than the tree has plain files.** The files that are being
read are plain files at different locations, none of which was open before. -/
theorem beingRead_of_leads {task : Task M} (htask : task.path? = none) {d : Desk M} {m : Moment M}
    (h : Leads tags files ⟨task, [], d⟩ m) :
    (∀ path ∈ m.beingRead, files.isFile path = true ∧
      path.locate files.workingDir ∈ files.fileLocations ∧
      path.locate files.workingDir ∉ d.session.openFiles) ∧
    (m.beingRead.map (·.locate files.workingDir)).Nodup ∧
    m.beingRead.length ≤ files.fileLocations.length := by
  have hm := (Tracked.start htask d).leads h
  have hsub : (m.beingRead.map (·.locate files.workingDir)).Sublist (m.openings files.workingDir) :=
    (beingRead_sublist m).map _
  have hplain : ∀ path ∈ m.beingRead, files.isFile path = true ∧
      path.locate files.workingDir ∈ files.fileLocations ∧
      path.locate files.workingDir ∉ d.session.openFiles := by
    intro path hpath
    obtain ⟨content, hread⟩ := readable_of_leads htask h hpath
    refine ⟨?_, FileTree.mem_fileLocations_of_read hread, ?_⟩
    · rw [FileTree.isFile, FileTree.resolve_of_read hread]
    · exact hm.apart _ (hsub.subset (List.mem_map_of_mem hpath))
  have hdistinct := hm.distinct.sublist hsub
  refine ⟨hplain, hdistinct, ?_⟩
  have hsubset : m.beingRead.map (·.locate files.workingDir) ⊆ files.fileLocations := by
    intro loc hloc
    obtain ⟨path, hpath, rfl⟩ := List.mem_map.mp hloc
    exact (hplain path hpath).2.1
  -- locations that differ and are all in the list are no more than the list has
  have hlength := (hdistinct.subperm hsubset).length_le
  rwa [List.length_map] at hlength

/-! ## Every call of a site comes to an end -/

/-- With handlers that have only files expanded, one level for each plain file and two more suffice
for every call. -/
theorem exists_expand_of_fileBound (htags : tags.FileBound) (files : FileTree) (q : Request)
    (d : Desk M) :
    ∃ text d', expand tags files (files.fileLocations.length + 2) q d = some (text, d') := by
  have hbound : unopened files d.session.openFiles < files.fileLocations.length + 1 :=
    Nat.lt_succ_of_le (unopened_le files _)
  cases q with
  | text t =>
    obtain ⟨text, d', hrun, -⟩ := settles_expand_text htags hbound t d rfl
    exact ⟨text, d', hrun⟩
  | file path =>
    obtain ⟨text, d', hrun, -⟩ :=
      settles_expand_file htags (Nat.lt_succ_of_lt hbound) path d rfl
    exact ⟨text, d', hrun⟩

/-- **Every call on a site comes to an end, and its files nest no deeper than there are files.**
Whatever the templates include and in whatever spelling, the files that are being read at one moment
are plain files at different locations, so there are at most as many of them as the tree has. -/
theorem site_calls_end (slot : Slot M Site.Memory) (memory : M) (archive : Archive)
    (c : Site.Config) (policy : UnknownTagPolicy) (files : FileTree) (q : Request) (d : Desk M) :
    (∃ text d', Leads (Site.registry slot memory archive c policy) files
        ⟨.call q, [], d⟩ ⟨.answer text, [], d'⟩ ∧
      expand (Site.registry slot memory archive c policy) files (files.fileLocations.length + 2) q d
        = some (text, d')) ∧
    ∀ m, Leads (Site.registry slot memory archive c policy) files ⟨.call q, [], d⟩ m →
      (∀ path ∈ m.beingRead, files.isFile path = true ∧
        path.locate files.workingDir ∈ files.fileLocations ∧
        path.locate files.workingDir ∉ d.session.openFiles) ∧
      (m.beingRead.map (·.locate files.workingDir)).Nodup ∧
      m.beingRead.length ≤ files.fileLocations.length := by
  have htags := Site.fileBound_registry slot memory archive c policy
  obtain ⟨text, d', hrun⟩ := exists_expand_of_fileBound htags files q d
  refine ⟨⟨text, d', leads_of_expand _ files _ q d text d' hrun [], hrun⟩, ?_⟩
  intro m hleads
  exact beingRead_of_leads (show (Task.call q : Task M).path? = none from rfl) hleads

end Webcomic.Template
