import Webcomic.Files.Resolve
import Webcomic.Template.Builtin
import Webcomic.Template.Expand

/-!
# How deep expansions nest

A handler that has only files expanded cannot nest without end: a file that is being expanded is
not opened again, so each nested file that is read is one more of the plain files of the tree. A
registry of such handlers is **file-bound**, and its expansions nest no deeper than there are
plain files. `settles_expand_file` gives every expansion with one level more than that a result,
and it leaves the files that are being expanded as they were.
-/

namespace Webcomic.Template

open Files

variable {M : Type}

/-- A script that has only files expanded, whatever it is answered. -/
def Script.FileBound : Script M → Prop
  | .reply _ => True
  | .look next => ∀ s, (next s).FileBound
  | .isOpen _ next => ∀ b, (next b).FileBound
  | .turnTo _ next => next.FileBound
  | .recollect next => ∀ m, (next m).FileBound
  | .remember _ next => next.FileBound
  | .expand (.text _) _ => False
  | .expand (.file _) next => ∀ t, (next t).FileBound

/-- A handler that has only files expanded. -/
def Handler.FileBound (h : Handler M) : Prop :=
  ∀ m, (h.handle m).FileBound

/-- A registry whose handlers have only files expanded. -/
def Registry.FileBound (r : Registry M) : Prop :=
  ∀ name handler, (name, handler) ∈ r.handlers → handler.FileBound

/-! ## Runs that finish -/

/-- A run that has a result whenever exactly the files of `opened` are being expanded, and leaves
it so. -/
def Settles {α : Type} (opened : List Location) (run : Run M α) : Prop :=
  ∀ d : Desk M, d.session.openFiles = opened →
    ∃ a d', run d = some (a, d') ∧ d'.session.openFiles = opened

variable {α β : Type} {opened : List Location}

theorem settles_pure (a : α) : Settles opened (pure a : Run M α) :=
  fun d h => ⟨a, d, rfl, h⟩

theorem settles_get : Settles opened (get : Run M (Desk M)) :=
  fun d h => ⟨d, d, rfl, h⟩

theorem settles_modify {f : Desk M → Desk M}
    (hf : ∀ d, (f d).session.openFiles = d.session.openFiles) :
    Settles opened (modify f : Run M PUnit) :=
  fun d h => ⟨⟨⟩, f d, rfl, (hf d).trans h⟩

/-- Runs that finish can be run one after another. -/
theorem settles_bind {x : Run M α} {f : α → Run M β} (hx : Settles opened x)
    (hf : ∀ a, Settles opened (f a)) : Settles opened (x >>= f) := by
  intro d h
  obtain ⟨a, d', hd', h'⟩ := hx d h
  obtain ⟨b, d'', hd'', h''⟩ := hf a d' h'
  refine ⟨b, d'', ?_, h''⟩
  change (x d >>= fun p => f p.1 p.2) = _
  rw [hd']
  exact hd''

/-! ## Each part of an expansion finishes if its replies do -/

/-- A script that has only files expanded finishes if these do. -/
theorem settles_script {wd : Location} {answer : Request → Run M String}
    (hanswer : ∀ p, Settles opened (answer (.file p))) (script : Script M)
    (hscript : script.FileBound) : Settles opened (script.run wd answer) := by
  induction script with
  | reply text => exact settles_pure text
  | look next ih => exact settles_bind settles_get fun d => ih _ (hscript _)
  | isOpen path next ih => exact settles_bind settles_get fun d => ih _ (hscript _)
  | turnTo date next ih =>
    exact settles_bind (settles_modify fun _ => rfl) fun _ => ih hscript
  | recollect next ih => exact settles_bind settles_get fun d => ih _ (hscript _)
  | remember memory next ih =>
    exact settles_bind (settles_modify fun _ => rfl) fun _ => ih hscript
  | expand request next ih =>
    cases request with
    | text text => exact absurd hscript id
    | file path => exact settles_bind (hanswer path) fun t => ih _ (hscript _)

/-- So does the reply to a marker, which has such a handler or none. -/
theorem settles_reply {tags : Registry M} (htags : tags.FileBound) {wd : Location}
    {answer : Request → Run M String} (hanswer : ∀ p, Settles opened (answer (.file p)))
    (m : Marker) : Settles opened (reply tags wd answer m) := by
  unfold reply
  split
  · exact settles_pure _
  · split
    next h => exact settles_script hanswer _ (htags _ _ (Keyed.mem_of_get? h) m)
    · split
      · exact settles_pure _
      · exact settles_bind (settles_modify fun _ => rfl) fun _ =>
          settles_bind settles_get fun _ => settles_pure _

theorem settles_expandCuts {reply : Marker → Run M String}
    (hreply : ∀ m, Settles opened (reply m)) (cuts : List (String × Marker)) :
    Settles opened (expandCuts reply cuts) := by
  induction cuts with
  | nil => exact settles_pure _
  | cons cut cuts ih =>
    exact settles_bind (hreply _) fun _ => settles_bind ih fun _ => settles_pure _

theorem settles_expandLine {reply : Marker → Run M String}
    (hreply : ∀ m, Settles opened (reply m)) (line : String) :
    Settles opened (expandLine reply line) :=
  settles_bind (settles_expandCuts hreply _) fun _ => settles_pure _

theorem settles_expandText {reply : Marker → Run M String}
    (hreply : ∀ m, Settles opened (reply m)) (text : String) :
    Settles opened (expandText reply text) := by
  unfold expandText
  induction Text.lines text with
  | nil => exact settles_pure _
  | cons line rest ih =>
    exact settles_bind (settles_expandLine hreply line) fun _ =>
      settles_bind ih fun _ => settles_pure _

theorem settles_expandRawLines {reply : Marker → Run M String}
    (hreply : ∀ m, Settles opened (reply m)) (lines : List ByteArray) :
    Settles opened (expandRawLines reply lines) := by
  induction lines with
  | nil => exact settles_pure _
  | cons bytes rest ih =>
    unfold expandRawLines
    split
    · exact settles_pure _
    · exact settles_bind (settles_expandLine hreply _) fun _ =>
        settles_bind ih fun _ => settles_pure _

/-- A file finishes if, once it counts as being expanded too, its replies do. Only a file that can
be read has replies. -/
theorem settles_expandFile {files : FileTree} {reply : Marker → Run M String} {path : Path}
    (hreply : path.locate files.workingDir ∉ opened →
      path.locate files.workingDir ∈ files.fileLocations →
      ∀ m, Settles (path.locate files.workingDir :: opened) (reply m)) :
    Settles opened (expandFile files reply path) := by
  intro d hd
  have hrun : expandFile files reply path d =
      (if path.locate files.workingDir ∈ d.session.openFiles then
        pure (Error.includeLoop path).inline
      else do
        modify fun d => d.withSession (d.session.opening (path.locate files.workingDir))
        let result ← expandContent files reply path
        modify fun d => d.withSession (d.session.closing (path.locate files.workingDir))
        pure (shown result) : Run M String) d := rfl
  rw [hrun]
  split
  next => exact ⟨_, d, rfl, hd⟩
  next hnew =>
    rw [hd] at hnew
    -- the content is expanded with one more file open, which is closed again
    have hcontent : Settles (path.locate files.workingDir :: opened)
        (expandContent files reply path) := by
      unfold expandContent
      split
      · exact settles_pure _
      next content hread =>
        refine settles_bind (settles_expandRawLines
          (hreply hnew (FileTree.mem_fileLocations_of_read hread)) _) fun result => ?_
        split <;> exact settles_pure _
    obtain ⟨result, d', hd', h'⟩ :=
      hcontent (d.withSession (d.session.opening (path.locate files.workingDir)))
        (by rw [← hd]; exact Session.openFiles_opening (hd ▸ hnew))
    refine ⟨shown result,
      d'.withSession (d'.session.closing (path.locate files.workingDir)), ?_, ?_⟩
    · change (expandContent files reply path _ >>= fun p => _) = _
      rw [hd']
      rfl
    · exact Session.openFiles_closing h' hnew

/-! ## The plain files bound the depth -/

/-- The number of plain files that are not being expanded. -/
def unopened (files : FileTree) (opened : List Location) : Nat :=
  (files.fileLocations.filter fun loc => !opened.contains loc).length

/-- Each plain file that is opened leaves one less to open. -/
theorem unopened_cons_lt {files : FileTree} {loc : Location} (hfile : loc ∈ files.fileLocations)
    (hnew : loc ∉ opened) : unopened files (loc :: opened) < unopened files opened := by
  have hsub : (files.fileLocations.filter fun l => !(loc :: opened).contains l)
      = (files.fileLocations.filter fun l => !opened.contains l).filter (· ≠ loc) := by
    rw [List.filter_filter]
    congr 1
    funext l
    simp
  unfold unopened
  rw [hsub]
  refine List.length_filter_lt_length_iff_exists.2 ⟨loc, ?_, by simp⟩
  simp [hfile, hnew]

theorem unopened_le (files : FileTree) (opened : List Location) :
    unopened files opened ≤ files.fileLocations.length :=
  List.length_filter_le _ _

/-- With more levels than there are plain files that are not being expanded, a file-bound registry
gives every file a result. -/
theorem settles_expand_file {tags : Registry M} (htags : tags.FileBound) {files : FileTree}
    {depth : Nat} (hdepth : unopened files opened < depth) (path : Path) :
    Settles opened (expand tags files depth (.file path)) := by
  induction depth generalizing opened path with
  | zero => omega
  | succ depth ih =>
    refine settles_expandFile fun hnew hfile m => settles_reply htags (fun p => ih ?_ p) m
    have := unopened_cons_lt hfile hnew
    omega

/-- The same for texts, which take one level themselves. -/
theorem settles_expand_text {tags : Registry M} (htags : tags.FileBound) {files : FileTree}
    {depth : Nat} (hdepth : unopened files opened < depth) (text : String) :
    Settles opened (expand tags files (depth + 1) (.text text)) :=
  settles_expandText (settles_reply htags (settles_expand_file htags hdepth)) text

namespace Registry

/-- The levels that suffice for a file of a tree. -/
def levels (files : FileTree) : Nat :=
  files.fileLocations.length + 1

/-- **A file-bound registry expands every file**: the plain files bound the depth. -/
theorem isSome_expand_file {r : Registry M} (hr : r.FileBound) (files : FileTree) (path : Path)
    (s : Session) : (r.expand files (levels files) (.file path) s).isSome = true := by
  have hlevels : unopened files s.openFiles < levels files :=
    Nat.lt_succ_of_le (unopened_le files s.openFiles)
  obtain ⟨text, d, hd, -⟩ := settles_expand_file hr hlevels path (r.desk s) rfl
  change (Option.map _ (Template.expand r files (levels files) (.file path) (r.desk s))).isSome = _
  rw [hd]
  rfl

/-- A file expanded by a file-bound registry, and the registry and the session after that. -/
def expandFile (r : Registry M) (hr : r.FileBound) (files : FileTree) (path : Path) (s : Session) :
    String × Registry M × Session :=
  (r.expand files (levels files) (.file path) s).get (isSome_expand_file hr files path s)

/-! ## Filling a file-bound registry -/

theorem fileBound_new (policy : UnknownTagPolicy) (memory : M) : (new policy memory).FileBound :=
  fun _ _ h => nomatch h

theorem fileBound_register {r : Registry M} (hr : r.FileBound) (tag : String) {handler : Handler M}
    (hh : handler.FileBound) : (r.register tag handler).FileBound := by
  intro name h hmem
  have hget := Keyed.get?_of_mem (r.register tag handler).distinct hmem
  simp only [register, Keyed.get?_put] at hget
  split at hget
  · cases hget; exact hh
  · exact hr _ _ (Keyed.mem_of_get? hget)

/-- A registry has only such handlers if they are all that is registered. -/
theorem fileBound_registerAll {r : Registry M} (hr : r.FileBound) {table : List (Entry M)}
    (ht : ∀ entry ∈ table, ∀ handler, entry.handler = .ok handler → handler.FileBound) :
    (r.registerAll table).1.FileBound := by
  induction table generalizing r with
  | nil => exact hr
  | cons entry rest ih =>
    have hrest : ∀ e ∈ rest, ∀ h, e.handler = .ok h → h.FileBound :=
      fun e he => ht e (List.mem_cons_of_mem _ he)
    unfold registerAll
    split
    · exact ih hr hrest
    next handler hok =>
      exact ih (fileBound_register hr _ (ht entry List.mem_cons_self _ hok)) hrest

/-- A run changes neither the handlers nor what they ask for. -/
theorem fileBound_leaving {r : Registry M} (hr : r.FileBound) (d : Desk M) :
    (r.leaving d).FileBound := hr

theorem fileBound_expandFile {r : Registry M} (hr : r.FileBound) (files : FileTree) (path : Path)
    (s : Session) : (r.expandFile hr files path s).2.1.FileBound := by
  have hsome : r.expand files (levels files) (.file path) s = some (r.expandFile hr files path s) :=
    (Option.some_get (isSome_expand_file hr files path s)).symm
  obtain ⟨⟨text, d⟩, -, h⟩ := Option.map_eq_some_iff.1 hsome
  rw [← h]
  exact fileBound_leaving hr d

theorem fileBound_resetForDay {r : Registry M} (hr : r.FileBound) : r.resetForDay.FileBound := hr

theorem fileBound_resetForPage {r : Registry M} (hr : r.FileBound) : r.resetForPage.FileBound := hr

/-- The tags of every site have only files expanded. -/
theorem fileBound_withBuiltins (policy : UnknownTagPolicy) (memory : M) :
    (withBuiltins policy memory).FileBound := by
  refine fileBound_registerAll (fileBound_new policy memory) fun entry hentry handler hok => ?_
  simp only [builtinTags, List.mem_cons, List.not_mem_nil, or_false] at hentry
  rcases hentry with rfl | rfl | rfl <;> cases hok
  · intro m
    simp only [includeHandler]
    split
    · exact trivial
    · exact fun _ _ => trivial
  · exact fun _ _ => trivial
  · exact fun _ _ => trivial

end Registry

end Webcomic.Template
