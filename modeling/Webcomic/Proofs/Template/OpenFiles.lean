import Webcomic.Proofs.Template.Agreement

/-!
# The open files are the calls in progress

A session keeps the locations of its open files. `Tracked` says what they are at every moment of an
expansion: those of the calls in progress, innermost first, in front of the ones that were open
before the expansion began, and each of them once. It holds at the first moment and each moment
hands it on (`Tracked.next`), whatever the handlers do, because a handler can reach the open files
only by calls.

Two things follow. A call is refused as a loop exactly when its location is that of a call in
progress; and a call that comes to an end leaves a session as it found it, but for the comic day.
-/

namespace Webcomic.Template

open Calendar Files

variable {M : Type} {tags : Registry M} {files : FileTree} {s₀ : Session}

/-! ## The invariant -/

/-- The locations of the calls in progress, innermost first. -/
def Moment.openings (wd : Location) (m : Moment M) : List Location :=
  m.inProgress.map (·.locate wd)

/-- What holds at every moment of an expansion that began in the session `s₀`. -/
structure Tracked (wd : Location) (s₀ : Session) (m : Moment M) : Prop where
  openFiles : m.desk.session.openFiles = m.openings wd ++ s₀.openFiles
  /-- No location is entered twice. -/
  distinct : (m.openings wd).Nodup
  /-- No location is entered that was open before. -/
  apart : ∀ loc ∈ m.openings wd, loc ∉ s₀.openFiles
  today : m.desk.session.today = s₀.today
  includeRoot : m.desk.session.includeRoot = s₀.includeRoot

/-- What waits are a frame and what waits for it. -/
theorem waiting_cons (frame : Frame M) (stack : List (Frame M)) :
    (frame :: stack).filterMap Frame.path? =
      frame.path?.toList ++ stack.filterMap Frame.path? := by
  cases hframe : frame.path? with
  | none =>
    rw [List.filterMap_cons_none hframe]
    rfl
  | some path =>
    rw [List.filterMap_cons_some hframe]
    rfl

namespace Tracked

variable {wd : Location} {a b : Moment M}

/-- A moment without a call in progress. -/
theorem start {task : Task M} (htask : task.path? = none) (d : Desk M) :
    Tracked wd d.session ⟨task, [], d⟩ := by
  have hnone : (⟨task, [], d⟩ : Moment M).openings wd = [] := by
    simp [Moment.openings, Moment.inProgress, htask]
  refine ⟨?_, ?_, ?_, rfl, rfl⟩
  · rw [hnone]
    rfl
  · rw [hnone]
    exact List.nodup_nil
  · rw [hnone]
    intro loc hloc
    cases hloc

/-- A moment with the same calls in progress. A handler can have turned the session to another day
meanwhile. -/
theorem keep (h : Tracked wd s₀ a) (hcalls : b.inProgress = a.inProgress)
    (hopen : b.desk.session.openFiles = a.desk.session.openFiles)
    (htoday : b.desk.session.today = a.desk.session.today)
    (hroot : b.desk.session.includeRoot = a.desk.session.includeRoot) : Tracked wd s₀ b := by
  have hopenings : b.openings wd = a.openings wd := congrArg (List.map _) hcalls
  refine ⟨?_, ?_, ?_, htoday.trans h.today, hroot.trans h.includeRoot⟩
  · rw [hopenings, hopen]
    exact h.openFiles
  · rw [hopenings]
    exact h.distinct
  · rw [hopenings]
    exact h.apart

/-- The moment at which a file is let in. -/
theorem enter {path : Path} {stack : List (Frame M)} {task : Task M} {d : Desk M}
    (h : Tracked wd s₀ ⟨task, stack, d⟩) (htask : task.path? = none)
    (hnew : path.locate wd ∉ d.session.openFiles) :
    Tracked wd s₀ ⟨.load path, stack, d.enter wd path⟩ := by
  -- the file stands in front of all others, and is new there
  have hopenings : (⟨.load path, stack, d.enter wd path⟩ : Moment M).openings wd =
      path.locate wd :: (⟨task, stack, d⟩ : Moment M).openings wd := by
    simp only [Moment.openings, Moment.inProgress, htask]
    rfl
  have hfiles := h.openFiles
  rw [show d.session.openFiles = _ from hfiles, List.mem_append, not_or] at hnew
  refine ⟨?_, ?_, ?_, h.today, h.includeRoot⟩
  · rw [hopenings, List.cons_append, ← hfiles]
    refine Session.openFiles_opening ?_
    rw [show d.session.openFiles = _ from hfiles, List.mem_append, not_or]
    exact hnew
  · rw [hopenings]
    exact List.nodup_cons.mpr ⟨hnew.1, h.distinct⟩
  · rw [hopenings]
    intro loc hloc
    rcases List.mem_cons.mp hloc with rfl | hloc
    · exact hnew.2
    · exact h.apart loc hloc

/-- The moment after the innermost call in progress has been answered. -/
theorem leave {source : Request} {stack : List (Frame M)} {task task' : Task M} {d : Desk M}
    (h : Tracked wd s₀ ⟨task, stack, d⟩) (htask : task.path? = source.path?)
    (htask' : task'.path? = none) :
    Tracked wd s₀ ⟨task', stack, d.leave wd source⟩ := by
  cases source with
  | text t =>
    refine h.keep ?_ rfl rfl rfl
    simp [Moment.inProgress, htask, htask', Request.path?]
  | file path =>
    have hopenings : (⟨task, stack, d⟩ : Moment M).openings wd = path.locate wd ::
        (⟨task', stack, d.leave wd (.file path)⟩ : Moment M).openings wd := by
      simp [Moment.openings, Moment.inProgress, htask, htask', Request.path?]
    have hfiles := h.openFiles
    have hdistinct := h.distinct
    have hapart := h.apart
    rw [hopenings] at hfiles hdistinct hapart
    refine ⟨?_, (List.nodup_cons.mp hdistinct).2, ?_, h.today, h.includeRoot⟩
    · -- the location is closed where it stands, since it stands nowhere else
      refine Session.openFiles_closing hfiles ?_
      rw [List.mem_append, not_or]
      exact ⟨(List.nodup_cons.mp hdistinct).1, hapart _ List.mem_cons_self⟩
    · intro loc hloc
      exact hapart loc (List.mem_cons_of_mem _ hloc)

/-! ## Every moment hands it on -/

theorem go_call {q : Request} {stack : List (Frame M)} {d : Desk M}
    (h : Tracked wd s₀ ⟨.call q, stack, d⟩) : Tracked wd s₀ (q.go wd stack d) := by
  cases q with
  | text t => exact h.keep rfl rfl rfl rfl
  | file path =>
    by_cases hopen : path.locate wd ∈ d.session.openFiles
    · rw [Request.go_of_open stack hopen]
      exact h.keep rfl rfl rfl rfl
    · rw [Request.go_of_not_open stack hopen]
      exact h.enter rfl hopen

theorem go_load {path : Path} {stack : List (Frame M)} {d : Desk M}
    (h : Tracked files.workingDir s₀ ⟨.load path, stack, d⟩) :
    Tracked files.workingDir s₀ (loadFile files path stack d) := by
  unfold loadFile
  split
  · exact h.leave rfl rfl
  · exact h.keep rfl rfl rfl rfl

theorem go_read {r : Reading} {stack : List (Frame M)} {d : Desk M}
    (h : Tracked wd s₀ ⟨.read r, stack, d⟩) : Tracked wd s₀ (r.go wd stack d) := by
  unfold Reading.go
  split
  · -- the call goes on, but it waits for the reply now
    refine h.keep ?_ rfl rfl rfl
    exact waiting_cons _ stack
  · exact h.leave rfl rfl
  · exact h.keep rfl rfl rfl rfl
  · exact h.leave rfl rfl

theorem go_replace {m : Marker} {stack : List (Frame M)} {d : Desk M}
    (h : Tracked wd s₀ ⟨.replace m, stack, d⟩) : Tracked wd s₀ (replaceMarker tags m stack d) := by
  unfold replaceMarker
  split
  · exact h.keep rfl rfl rfl rfl
  · split
    · exact h.keep rfl rfl rfl rfl
    · split
      · exact h.keep rfl rfl rfl rfl
      · exact h.keep rfl rfl rfl rfl

theorem go_perform {script : Script M} {stack : List (Frame M)} {d : Desk M}
    (h : Tracked wd s₀ ⟨.perform script, stack, d⟩) : Tracked wd s₀ (script.go wd stack d) := by
  cases script with
  | reply text => exact h.keep rfl rfl rfl rfl
  | look next => exact h.keep rfl rfl rfl rfl
  | isOpen path next => exact h.keep rfl rfl rfl rfl
  | turnTo date next => exact h.keep rfl rfl rfl rfl
  | recollect next => exact h.keep rfl rfl rfl rfl
  | remember memory next => exact h.keep rfl rfl rfl rfl
  | expand request next => exact h.keep rfl rfl rfl rfl

theorem go_answer {text : String} {frame : Frame M} {stack : List (Frame M)} {d : Desk M}
    (h : Tracked wd s₀ ⟨.answer text, frame :: stack, d⟩) :
    Tracked wd s₀ ⟨frame.resume text, stack, d⟩ := by
  cases frame with
  | script next => exact h.keep rfl rfl rfl rfl
  | reading r =>
    refine h.keep ?_ rfl rfl rfl
    exact (waiting_cons (.reading r) stack).symm

/-- **Each moment hands the invariant on to the next.** -/
theorem next (h : Tracked files.workingDir s₀ a) (hab : a.next? tags files = some b) :
    Tracked files.workingDir s₀ b := by
  obtain ⟨task, stack, d⟩ := a
  cases task with
  | call q =>
    cases hab
    exact h.go_call
  | load path =>
    cases hab
    exact h.go_load
  | read r =>
    cases hab
    exact h.go_read
  | replace m =>
    cases hab
    exact h.go_replace
  | perform script =>
    cases hab
    exact h.go_perform
  | report e =>
    cases hab
    exact h.keep rfl rfl rfl rfl
  | answer text =>
    cases stack with
    | nil => cases hab
    | cons frame stack =>
      cases hab
      exact h.go_answer

/-- The invariant holds at every moment of a call. -/
theorem leads (h : Tracked files.workingDir s₀ a) (hab : Leads tags files a b) :
    Tracked files.workingDir s₀ b := by
  induction hab with
  | refl => exact h
  | tail _ hstep ih => exact ih.next hstep

end Tracked

/-! ## Calls that come to an end -/

/-- A session as it was before, but for the comic day it is about. -/
structure Session.Restored (s s' : Session) : Prop where
  openFiles : s'.openFiles = s.openFiles
  today : s'.today = s.today
  includeRoot : s'.includeRoot = s.includeRoot

/-- Whatever is answered in the end, the session is restored. -/
theorem restored_of_leads {task : Task M} (htask : task.path? = none) {d d' : Desk M}
    {text : String} (h : Leads tags files ⟨task, [], d⟩ ⟨.answer text, [], d'⟩) :
    d.session.Restored d'.session := by
  have hend := (Tracked.start htask d).leads h
  exact ⟨hend.openFiles, hend.today, hend.includeRoot⟩

/-- A call that comes to an end restores the session, but for the comic day. -/
theorem restored_of_expand {depth : Nat} {q : Request} {d d' : Desk M} {text : String}
    (h : expand tags files depth q d = some (text, d')) : d.session.Restored d'.session :=
  restored_of_leads rfl (leads_of_run (show (Task.call q).run tags files depth d = _ from h) [])

theorem restored_of_reply {depth : Nat} {m : Marker} {d d' : Desk M} {text : String}
    (h : reply tags files.workingDir (expand tags files depth) m d = some (text, d')) :
    d.session.Restored d'.session :=
  restored_of_leads rfl (leads_of_run (show (Task.replace m).run tags files depth d = _ from h) [])

/-! ## Between calls -/

/-- The sessions that a host can have between its calls. They are started, given a directory for
includes, turned to a day, and used for calls with any registry on any file tree. -/
inductive Session.Resting : Session → Prop
  | start (today : Date) (includeRoot : Option Path) : Resting (.start today includeRoot)
  | root {s : Session} (dir : Path) : Resting s → Resting { s with includeRoot := some dir }
  | turn {s : Session} (date : Date) : Resting s → Resting { s with requested := date }
  | expand {M : Type} {r r' : Registry M} {files : FileTree} {depth : Nat} {q : Request}
      {text : String} {s s' : Session} :
      Resting s → r.expand files depth q s = some (text, r', s') → Resting s'
  | dispatch {M : Type} {r r' : Registry M} {files : FileTree} {depth : Nat} {m : Marker}
      {text : String} {s s' : Session} :
      Resting s → r.dispatch files depth m s = some (text, r', s') → Resting s'

/-- No file is open between calls. -/
theorem Session.Resting.openFiles_eq_nil {s : Session} (h : s.Resting) : s.openFiles = [] := by
  induction h with
  | start today includeRoot => rfl
  | root dir _ ih => exact ih
  | turn date _ ih => exact ih
  | expand _ hcall ih =>
    obtain ⟨⟨t, d⟩, hrun, heq⟩ := Option.map_eq_some_iff.1 hcall
    cases heq
    exact (restored_of_expand hrun).openFiles.trans ih
  | dispatch _ hcall ih =>
    obtain ⟨⟨t, d⟩, hrun, heq⟩ := Option.map_eq_some_iff.1 hcall
    cases heq
    exact (restored_of_reply hrun).openFiles.trans ih

/-- What a host can ask for: a text, a file, or the reply to a single marker. -/
def Task.Outermost : Task M → Prop
  | .call _ => True
  | .replace _ => True
  | _ => False

theorem Task.Outermost.path?_eq_none {task : Task M} (h : task.Outermost) : task.path? = none := by
  cases task with
  | call q => rfl
  | replace m => rfl
  | _ => cases h

/-- A call of a file is refused as a loop exactly when the file is open. -/
theorem refused_iff {m : Moment M} {path : Path} (hm : m.task = .call (.file path)) :
    m.next? tags files = some ⟨.report (.includeLoop path), m.stack, m.desk⟩ ↔
      path.locate files.workingDir ∈ m.desk.session.openFiles := by
  obtain ⟨task, stack, d⟩ := m
  cases hm
  show some (Request.go files.workingDir stack d (.file path)) = _ ↔
    path.locate files.workingDir ∈ d.session.openFiles
  by_cases hopen : path.locate files.workingDir ∈ d.session.openFiles
  · rw [Request.go_of_open stack hopen]
    exact ⟨fun _ => hopen, fun _ => rfl⟩
  · rw [Request.go_of_not_open stack hopen]
    constructor
    · intro h
      cases h
    · intro h
      exact absurd h hopen

/-- A call refused as a loop is answered with the text of that error, and changes nothing. -/
theorem leads_of_refused {m : Moment M} {path : Path}
    (h : m.next? tags files = some ⟨.report (.includeLoop path), m.stack, m.desk⟩) :
    Leads tags files m ⟨.answer (Error.includeLoop path).inline, m.stack, m.desk⟩ :=
  Leads.step h (Leads.step rfl .refl)

/-- **The open files of a session are the calls in progress.** At every moment of a call that a
host makes they are the locations of the calls of files in progress, each of them once, in front of
what was open before; and a further call of a file is refused as a loop, and answered with the text
of that error, exactly when its location is among them. Every call that comes to an end, however
deep it is nested, restores the session. So in the session of a host nothing is open between its
calls, and the open files are the calls in progress and nothing else. -/
theorem openFiles_track_calls (tags : Registry M) (files : FileTree) (s : Session) :
    (∀ (task : Task M) (m : Moment M), task.Outermost →
      Leads tags files ⟨task, [], tags.desk s⟩ m →
        m.desk.session.openFiles = m.openings files.workingDir ++ s.openFiles ∧
        (m.openings files.workingDir).Nodup ∧
        (∀ loc ∈ m.openings files.workingDir, loc ∉ s.openFiles) ∧
        ∀ path, m.task = .call (.file path) →
          (m.next? tags files = some ⟨.report (.includeLoop path), m.stack, m.desk⟩ ↔
            path.locate files.workingDir ∈ m.openings files.workingDir ++ s.openFiles) ∧
          (path.locate files.workingDir ∈ m.openings files.workingDir ++ s.openFiles →
            Leads tags files m ⟨.answer (Error.includeLoop path).inline, m.stack, m.desk⟩)) ∧
    (∀ (depth : Nat) (q : Request) (d d' : Desk M) (text : String),
      expand tags files depth q d = some (text, d') → d.session.Restored d'.session) ∧
    (∀ (depth : Nat) (m : Marker) (d d' : Desk M) (text : String),
      reply tags files.workingDir (expand tags files depth) m d = some (text, d') →
        d.session.Restored d'.session) ∧
    (s.Resting →
      (∀ (wd : Location) (path : Path), s.openFiles.contains (path.locate wd) = false) ∧
      ∀ (task : Task M) (m : Moment M), task.Outermost →
        Leads tags files ⟨task, [], tags.desk s⟩ m →
          m.desk.session.openFiles = m.openings files.workingDir) := by
  have htracked : ∀ (task : Task M) (m : Moment M), task.Outermost →
      Leads tags files ⟨task, [], tags.desk s⟩ m → Tracked files.workingDir s m :=
    fun task m htask hleads => (Tracked.start htask.path?_eq_none (tags.desk s)).leads hleads
  refine ⟨?_, fun _ _ _ _ _ => restored_of_expand, fun _ _ _ _ _ => restored_of_reply, ?_⟩
  · intro task m htask hleads
    have hm := htracked task m htask hleads
    refine ⟨hm.openFiles, hm.distinct, hm.apart, ?_⟩
    intro path hpath
    rw [← hm.openFiles]
    have hrefused := @refused_iff M tags files m path hpath
    exact ⟨hrefused, fun hopen => leads_of_refused (hrefused.2 hopen)⟩
  · intro hs
    have hnone : s.openFiles = [] := hs.openFiles_eq_nil
    constructor
    · intro wd path
      rw [hnone]
      rfl
    · intro task m htask hleads
      rw [(htracked task m htask hleads).openFiles, hnone, List.append_nil]

end Webcomic.Template
