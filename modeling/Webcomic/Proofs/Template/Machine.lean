import Mathlib.Logic.Relation
import Webcomic.Template.Expand

/-!
# An expansion, moment by moment

`expand` says what a call comes to, and only for calls that come to an end. What holds *while* a
call runs is said of the moments it goes through, however long it goes on:

- `Moment`: what is done next (`Task`), the texts, files and handlers that wait for it (`Frame`,
  innermost first), and the desk.
- `Moment.next?`: the moment after a moment. There is none once the outermost call is answered.
- `Moment.inProgress`: the files whose calls have been let in and are not answered yet.

How the moments of a call and its result agree is in `Webcomic.Proofs.Template.Agreement`.
-/

namespace Webcomic.Template

open Files Text

variable {M : Type}

/-! ## Moments -/

/-- A text or a file that is being expanded, at the point it has come to. -/
structure Reading where
  /-- The call that the text or file belongs to. -/
  source : Request
  /-- What has been expanded so far. -/
  done : String
  /-- The markers that the current line has left, each with the stretch before it. -/
  cuts : List (String × Marker)
  /-- What follows the last marker of the current line. -/
  tail : String
  /-- The lines to come. In the place of a line that is not text stands the error it leads to. -/
  rest : List (Except Error String)

namespace Reading

/-- A text or a file before its first line. -/
def start (source : Request) (rest : List (Except Error String)) : Reading :=
  ⟨source, "", [], "", rest⟩

/-- The reading with more text behind what has been expanded. -/
def extend (r : Reading) (text : String) : Reading :=
  { r with done := r.done ++ text }

/-- The reading that has come to a marker, with the markers after it left. -/
def pass (r : Reading) (gap : String) (cuts : List (String × Marker)) : Reading :=
  { r with done := r.done ++ gap, cuts }

/-- The reading at the start of its next line. -/
def nextLine (r : Reading) (line : String) (rest : List (Except Error String)) : Reading :=
  { r with
    done := r.done ++ r.tail
    cuts := (Line.ofText line).cuts
    tail := (Line.ofText line).tail
    rest }

end Reading

/-- A line of a file as text, or the error that ends the file. -/
def fileLine (path : Path) (bytes : ByteArray) : Except Error String :=
  match String.fromUTF8? bytes with
  | some line => .ok line
  | none => .error (.notText path)

/-- The lines of a file. -/
def fileLines (path : Path) (content : ByteArray) : List (Except Error String) :=
  (rawLines content).map (fileLine path)

/-- What is done next. -/
inductive Task (M : Type) where
  /-- A text or a file is asked for. -/
  | call (request : Request)
  /-- A file has been let in and is about to be opened. -/
  | load (path : Path)
  | read (reading : Reading)
  /-- A marker is to be replaced by its reply. -/
  | replace (m : Marker)
  | perform (script : Script M)
  /-- An error takes the place of a file. -/
  | report (e : Error)
  /-- What was asked for last is answered. -/
  | answer (text : String)

/-- What waits for an answer. -/
inductive Frame (M : Type) where
  /-- A text or a file waits for the reply to a marker. -/
  | reading (r : Reading)
  /-- A handler waits for what it asked to have expanded. -/
  | script (next : String → Script M)

/-- What an answer lets go on. -/
def Frame.resume (text : String) : Frame M → Task M
  | .reading r => .read (r.extend text)
  | .script next => .perform (next text)

/-- A moment of an expansion. -/
structure Moment (M : Type) where
  task : Task M
  /-- What waits for the task, innermost first. -/
  stack : List (Frame M)
  desk : Desk M

/-- The desk on which the file of a call has been let in. -/
def Desk.enter (wd : Location) (path : Path) (d : Desk M) : Desk M :=
  d.withSession (d.session.opening (path.locate wd))

/-- The desk that a call leaves when its text or file is done. -/
def Desk.leave (wd : Location) : Request → Desk M → Desk M
  | .text _, d => d
  | .file path, d => d.withSession (d.session.closing (path.locate wd))

/-! ## From one moment to the next -/

/-- The moment after a text or a file has been read on to its next marker or to the end of its
line. -/
def Reading.go (wd : Location) (r : Reading) (stack : List (Frame M)) (d : Desk M) : Moment M :=
  match r.cuts, r.rest with
  | (gap, m) :: cuts, _ => ⟨.replace m, .reading (r.pass gap cuts) :: stack, d⟩
  | [], [] => ⟨.answer (r.done ++ r.tail), stack, d.leave wd r.source⟩
  | [], .ok line :: rest => ⟨.read (r.nextLine line rest), stack, d⟩
  | [], .error e :: _ => ⟨.report e, stack, d.leave wd r.source⟩

/-- The moment after a marker has been handed to its handler, or to what stands in for one. -/
def replaceMarker (tags : Registry M) (m : Marker) (stack : List (Frame M)) (d : Desk M) :
    Moment M :=
  match m.name with
  | none => ⟨.answer m.echo, stack, d⟩
  | some name =>
    match tags.handler? name with
    | some handler => ⟨.perform (handler.handle m), stack, d⟩
    | none =>
      match tags.policy with
      | .echo => ⟨.answer m.echo, stack, d⟩
      | .report =>
        ⟨.answer (noHandler (canonicalName name)), stack,
          { d with notice := noHandler (canonicalName name) }⟩

/-- The moment after one request of a script. -/
def Script.go (wd : Location) (stack : List (Frame M)) (d : Desk M) : Script M → Moment M
  | .reply text => ⟨.answer text, stack, d⟩
  | .look next => ⟨.perform (next d.session), stack, d⟩
  | .isOpen path next =>
    ⟨.perform (next (d.session.openFiles.contains (path.locate wd))), stack, d⟩
  | .turnTo date next =>
    ⟨.perform next, stack, d.withSession { d.session with requested := date }⟩
  | .recollect next => ⟨.perform (next d.memory), stack, d⟩
  | .remember memory next => ⟨.perform next, stack, { d with memory }⟩
  | .expand request next => ⟨.call request, .script next :: stack, d⟩

/-- The moment after a call has been asked for: a file that is open already is not let in. -/
def Request.go (wd : Location) (stack : List (Frame M)) (d : Desk M) : Request → Moment M
  | .text t => ⟨.read (.start (.text t) ((lines t).map .ok)), stack, d⟩
  | .file path =>
    if d.session.openFiles.contains (path.locate wd) then ⟨.report (.includeLoop path), stack, d⟩
    else ⟨.load path, stack, d.enter wd path⟩

/-- A file that is open already is answered with an error, and the desk is left alone. -/
theorem Request.go_of_open {wd : Location} {path : Path} {d : Desk M} (stack : List (Frame M))
    (h : path.locate wd ∈ d.session.openFiles) :
    (Request.file path).go wd stack d = ⟨.report (.includeLoop path), stack, d⟩ := by
  rw [Request.go, if_pos (List.contains_iff_mem.mpr h)]

/-- A file that is not open is let in before it is looked for, so that one that cannot be read is in
progress too. -/
theorem Request.go_of_not_open {wd : Location} {path : Path} {d : Desk M} (stack : List (Frame M))
    (h : path.locate wd ∉ d.session.openFiles) :
    (Request.file path).go wd stack d = ⟨.load path, stack, d.enter wd path⟩ := by
  rw [Request.go, if_neg (mt List.contains_iff_mem.mp h)]

/-- The moment after a file has been opened, or could not be. -/
def loadFile (files : FileTree) (path : Path) (stack : List (Frame M)) (d : Desk M) : Moment M :=
  match files.read path with
  | .error fault => ⟨.report (.read path fault), stack, d.leave files.workingDir (.file path)⟩
  | .ok content => ⟨.read (.start (.file path) (fileLines path content)), stack, d⟩

/-- The moment after a moment, unless the outermost call has been answered. -/
def Moment.next? (tags : Registry M) (files : FileTree) : Moment M → Option (Moment M)
  | ⟨.call request, stack, d⟩ => some (request.go files.workingDir stack d)
  | ⟨.load path, stack, d⟩ => some (loadFile files path stack d)
  | ⟨.read r, stack, d⟩ => some (r.go files.workingDir stack d)
  | ⟨.replace m, stack, d⟩ => some (replaceMarker tags m stack d)
  | ⟨.perform script, stack, d⟩ => some (script.go files.workingDir stack d)
  | ⟨.report e, stack, d⟩ => some ⟨.answer e.inline, stack, d⟩
  | ⟨.answer text, frame :: stack, d⟩ => some ⟨frame.resume text, stack, d⟩
  | ⟨.answer _, [], _⟩ => none

/-- One moment follows another, at once or after others. -/
abbrev Leads (tags : Registry M) (files : FileTree) : Moment M → Moment M → Prop :=
  Relation.ReflTransGen fun a b => a.next? tags files = some b

/-! ## The calls in progress -/

/-- The file that a call reads. -/
def Request.path? : Request → Option Path
  | .text _ => none
  | .file path => some path

/-- The file whose call a task is part of. -/
def Task.path? : Task M → Option Path
  | .load path => some path
  | .read r => r.source.path?
  | _ => none

/-- The file whose call waits. -/
def Frame.path? : Frame M → Option Path
  | .reading r => r.source.path?
  | .script _ => none

/-- The files whose calls have been let in and are not answered yet, innermost first. -/
def Moment.inProgress (m : Moment M) : List Path :=
  m.task.path?.toList ++ m.stack.filterMap Frame.path?

/-! ## Markers -/

section

variable {tags : Registry M} {files : FileTree} {a b : Moment M} {m : Marker}
  {stack : List (Frame M)} {d : Desk M}

/-- Only a text or a file that is being read hands a marker over, and waits for the reply. -/
theorem waits_of_next (hab : a.next? tags files = some b) (hb : b.task = .replace m) :
    ∃ r, b.stack = .reading r :: a.stack := by
  obtain ⟨task, stack, d⟩ := a
  cases task with
  | call q =>
    cases q with
    | text t =>
      cases hab
      cases hb
    | file path =>
      rw [Moment.next?, Request.go] at hab
      split at hab <;> cases hab <;> cases hb
  | load path =>
    rw [Moment.next?, loadFile] at hab
    split at hab <;> cases hab <;> cases hb
  | read r =>
    rw [Moment.next?, Reading.go] at hab
    split at hab
    · cases hab
      exact ⟨_, rfl⟩
    all_goals
      cases hab
      cases hb
  | replace m' =>
    rw [Moment.next?, replaceMarker] at hab
    split at hab
    · cases hab
      cases hb
    · split at hab
      · cases hab
        cases hb
      · split at hab <;> cases hab <;> cases hb
  | perform script => cases script <;> cases hab <;> cases hb
  | report e =>
    cases hab
    cases hb
  | answer text =>
    cases stack with
    | nil => cases hab
    | cons frame stack => cases frame <;> cases hab <;> cases hb

/-- A marker that an expansion has come to is one that a text or a file waits for. -/
theorem waits_of_leads {q : Request} {stack₀ : List (Frame M)} {d₀ : Desk M}
    (h : Leads tags files ⟨.call q, stack₀, d₀⟩ ⟨.replace m, stack, d⟩) :
    ∃ r rest, stack = .reading r :: rest := by
  rcases Relation.ReflTransGen.cases_tail h with heq | ⟨x, -, hx⟩
  · cases heq
  · obtain ⟨r, hstack⟩ := waits_of_next hx rfl
    exact ⟨r, x.stack, hstack⟩

end

end Webcomic.Template
