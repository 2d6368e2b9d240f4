import Webcomic.Files.Tree
import Webcomic.Template.Registry
import Webcomic.Text.Lines

/-!
# Expanding templates

Expanding a text puts the reply of a handler in the place of every marker, line by line and from
left to right, and keeps every other character. Replies are not searched for markers again. A file
is expanded like its text, unless it is being expanded already or cannot be read; then an error
stands in its place.

A handler can have more text expanded before it replies, and so on to any depth. `expand` carries
the number of expansions that may still be nested; a run that would nest deeper has no result.
How deep the handlers of a site nest is settled in `Webcomic.Template.Depth`.
-/

namespace Webcomic.Template

open Files Text

variable {M : Type}

/-- All that changes while pages are expanded. -/
structure Desk (M : Type) where
  memory : M
  notice : String
  session : Session

/-- A part of an expansion, which has no result if it would nest too deep. -/
abbrev Run (M : Type) := StateT (Desk M) Option

namespace Desk

/-- The desk with another session. -/
def withSession (d : Desk M) (s : Session) : Desk M :=
  { d with session := s }

end Desk

/-- Runs a script: `answer` expands what the script asks for. -/
def Script.run (workingDir : Location) (answer : Request → Run M String) :
    Script M → Run M String
  | .reply text => pure text
  | .look next => do
    let d ← get
    (next d.session).run workingDir answer
  | .isOpen path next => do
    let d ← get
    (next (d.session.openFiles.contains (path.locate workingDir))).run workingDir answer
  | .turnTo date next => do
    modify fun d => d.withSession { d.session with requested := date }
    next.run workingDir answer
  | .recollect next => do
    let d ← get
    (next d.memory).run workingDir answer
  | .remember memory next => do
    modify fun d => { d with memory }
    next.run workingDir answer
  | .expand request next => do
    let text ← answer request
    (next text).run workingDir answer

/-- The reply to a marker: its handler's, or the one that the policy gives to tags without a
handler. -/
def reply (tags : Registry M) (workingDir : Location) (answer : Request → Run M String)
    (m : Marker) : Run M String :=
  match m.name with
  | none => pure m.echo
  | some name =>
    match tags.handler? name with
    | some handler => (handler.handle m).run workingDir answer
    | none =>
      match tags.policy with
      | .echo => pure m.echo
      | .report => do
        modify fun d => { d with notice := noHandler (canonicalName name) }
        let d ← get
        pure d.notice

/-! ## Lines, texts and files -/

/-- Markers replaced by their replies, with the stretches before them. -/
def expandCuts (reply : Marker → Run M String) : List (String × Marker) → Run M String
  | [] => pure ""
  | (gap, marker) :: cuts => do
    let text ← reply marker
    let rest ← expandCuts reply cuts
    pure (gap ++ text ++ rest)

/-- One line with its markers replaced. -/
def expandLine (reply : Marker → Run M String) (line : String) : Run M String := do
  let cut := Line.ofText line
  let text ← expandCuts reply cut.cuts
  pure (text ++ cut.tail)

/-- Lines with their markers replaced, in order. -/
def expandLines (reply : Marker → Run M String) : List String → Run M String
  | [] => pure ""
  | line :: rest => do
    let text ← expandLine reply line
    let more ← expandLines reply rest
    pure (text ++ more)

/-- A text with its markers replaced. A marker does not reach over the end of a line. -/
def expandText (reply : Marker → Run M String) (text : String) : Run M String :=
  expandLines reply (lines text)

/-- Lines of bytes, read as text one by one, with their markers replaced. The first line that is
not text ends the run without a result, but what the markers before it did stays done. -/
def expandRawLines (reply : Marker → Run M String) : List ByteArray → Run M (Option String)
  | [] => pure (some "")
  | bytes :: rest =>
    match String.fromUTF8? bytes with
    | none => pure none
    | some line => do
      let text ← expandLine reply line
      let more ← expandRawLines reply rest
      pure (more.map (text ++ ·))

/-- The content of a file that has been opened, with its markers replaced. -/
def expandContent (files : FileTree) (reply : Marker → Run M String) (path : Path) :
    Run M (Except Error String) :=
  match files.read path with
  | .error fault => pure (.error (.read path fault))
  | .ok content => do
    match ← expandRawLines reply (rawLines content) with
    | some text => pure (.ok text)
    | none => pure (.error (.notText path))

/-- The text on the page for a result: an error is shown in its place. -/
def shown : Except Error String → String
  | .ok text => text
  | .error e => e.inline

/-- A file with its markers replaced. The file counts as being expanded until that is done,
however it ends. -/
def expandFile (files : FileTree) (reply : Marker → Run M String) (path : Path) :
    Run M String := do
  let loc := path.locate files.workingDir
  let d ← get
  if loc ∈ d.session.openFiles then
    pure (Error.includeLoop path).inline
  else do
    modify fun d => d.withSession (d.session.opening loc)
    let result ← expandContent files reply path
    modify fun d => d.withSession (d.session.closing loc)
    pure (shown result)

/-! ## Nested expansions -/

/-- What a request is answered with: the text or the file with its markers replaced, where `answer`
expands what the handlers of these markers ask for. -/
def serve (tags : Registry M) (files : FileTree) (answer : Request → Run M String) :
    Request → Run M String
  | .text text => expandText (reply tags files.workingDir answer) text
  | .file path => expandFile files (reply tags files.workingDir answer) path

/-- Answers a request with at most `depth` expansions nested in each other. -/
def expand (tags : Registry M) (files : FileTree) : Nat → Request → Run M String
  | 0 => fun _ => failure
  | depth + 1 => serve tags files (expand tags files depth)

/-! ## Using a registry -/

namespace Registry

/-- The desk on which a session with this registry works. -/
def desk (r : Registry M) (s : Session) : Desk M :=
  ⟨r.memory, r.notice, s⟩

/-- The registry with what a run left on its desk. -/
def leaving (r : Registry M) (d : Desk M) : Registry M :=
  { r with memory := d.memory, notice := d.notice }

/-- Runs a part of an expansion with the registry's memory. -/
def perform {α : Type} (r : Registry M) (s : Session) (run : Run M α) :
    Option (α × Registry M × Session) :=
  (run.run (r.desk s)).map fun (a, d) => (a, r.leaving d, d.session)

/-- A text or a file with its markers replaced, and the registry and the session after that. -/
def expand (r : Registry M) (files : FileTree) (depth : Nat) (request : Request) (s : Session) :
    Option (String × Registry M × Session) :=
  r.perform s (Template.expand r files depth request)

/-- The reply to one marker, and the registry and the session after that. -/
def dispatch (r : Registry M) (files : FileTree) (depth : Nat) (m : Marker) (s : Session) :
    Option (String × Registry M × Session) :=
  r.perform s (reply r files.workingDir (Template.expand r files depth) m)

end Registry

end Webcomic.Template
