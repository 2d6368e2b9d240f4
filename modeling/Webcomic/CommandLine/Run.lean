import Webcomic.CommandLine.Invocation
import Webcomic.Site.ConfigText
import Webcomic.Site.Publish
import Webcomic.Template.Builtin

/-!
# Running a command

What a command writes to the output and does to the files. A command that fails leaves what it had
written and done by then.
-/

namespace Webcomic.CommandLine

open Calendar Files Site Template

/-- What a command did. -/
structure Outcome where
  output : String
  files : FileTree
  result : Except Site.Error Unit

/-- Publishes the site. -/
def runPublish (c : Config) (today : Date) (files : FileTree) : Outcome :=
  let start := s!"Publishing comic for {today}\n"
  match (publish c today).perform files with
  | (.error e, files) => ⟨start, files, .error e⟩
  | (.ok report, files) =>
    let latest :=
      match report.latest with
      | some date => s!"  Latest comic: {date}\n"
      | none => ""
    let index := if report.indexWritten then "" else "  No front page written\n"
    let moved := s!"  Comics moved live: {report.filesMoved}\n"
    let pages := s!"  Daily pages: {report.pagesWritten}\n"
    ⟨start ++ moved ++ pages ++ latest ++ index, files, .ok ()⟩

/-- The page of a template. -/
def runRender (c : Config) (today : Date) (template : Path) (date : Option String) (strict : Bool)
    (files : FileTree) : Except Site.Error String := do
  let date ← date.mapM fun stamp => (dateOfStamp stamp).mapError .template
  renderFile c files template date today (if strict then .report else .echo)

/-- The days of the comics directory, with the number of files of each. -/
def runDates (c : Config) (files : FileTree) : Except Site.Error String := do
  let archive ← (Archive.read files (c.directory .comics)).mapError .files
  return String.join (archive.days.map fun (date, names) => s!"{date}  {names.length} file(s)\n")

/-- The outcome of a command that only writes. -/
def Outcome.ofText (files : FileTree) : Except Site.Error String → Outcome
  | .ok text => ⟨text, files, .ok ()⟩
  | .error e => ⟨"", files, .error e⟩

/-- Runs a command. `today` gives the day in effect for a configuration. -/
def Invocation.run (i : Invocation) (today : Config → Date) (files : FileTree) : Outcome :=
  match Config.load files i.config with
  | .error e => ⟨"", files, .error e⟩
  | .ok c =>
    match i.command with
    | .publish => runPublish c (today c) files
    | .render template date strict =>
      .ofText files (runRender c (today c) template date strict files)
    | .dates => .ofText files (runDates c files)

end Webcomic.CommandLine
