import Webcomic.Site.Config
import Webcomic.Template.Error
import Webcomic.Yaml.Record

/-!
# Errors that stop a run

What keeps a site from being published or a page from being made. What goes wrong inside a template
is shown on the page instead and is not among them.
-/

namespace Webcomic.Site

open Files

/-- Why a run stopped. -/
inductive Error where
  | config (flaw : Flaw)
  | unknownDirectory (name : String)
  | configRead (path : Path) (fault : Fault)
  | yaml (problem : Yaml.Problem)
  | move (source target : Path) (fault : Fault)
  | templateMissing (path : Path)
  | emptyArchive (dir : Path)
  | template (e : Template.Error)
  | files (fault : Fault)
deriving DecidableEq, Repr

/-- The text an error is reported by. -/
def Error.message : Error → String
  | .config flaw => "Invalid configuration: " ++ flaw.message
  | .unknownDirectory name =>
    "Unknown directory '" ++ name ++ "'. Expected one of: comicsdir, uploaddir, sitedir, parsedir, "
      ++ "imagedir, dailydir, workdir, datadir"
  | .configRead path fault => s!"Failed to read config file {path}: {fault.message}"
  | .yaml problem => s!"YAML parsing failed: {problem.message}"
  | .move source target fault => s!"Failed to move {source} to {target}: {fault.message}"
  | .templateMissing path => s!"Template not found: {path}"
  | .emptyArchive dir => s!"No live comics found in {dir}"
  | .template e => e.message
  | .files fault => s!"IO error: {fault.message}"

namespace Config

/-- The path of a directory by its name. -/
def directoryFor (c : Config) (name : String) : Except Error Path :=
  match directoryNames.lookup name with
  | some directory => .ok (c.directory directory)
  | none => .error (.unknownDirectory name)

end Config

end Webcomic.Site
