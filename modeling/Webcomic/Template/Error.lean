import Webcomic.Files.Fault
import Webcomic.Files.Path

/-!
# Errors inside templates

What can go wrong while a page is expanded. Such an error never stops the page: its text takes the
place of whatever could not be made.
-/

namespace Webcomic.Template

open Files

/-- Why a marker, or a whole file, has no text. -/
inductive Error where
  /-- The file is being expanded already, further up the chain of includes. -/
  | includeLoop (path : Path)
  | read (path : Path) (fault : Fault)
  /-- The file is not UTF-8. -/
  | notText (path : Path)
  | missingParameter (tag what : String)
  | invalidFormat (format : String)
  | invalidDate (text : String)
  /-- A handler could not be made when the registry was filled. -/
  | construction (tag reason : String)
deriving DecidableEq, Repr

namespace Error

/-- The text an error is reported by. -/
def message : Error → String
  | includeLoop path => s!"This is an include loop! {path} is already being included!"
  | read path fault => s!"Something went wrong reading file {path}: {fault.message}"
  | notText path => s!"File {path} is not valid UTF-8 text"
  | missingParameter tag what => s!"The {tag} tag needs {what}"
  | invalidFormat format => "Invalid date format '" ++ format ++ "'"
  | invalidDate text =>
    "Invalid date: '" ++ text ++ "'. Expected a real date as YYYYMMDD (e.g., 20240115)"
  | construction tag reason => s!"Couldn't construct tag {tag}: {reason}"

/-- The text that stands on a page in place of what could not be made. -/
def inline (e : Error) : String :=
  "ERROR: " ++ e.message

end Error

end Webcomic.Template
