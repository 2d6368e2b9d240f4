import Webcomic.Calendar.Format
import Webcomic.Template.Registry

/-!
# The tags of every site

`include` puts another file into the page, and `date` and `today` write the comic day of the page
and the day the session was started for. None of them remembers anything.
-/

namespace Webcomic.Template

open Calendar

variable {M : Type}

/-- The format of a date tag without parameters. -/
def defaultDateFormat : String := "%Y-%m-%d"

/-- A date in a format, or the error that names the format. -/
def formatDate (date : Date) (format : String) : Except Error String :=
  match date.format? format with
  | some text => .ok text
  | none => .error (.invalidFormat format)

/-- The day a datestamp names, or the error that shows the text. -/
def dateOfStamp (stamp : String) : Except Error Date :=
  match Date.ofStamp? stamp with
  | some date => .ok date
  | none => .error (.invalidDate stamp)

/-- The day with the given parts, or the error that shows them. -/
def dateOfParts (year : Int) (month day : Nat) : Except Error Date :=
  match Date.ofParts? year month day with
  | some date => .ok date
  | none => .error (.invalidDate (Date.partsText year month day))

/-- The text of a date tag. -/
def dateText (date : Date) (params : Option String) : String :=
  match formatDate date (params.getD defaultDateFormat) with
  | .ok text => text
  | .error e => e.inline

/-- Which day of the session a date tag writes. -/
inductive DateSource where
  | requested
  | today
deriving DecidableEq, Repr

/-- The day of the session that a date tag writes. -/
def DateSource.of (s : Session) : DateSource → Date
  | .requested => s.requested
  | .today => s.today

/-- Writes a day of the session in the format that the parameters give. -/
def dateHandler (source : DateSource) : Handler M where
  handle m := .look fun s => .reply (dateText (source.of s) m.params)

/-- Puts the file that the parameters name into the page, expanded in the same session. -/
def includeHandler : Handler M where
  handle m :=
    match m.params with
    | none => .reply (Error.missingParameter (m.name.getD "include") "a file name").inline
    | some file => .look fun s => .expand (.file (s.resolveInclude file)) .reply

/-- Puts the name and the parameters back. -/
def echoHandler : Handler M where
  handle m := .reply m.echo

/-- Replies to every marker with one text. -/
def fixedHandler (text : String) : Handler M where
  handle _ := .reply text

/-- The tags of every site. -/
def builtinTags : List (Entry M) :=
  [⟨"include", .ok includeHandler⟩, ⟨"date", .ok (dateHandler .requested)⟩,
    ⟨"today", .ok (dateHandler .today)⟩]

/-- A registry with the tags of every site. -/
def Registry.withBuiltins (policy : UnknownTagPolicy) (memory : M) : Registry M :=
  ((Registry.new policy memory).registerAll builtinTags).1

end Webcomic.Template
