import Webcomic.Calendar.Moment
import Webcomic.Calendar.Stamp
import Webcomic.Files.Path
import Webcomic.Text.Decimal

/-!
# Configurations

Where a site keeps its files, how its pages are addressed, when a comic goes live and what the
links between the days are called. Everything has a default.

A comic day goes live at one moment: at the update time of that day or of the day before. The
**day in effect** at a moment is the last that has gone live.
-/

namespace Webcomic.Site

open Calendar Files Text

/-- When a comic day goes live, relative to itself. -/
inductive UpdateDay where
  | same
  /-- At the update time of the day before. -/
  | previous
deriving DecidableEq, Repr

/-- The labels of the links between comic days. A ghosted label is shown without a link where
there is nowhere to go. -/
structure NavLabels where
  first : String := "First"
  previous : String := "Previous"
  next : String := "Next"
  last : String := "Last"
  firstGhosted : Option String := none
  previousGhosted : Option String := none
  nextGhosted : Option String := none
  lastGhosted : Option String := none
deriving DecidableEq, Repr

/-- The configuration of a site. -/
structure Config where
  /-- The address of the site, with the slash at its end. -/
  url : String := "about:blank"
  /-- The directory that the others are relative to. -/
  baseDir : Path := "."
  /-- The update time, as four digits of hours and minutes. -/
  updateTime : String := "2300"
  updateDay : UpdateDay := .same
  /-- The time zone, as a sign, hours and two digits of minutes. -/
  tzOffset : Option Int32 := none
  comicsDir : Path := "comics/"
  uploadDir : Path := "comics/"
  siteDir : Path := "public_html/"
  parseDir : Path := "pages/"
  imageDir : Path := "images/"
  /-- The directory of the daily pages in the directory of the site. -/
  dailyDir : Path := "d/"
  workDir : Path := "workspace/"
  dataDir : Path := "data/"
  dailyExt : String := ".html"
  dailyTemplate : Path := "dailytemplate.html"
  indexFile : Path := "index.html"
  nav : NavLabels := {}
deriving DecidableEq, Repr

/-- A value that a configuration cannot have. -/
inductive Flaw where
  | tzOffset (offset : Int32)
  | updateTime (text : String)
deriving DecidableEq, Repr

/-- The text a flaw is reported by. -/
def Flaw.message : Flaw → String
  | .tzOffset offset => s!"{offset} isn't a valid timezone offset"
  | .updateTime text => "update_time '" ++ text ++ "' must be HHMM (e.g., 2300)"

namespace Config

/-! ## Values that are checked -/

/-- The hours and minutes of a time zone are on a clock, and at most twelve hours off. -/
def IsOffset (offset : Int32) : Prop :=
  -1200 ≤ offset.toInt ∧ offset.toInt ≤ 1200 ∧ offset.toInt.natAbs % 100 < 60

instance (offset : Int32) : Decidable (IsOffset offset) := by
  unfold IsOffset; infer_instance

/-- The update time in seconds since midnight, if it is one. -/
def updateSecond? (c : Config) : Option Nat :=
  let cs := c.updateTime.toList
  let hour := digitsValue (cs.take 2)
  let minute := digitsValue (cs.drop 2)
  if cs.length = 4 ∧ cs.all Char.isDigit ∧ hour < 24 ∧ minute < 60 then
    some (hour * 3600 + minute * 60)
  else
    none

/-- The first value that a configuration cannot have. -/
def flaw? (c : Config) : Option Flaw :=
  match c.tzOffset.filter fun offset => ¬ IsOffset offset with
  | some offset => some (.tzOffset offset)
  | none => if c.updateSecond?.isNone then some (.updateTime c.updateTime) else none

/-! ## Directories, files and addresses -/

/-- The directories of a site. -/
inductive Directory where
  | comics
  | upload
  | site
  | templates
  | images
  | daily
  | work
  | data
deriving DecidableEq, Repr

/-- The directories by their names. -/
def directoryNames : List (String × Directory) :=
  [("comicsdir", .comics), ("uploaddir", .upload), ("sitedir", .site), ("parsedir", .templates),
    ("imagedir", .images), ("dailydir", .daily), ("workdir", .work), ("datadir", .data)]

/-- The path of a directory. -/
def directory (c : Config) : Directory → Path
  | .comics => c.baseDir.join c.comicsDir
  | .upload => c.baseDir.join c.uploadDir
  | .site => c.baseDir.join c.siteDir
  | .templates => c.baseDir.join c.parseDir
  | .images => c.baseDir.join c.imageDir
  | .daily => (c.baseDir.join c.siteDir).join c.dailyDir
  | .work => c.baseDir.join c.workDir
  | .data => c.baseDir.join c.dataDir

/-- The name of the file of a daily page. -/
def dailyFileName (c : Config) (date : Date) : String :=
  date.stamp ++ c.dailyExt

/-- The address of a daily page. -/
def dailyUrl (c : Config) (date : Date) : String :=
  c.url ++ c.dailyDir ++ date.stamp ++ c.dailyExt

/-- The address of a comic file. -/
def comicUrl (c : Config) (file : String) : String :=
  c.url ++ c.comicsDir ++ file

/-- The template of the daily pages. -/
def dailyTemplatePath (c : Config) : Path :=
  (c.directory .templates).join c.dailyTemplate

/-- The template of the front page. -/
def indexTemplatePath (c : Config) : Path :=
  (c.directory .templates).join c.indexFile

/-- The file of the front page. -/
def indexPath (c : Config) : Path :=
  (c.directory .site).join c.indexFile

/-- The file of a daily page. -/
def dailyPath (c : Config) (date : Date) : Path :=
  (c.directory .daily).join (c.dailyFileName date)

/-! ## The day in effect -/

/-- The absolute value of a number of 32 bits. The least of them is its own. -/
def magnitude (n : Int32) : Int32 :=
  if n < 0 then -n else n

/-- A time zone in minutes east of universal time. -/
def offsetMinutes (offset : Int32) : Int :=
  let minutes := (magnitude offset / 100 * 60 + magnitude offset % 100).toInt
  if offset < 0 then -minutes else minutes

/-- The moment on the clock of the site. Without a time zone of its own that is universal time. -/
def localMoment? (c : Config) (now : Moment) : Option Moment :=
  match c.tzOffset with
  | some offset => now.addMinutes? (offsetMinutes offset)
  | none => some now

/-- The day in effect at a moment on the clock of the site. An update time that is none counts as
midnight. At the ends of the calendar the day itself is taken. -/
def dayAt (c : Config) (moment : Moment) : Date :=
  let update := c.updateSecond?.getD 0
  let day? :=
    match c.updateDay with
    | .same => if moment.second < update then moment.date.prev? else some moment.date
    | .previous => if update ≤ moment.second then moment.date.next? else some moment.date
  day?.getD moment.date

/-- The day in effect at a moment of universal time, unless the clock of the site would leave the
calendar. -/
def today? (c : Config) (now : Moment) : Option Date :=
  (c.localMoment? now).map c.dayAt

end Config

end Webcomic.Site
