import Webcomic.Site.Page
import Webcomic.Site.Promotion

/-!
# Publishing

A run moves the comics that are due, writes a page for every live comic day, earliest first, and
writes the front page for the latest. A run that fails leaves behind what it had done by then.
-/

namespace Webcomic.Site

open Calendar Files Template

/-- What a run did. -/
structure Report where
  /-- The number of comic files that were moved. -/
  filesMoved : Nat
  /-- The number of daily pages that were written. -/
  pagesWritten : Nat := 0
  indexWritten : Bool := false
  /-- The day of the last daily page that was written, which the front page is about. -/
  latest : Option Date := none
deriving DecidableEq

/-- How far a run has come when a daily page has been written. -/
structure Progress where
  date : Date
  /-- The number of pages up to this one. -/
  position : Nat
  /-- The number of pages that there will be. -/
  count : Nat
deriving DecidableEq

/-- A change of the files that tells how far it has come. What was done and told before it failed
stays done and told. -/
abbrev Telling := ExceptT Error (StateT (List Progress) (StateM FileTree))

namespace Telling

/-- The outcome of a change, what has been told by then, and the files after it. -/
def perform {α : Type} (change : Telling α) (told : List Progress) (files : FileTree) :
    (Except Error α × List Progress) × FileTree :=
  (change.run.run told).run files

/-- A change that tells nothing. -/
def silent {α : Type} (change : Change α) : Telling α :=
  ExceptT.mk (StateT.lift change.run)

instance : MonadLift Change Telling := ⟨silent⟩

/-- Tells how far the run has come. -/
def tell (progress : Progress) : Telling Unit :=
  ExceptT.mk do
    modify (· ++ [progress])
    return .ok ()

/-- The change with what it tells, if it succeeds. -/
def recorded {α : Type} (change : Telling α) : Change (α × List Progress) :=
  ExceptT.mk do
    let (result, told) ← change.run.run []
    return result.map (·, told)

end Telling

/-- Writes the daily page of a day. -/
def writeDaily (c : Config) (today : Date) (tags : PageTags Memory) (date : Date) :
    Change (PageTags Memory) := do
  let (text, tags) := tags.resetForDay.page c (← get) c.dailyTemplatePath today date
  Change.write (c.dailyPath date) text
  return tags

/-- Writes the daily page of a day, the one at a position from 0 of some number, and tells of it. -/
def publishDay (c : Config) (today : Date) (count : Nat) (done : PageTags Memory × Report)
    (day : Date × Nat) : Telling (PageTags Memory × Report) := do
  let (tags, report) := done
  let (date, index) := day
  let tags ← writeDaily c today tags date
  Telling.tell ⟨date, index + 1, count⟩
  return (tags, { report with pagesWritten := report.pagesWritten + 1, latest := some date })

/-- Writes the front page for a day, if there is a template for it. The day is the one of the last
daily page, so only what a page remembers is forgotten. -/
def writeIndex (c : Config) (today : Date) (tags : PageTags Memory) (date : Date) :
    Change Bool := do
  let files ← get
  if files.isFile c.indexTemplatePath then
    Change.write c.indexPath (tags.resetForPage.page c files c.indexTemplatePath today date).1
    return true
  else
    return false

/-- The archive that a run publishes. -/
structure Edition where
  /-- The number of comic files that were moved. -/
  filesMoved : Nat
  archive : Archive
  inhabited : archive.isEmpty = false
deriving DecidableEq

/-- Moves the comics that are due, reads the live archive and makes the directory of the daily
pages. Without a template for these or without a live comic there is nothing to publish. -/
def prepare (c : Config) (today : Date) : Change Edition := do
  if !(← get).isFile c.dailyTemplatePath then
    throw (.templateMissing c.dailyTemplatePath)
  let filesMoved ← promote (c.directory .upload) (c.directory .comics) today
  let archive := (← Change.look (Archive.read · (c.directory .comics))).upTo today
  match inhabited : archive.isEmpty with
  | true => throw (.emptyArchive (c.directory .comics))
  | false =>
    Change.makeDirectories (c.directory .daily)
    return ⟨filesMoved, archive, inhabited⟩

/-- Publishes a site as of a day. After each daily page it tells how far it has come. -/
def publishTelling (c : Config) (today : Date) : Telling Report := do
  let edition ← prepare c today
  let dates := edition.archive.dates
  let tags := PageTags.ofArchive Memory.whole .blank edition.archive c .echo
  let (tags, report) ← dates.zipIdx.foldlM (publishDay c today dates.length)
    (tags, { filesMoved := edition.filesMoved })
  match report.latest with
  | none => return report
  | some latest => return { report with indexWritten := ← writeIndex c today tags latest }

/-- Publishes a site as of a day, and says how far it had come after each daily page. -/
def publishWithProgress (c : Config) (today : Date) : Change (Report × List Progress) :=
  (publishTelling c today).recorded

/-- Publishes a site as of a day. -/
def publish (c : Config) (today : Date) : Change Report := do
  return (← publishWithProgress c today).1

end Webcomic.Site
