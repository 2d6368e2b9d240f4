import Webcomic.Archive.Directory
import Webcomic.Site.Error
import Webcomic.Site.Tags

/-!
# Pages

A page is a template expanded for one comic day, in a session of its own. The pages of one run share
their tags, so the tags that remember something are carried from page to page.
-/

namespace Webcomic.Site

open Calendar Files Template

/-- The tags that pages are expanded with. -/
abbrev PageTags (M : Type) := { r : Registry M // r.FileBound }

namespace PageTags

variable {M : Type}

/-- The tags of a site. -/
def ofArchive (slot : Slot M Memory) (memory : M) (archive : Archive) (c : Config)
    (policy : UnknownTagPolicy) : PageTags M :=
  ⟨registry slot memory archive c policy, fileBound_registry slot memory archive c policy⟩

/-- The tags at the start of a comic day. -/
def resetForDay (tags : PageTags M) : PageTags M :=
  ⟨tags.1.resetForDay, Registry.fileBound_resetForDay tags.2⟩

/-- The tags at the start of a page. -/
def resetForPage (tags : PageTags M) : PageTags M :=
  ⟨tags.1.resetForPage, Registry.fileBound_resetForPage tags.2⟩

/-- The session of a page. -/
def session (c : Config) (today date : Date) : Session :=
  { Session.start today (some (c.directory .templates)) with requested := date }

/-- The page that a template gives for a comic day, and the tags after it. -/
def page (tags : PageTags M) (c : Config) (files : FileTree) (template : Path)
    (today date : Date) : String × PageTags M :=
  let s := session c today date
  ((tags.1.expandFile tags.2 files template s).1,
    ⟨(tags.1.expandFile tags.2 files template s).2.1,
      Registry.fileBound_expandFile tags.2 files template s⟩)

end PageTags

/-! ## A page by itself -/

/-- The path of a template. A relative one that is no file as it is written is looked up in the
directory of templates. -/
def templatePath (c : Config) (files : FileTree) (template : Path) : Path :=
  if !template.isAbsolute && !files.isFile template then (c.directory .templates).join template
  else template

/-- The comics that are live on a day. A comics directory that does not exist holds none. -/
def liveArchive (c : Config) (files : FileTree) (today : Date) : Except Error Archive :=
  let dir := c.directory .comics
  if files.isDirectory dir then
    ((Archive.read files dir).mapError .files).map (·.upTo today)
  else
    .ok .empty

/-- The page that a template gives for a comic day, or for the latest live one if no day is given.
Nothing is moved or written. -/
def renderFile (c : Config) (files : FileTree) (template : Path) (date : Option Date)
    (today : Date) (policy : UnknownTagPolicy) : Except Error String := do
  let path := templatePath c files template
  if files.isFile path then
    let archive ← liveArchive c files today
    let date := (date.or (archive.last?.map Prod.fst)).getD today
    let tags := PageTags.ofArchive Memory.whole .blank archive c policy
    return (tags.page c files path today date).1
  else
    throw (.templateMissing path)

end Webcomic.Site
