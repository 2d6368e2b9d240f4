import Webcomic.Calendar.Date
import Webcomic.Files.Path

/-!
# Sessions

What the markers of one page share while the page is expanded: the day it is, the comic day the
page is about, where includes are looked up, and which files are being expanded.
-/

namespace Webcomic.Template

open Calendar Files

/-- The shared state of one expansion. -/
structure Session where
  /-- The day the session was started for. -/
  today : Date
  /-- The comic day the page is about. -/
  requested : Date
  /-- The directory that relative includes are looked up in. -/
  includeRoot : Option Path
  /-- The files that are being expanded, each an include of the one after it, and each once. -/
  openFiles : List Location
deriving DecidableEq

namespace Session

/-- A new session is about the day it is. -/
def start (today : Date) (includeRoot : Option Path) : Session :=
  ⟨today, today, includeRoot, []⟩

/-- The path to open for a path written in a template. -/
def resolveInclude (s : Session) (p : Path) : Path :=
  match s.includeRoot with
  | some root => root.join p
  | none => p

/-- The session with one more file being expanded. -/
def opening (s : Session) (loc : Location) : Session :=
  { s with openFiles := s.openFiles.insert loc }

/-- The session with a file no longer being expanded. -/
def closing (s : Session) (loc : Location) : Session :=
  { s with openFiles := s.openFiles.filter (· ≠ loc) }

theorem openFiles_opening {s : Session} {loc : Location} (h : loc ∉ s.openFiles) :
    (s.opening loc).openFiles = loc :: s.openFiles :=
  List.insert_of_not_mem h

theorem openFiles_closing {s : Session} {loc : Location} {opened : List Location}
    (hs : s.openFiles = loc :: opened) (hnew : loc ∉ opened) :
    (s.closing loc).openFiles = opened := by
  show s.openFiles.filter (· ≠ loc) = opened
  rw [hs, List.filter_cons_of_neg (by simp), List.filter_eq_self]
  intro l hl
  exact decide_eq_true fun heq => hnew (heq ▸ hl)

end Session

end Webcomic.Template
