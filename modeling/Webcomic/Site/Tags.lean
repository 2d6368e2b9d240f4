import Webcomic.Archive.Basic
import Webcomic.Calendar.Format
import Webcomic.Site.Config
import Webcomic.Template.Depth

/-!
# The tags of a comic

`comic` writes the images of a comic day, one file for each marker, and the four `nav` tags write
links to other days. The files that a page has used up are counted, and the day that a link leads
to is worked out once and kept; both are forgotten when a new comic day starts.
-/

namespace Webcomic.Site

open Calendar Template

/-- Where a link leads to. -/
inductive Direction where
  | first
  | previous
  | next
  | last
deriving DecidableEq, Repr

/-- The day a link leads to, and the day it was worked out for. -/
structure Target where
  requested : Date
  day : Option Date
deriving DecidableEq

/-- What the tags of a comic remember. -/
structure Memory where
  /-- The number of files that the page has used up. -/
  used : Nat
  /-- The last target in each direction. -/
  target : Direction → Option Target

namespace Memory

/-- Nothing is remembered. -/
def blank : Memory := ⟨0, fun _ => none⟩

/-- The memory itself. -/
def whole : Slot Memory Memory where
  get := id
  set a _ := a

/-- The number of files that the page has used up. -/
def usedSlot : Slot Memory Nat where
  get := Memory.used
  set n m := { m with used := n }

/-- The last target in a direction. -/
def targetSlot (direction : Direction) : Slot Memory (Option Target) where
  get m := m.target direction
  set t m := { m with target := fun d => if d = direction then t else m.target d }

end Memory

variable {M : Type}

/-! ## Images -/

/-- What stands where a day has no comic. -/
def noComic (date : Date) : String :=
  s!"ERROR: There is no comic for {date}!"

/-- The image of a comic file. -/
def image (c : Config) (date : Date) (file : String) (params : Option String) : String :=
  let styled :=
    match params with
    | none => ""
    | some name => " class=\"" ++ name ++ "\""
  "<img src=\"" ++ c.comicUrl file ++ "\" alt=\"Comic for " ++ date.inWords ++ "\"" ++ styled ++ ">"

/-- Writes the next file of the requested day, and nothing once all are used up. -/
def comicHandler (used : Slot M Nat) (archive : Archive) (c : Config) : Handler M where
  handle m := .look fun s =>
    match archive.files? s.requested with
    | none => .reply (noComic s.requested)
    | some files => .recollect fun memory =>
      match files[used.get memory]? with
      | none => .reply ""
      | some file =>
        .remember (used.set (used.get memory + 1) memory)
          (.reply (image c s.requested file m.params))
  start := used.set 0
  resetForDay := used.set 0
  resetForPage := used.set 0

/-! ## Links -/

namespace Direction

/-- The tag of a direction. -/
def tagName : Direction → String
  | .first => "nav_first"
  | .previous => "nav_prev"
  | .next => "nav_next"
  | .last => "nav_last"

/-- The day that lies in a direction from another, unless it is the same. -/
def day? (archive : Archive) (requested : Date) (direction : Direction) : Option Date :=
  let found :=
    match direction with
    | .first => archive.first?
    | .previous => archive.prev? requested
    | .next => archive.next? requested
    | .last => archive.last?
  (found.map Prod.fst).filter (· ≠ requested)

/-- The label of a link. -/
def label (nav : NavLabels) : Direction → String
  | .first => nav.first
  | .previous => nav.previous
  | .next => nav.next
  | .last => nav.last

/-- The label that stands where there is no link. -/
def ghostedLabel (nav : NavLabels) (direction : Direction) : String :=
  let ghosted :=
    match direction with
    | .first => nav.firstGhosted
    | .previous => nav.previousGhosted
    | .next => nav.nextGhosted
    | .last => nav.lastGhosted
  ghosted.getD (direction.label nav)

end Direction

/-- A link to the page of a day, or the label alone if there is no day to go to. -/
def link (c : Config) (direction : Direction) (day : Option Date) (params : Option String) :
    String :=
  match day with
  | some date =>
    "<a href=\"" ++ c.dailyUrl date ++ "\">" ++ params.getD (direction.label c.nav) ++ "</a>"
  | none => params.getD (direction.ghostedLabel c.nav)

/-- A link from a day. The target is worked out anew only when the last one was for another day. -/
def linkScript (direction : Direction) (target : Slot M (Option Target)) (archive : Archive)
    (c : Config) (requested : Date) (params : Option String) (memory : M) : Script M :=
  match (target.get memory).filter (·.requested = requested) with
  | some known => .reply (link c direction known.day params)
  | none =>
    let day := direction.day? archive requested
    .remember (target.set (some ⟨requested, day⟩) memory) (.reply (link c direction day params))

/-- Links the requested day with another. -/
def navHandler (direction : Direction) (target : Slot M (Option Target)) (archive : Archive)
    (c : Config) : Handler M where
  handle m := .look fun s =>
    .recollect (linkScript direction target archive c s.requested m.params)
  start := target.set none
  resetForDay := target.set none

/-! ## The table -/

/-- The tags of a comic. -/
def comicTags (slot : Slot M Memory) (archive : Archive) (c : Config) : List (Entry M) :=
  ⟨"comic", .ok (comicHandler (slot.within Memory.usedSlot) archive c)⟩
    :: [Direction.first, .previous, .next, .last].map fun direction =>
      ⟨direction.tagName,
        .ok (navHandler direction (slot.within (Memory.targetSlot direction)) archive c)⟩

/-- The registry that every page of a site is expanded with. -/
def registry (slot : Slot M Memory) (memory : M) (archive : Archive) (c : Config)
    (policy : UnknownTagPolicy) : Registry M :=
  ((Registry.withBuiltins policy memory).registerAll (comicTags slot archive c)).1

theorem fileBound_comicHandler (used : Slot M Nat) (archive : Archive) (c : Config) :
    (comicHandler used archive c).FileBound := by
  intro m s
  dsimp only
  split
  · exact trivial
  · intro memory
    dsimp only
    split <;> exact trivial

theorem fileBound_navHandler (direction : Direction) (target : Slot M (Option Target))
    (archive : Archive) (c : Config) : (navHandler direction target archive c).FileBound := by
  intro m s memory
  unfold linkScript
  split <;> exact trivial

/-- Only `include` has anything expanded, and that is a file; so no page nests without end. -/
theorem fileBound_registry (slot : Slot M Memory) (memory : M) (archive : Archive) (c : Config)
    (policy : UnknownTagPolicy) : (registry slot memory archive c policy).FileBound := by
  refine Registry.fileBound_registerAll (Registry.fileBound_withBuiltins policy memory)
    fun entry hentry handler hok => ?_
  simp only [comicTags, List.mem_cons, List.mem_map] at hentry
  rcases hentry with rfl | ⟨direction, -, rfl⟩
  · cases hok
    exact fileBound_comicHandler _ _ _
  · cases hok
    exact fileBound_navHandler _ _ _ _

end Webcomic.Site
