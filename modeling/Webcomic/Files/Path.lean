import Webcomic.Text.Pieces

/-!
# Paths

A **path** is the text by which a file is named: names between slashes, read from the root if it
starts with a slash and from the working directory otherwise. A **location** is a place itself,
given by the names on the way from the root. `Path.locate` works out the location a path names by
its text alone: a dot stays, two dots go back one name, and the root is its own parent.
-/

namespace Webcomic.Files

open Text

/-- The text that names a file. -/
abbrev Path := String

/-- A place in a file tree: the names on the way from the root. -/
abbrev Location := List String

namespace Location

/-- The place reached from `loc` by one name of a path. -/
def enter (loc : Location) (name : String) : Location :=
  if name = "." then loc else if name = ".." then loc.dropLast else loc ++ [name]

end Location

namespace Path

/-- Whether a path is read from the root. -/
def isAbsolute (p : Path) : Bool :=
  p.toList.head? = some '/'

/-- Whether a path ends in a slash, which asks for a directory. -/
def endsInSlash (p : Path) : Bool :=
  p.toList.getLast? = some '/'

/-- The names of a path. Slashes next to each other count as one. -/
def names (p : Path) : List String :=
  (words '/' p.toList).map String.ofList

/-- Where the names of a path start from. -/
def start (workingDir : Location) (p : Path) : Location :=
  if p.isAbsolute then [] else workingDir

/-- The location a path names. -/
def locate (workingDir : Location) (p : Path) : Location :=
  p.names.foldl Location.enter (p.start workingDir)

/-- The path `p` seen from the directory `base`; an absolute path is not changed by that. -/
def join (base p : Path) : Path :=
  if p.isAbsolute then p
  else if base.isEmpty || base.endsInSlash then base ++ p
  else base ++ "/" ++ p

/-- The names that tell two paths apart as texts. Single dots do not count, except one that a
relative path starts with. -/
def components (p : Path) : List String :=
  match p.names with
  | [] => []
  | name :: names =>
    if name = "." ∧ !p.isAbsolute then name :: names.filter (· ≠ ".")
    else (name :: names).filter (· ≠ ".")

/-- Whether two paths are the same, name by name. -/
def sameText (p q : Path) : Bool :=
  p.isAbsolute = q.isAbsolute && p.components = q.components

/-- A path, last character first, without the slashes and single dots at its end. -/
def trimEnd : List Char → List Char
  | ['/'] => ['/']
  | '/' :: cs => trimEnd cs
  | '.' :: '/' :: cs => trimEnd ('/' :: cs)
  | cs => cs
termination_by cs => cs.length

/-- The directory that holds what a path names, or nothing for the root and the empty path. -/
def parent? (p : Path) : Option Path :=
  match trimEnd p.toList.reverse with
  | [] => none
  | ['/'] => none
  | cs => some (String.ofList (trimEnd (cs.dropWhile (· ≠ '/'))).reverse)

end Path

end Webcomic.Files
