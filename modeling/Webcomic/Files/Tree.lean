import Webcomic.Files.Path
import Webcomic.Files.Fault
import Webcomic.Keyed

/-!
# File trees

A file tree as a value: which locations hold a file or a directory, and the working directory that
relative paths start from. Each location is held once. The nodes are kept in a list, and a
directory is listed in the order of that list, so two trees that hold the same can differ in the
order of their listings and in nothing else.

A path is resolved name by name. Every name before another must be a directory, so resolving can
fail where `Path.locate` cannot; when it succeeds, it gives the same location.
-/

namespace Webcomic.Files

/-- What a location holds. -/
inductive Node where
  | file (content : ByteArray)
  | directory

instance : DecidableEq Node
  | .file a, .file b =>
    decidable_of_decidable_of_iff (p := a.data = b.data)
      ⟨fun h => congrArg Node.file (ByteArray.ext h), fun h => by cases h; rfl⟩
  | .file _, .directory => isFalse (by simp)
  | .directory, .file _ => isFalse (by simp)
  | .directory, .directory => isTrue rfl

/-- Whether a node is a plain file. -/
def Node.isFile : Node → Bool
  | .file _ => true
  | .directory => false

/-- Files and directories, and the working directory. The root is a directory without being
listed. -/
structure FileTree where
  workingDir : Location
  nodes : List (Location × Node)
  distinct : (nodes.map Prod.fst).Nodup
deriving DecidableEq

namespace FileTree

/-! ## Looking at a tree -/

/-- What a location holds. The root is a directory. -/
def node? (t : FileTree) (loc : Location) : Option Node :=
  if loc = [] then some .directory else Keyed.get? loc t.nodes

/-- The locations of the plain files. -/
def fileLocations (t : FileTree) : List Location :=
  (t.nodes.filter fun (_, node) => node.isFile).map Prod.fst

/-- The name in a directory and what it holds, if a location is in that directory. -/
def entryOf? (dir : Location) : Location × Node → Option (String × Node)
  | (loc, node) =>
    match loc.getLast? with
    | some name => if loc.dropLast = dir then some (name, node) else none
    | none => none

/-- The names in a directory and what they hold, in the order of listing. -/
def entries (t : FileTree) (dir : Location) : List (String × Node) :=
  t.nodes.filterMap (entryOf? dir)

/-- The most bytes a name can have. -/
def maxName : Nat := 255

/-- The most bytes a path can have. -/
def maxPath : Nat := 4095

/-- The directory reached from the directory `loc` by one name. -/
def enterDirectory (t : FileTree) (loc : Location) (name : String) : Except Fault Location :=
  if name = "." ∨ name = ".." then
    .ok (loc.enter name)
  else if maxName < name.utf8ByteSize then
    .error .nameTooLong
  else
    match t.node? (loc ++ [name]) with
    | none => .error .notFound
    | some (.file _) => .error .notADirectory
    | some .directory => .ok (loc ++ [name])

/-- The directory in which the last name of a path is looked up, and that name. A path without a
name has none. -/
def approach (t : FileTree) (p : Path) : Except Fault (Location × Option String) :=
  if '\x00' ∈ p.toList then .error .nulInPath
  else if p.isEmpty then .error .notFound
  else if maxPath < p.utf8ByteSize then .error .nameTooLong
  else
    match p.names.dropLast.foldlM t.enterDirectory (p.start t.workingDir) with
    | .error fault => .error fault
    | .ok dir => .ok (dir, p.names.getLast?)

/-- The location of what a path names, and what it holds. -/
def resolve (t : FileTree) (p : Path) : Except Fault (Location × Node) :=
  match t.approach p with
  | .error fault => .error fault
  | .ok (dir, none) => .ok (dir, .directory)
  | .ok (dir, some name) =>
    if name = "." ∨ name = ".." then .ok (dir.enter name, .directory)
    else if maxName < name.utf8ByteSize then .error .nameTooLong
    else
      match t.node? (dir ++ [name]) with
      | none => .error .notFound
      | some .directory => .ok (dir ++ [name], .directory)
      | some (.file content) =>
        if p.endsInSlash then .error .notADirectory else .ok (dir ++ [name], .file content)

/-- Whether a path names a plain file. -/
def isFile (t : FileTree) (p : Path) : Bool :=
  match t.resolve p with
  | .ok (_, .file _) => true
  | _ => false

/-- Whether a path names a directory. -/
def isDirectory (t : FileTree) (p : Path) : Bool :=
  match t.resolve p with
  | .ok (_, .directory) => true
  | _ => false

/-- The content of the plain file that a path names. -/
def read (t : FileTree) (p : Path) : Except Fault ByteArray :=
  match t.resolve p with
  | .error fault => .error fault
  | .ok (_, .directory) => .error .isADirectory
  | .ok (_, .file content) => .ok content

/-- The content of the plain file that a path names, as text. -/
def readText (t : FileTree) (p : Path) : Except Fault String :=
  match t.read p with
  | .error fault => .error fault
  | .ok content =>
    match String.fromUTF8? content with
    | none => .error .notText
    | some text => .ok text

/-- The names in the directory that a path names, and what they hold. -/
def list (t : FileTree) (p : Path) : Except Fault (List (String × Node)) :=
  match t.resolve p with
  | .error fault => .error fault
  | .ok (_, .file _) => .error .notADirectory
  | .ok (loc, .directory) => .ok (t.entries loc)

/-- Whether two paths name the same directory or file. Paths of which one names nothing are
compared as texts. -/
def same (t : FileTree) (p q : Path) : Bool :=
  match t.resolve p, t.resolve q with
  | .ok (a, _), .ok (b, _) => a = b
  | _, _ => p.sameText q

/-! ## Changing a tree -/

/-- The tree with `loc` holding `node`. -/
def set (t : FileTree) (loc : Location) (node : Node) : FileTree where
  workingDir := t.workingDir
  nodes := Keyed.put loc node t.nodes
  distinct := Keyed.nodup_keys_put t.distinct

/-- The tree without the locations that `drop` names. -/
def discard (t : FileTree) (drop : Location → Bool) : FileTree where
  workingDir := t.workingDir
  nodes := t.nodes.filter fun (loc, _) => !drop loc
  distinct := t.distinct.sublist (List.filter_sublist.map _)

/-- Where a file is written that a path names. -/
def writeTarget (t : FileTree) (p : Path) : Except Fault Location :=
  match t.approach p with
  | .error fault => .error fault
  | .ok (_, none) => .error .isADirectory
  | .ok (dir, some name) =>
    if name = "." ∨ name = ".." ∨ p.endsInSlash then .error .isADirectory
    else if maxName < name.utf8ByteSize then .error .nameTooLong
    else if t.node? (dir ++ [name]) = some .directory then .error .isADirectory
    else .ok (dir ++ [name])

/-- The tree with the content of the file that a path names; the file is made if need be. -/
def write (t : FileTree) (p : Path) (content : ByteArray) : Except Fault FileTree :=
  (t.writeTarget p).map fun loc => t.set loc (.file content)

/-- Where a directory is made that a path names. Nothing may be there. -/
def directoryTarget (t : FileTree) (p : Path) : Except Fault Location :=
  match t.approach p with
  | .error fault => .error fault
  | .ok (_, none) => .error .alreadyExists
  | .ok (dir, some name) =>
    if name = "." ∨ name = ".." then .error .alreadyExists
    else if maxName < name.utf8ByteSize then .error .nameTooLong
    else if (t.node? (dir ++ [name])).isSome then .error .alreadyExists
    else .ok (dir ++ [name])

/-- The tree with a new directory, in a directory that is there. -/
def makeDirectory (t : FileTree) (p : Path) : Except Fault FileTree :=
  (t.directoryTarget p).map fun loc => t.set loc .directory

/-- Makes a directory and those on the way to it that are missing, one after the other, nearest to
the root first. The directories made before a fault stay. `depth` bounds their number. -/
def makeDirectoriesUpTo (t : FileTree) (p : Path) : Nat → FileTree × Option Fault
  | 0 => (t, none)
  | depth + 1 =>
    if p.isEmpty then
      (t, none)
    else
      match t.makeDirectory p with
      | .ok t' => (t', none)
      | .error .notFound =>
        match p.parent? with
        | none => (t, some .notFound)
        | some parent =>
          match t.makeDirectoriesUpTo parent depth with
          | (t', some fault) => (t', some fault)
          | (t', none) =>
            match t'.makeDirectory p with
            | .ok t'' => (t'', none)
            | .error fault => (t', if t'.isDirectory p then none else some fault)
      | .error fault => (t, if t.isDirectory p then none else some fault)

/-- Makes a directory and those on the way to it that are missing. A parent is a shorter path, so
the length of the path bounds their number. -/
def makeDirectories (t : FileTree) (p : Path) : FileTree × Option Fault :=
  t.makeDirectoriesUpTo p (p.length + 1)

/-- Where a plain file is moved to by a path. -/
def moveTarget (t : FileTree) (p : Path) : Except Fault Location :=
  match t.approach p with
  | .error fault => .error fault
  | .ok (_, none) => .error .isADirectory
  | .ok (dir, some name) =>
    if name = "." ∨ name = ".." then .error .isADirectory
    else if maxName < name.utf8ByteSize then .error .nameTooLong
    else if t.node? (dir ++ [name]) = some .directory then .error .isADirectory
    else if p.endsInSlash then .error .notADirectory
    else .ok (dir ++ [name])

/-- The tree with a plain file moved, in place of the file that was there. -/
def move (t : FileTree) (source target : Path) : Except Fault FileTree :=
  match t.resolve source with
  | .error fault => .error fault
  | .ok (_, .directory) => .error .isADirectory
  | .ok (old, .file content) => (t.moveTarget target).map fun new =>
    if new = old then t else (t.discard (· = old)).set new (.file content)

/-- A tree that holds nothing but the directories on the way to its working directory. -/
def empty (workingDir : Location) : FileTree :=
  (List.range workingDir.length).foldl
    (fun t n => t.set (workingDir.take (n + 1)) .directory) ⟨workingDir, [], by simp⟩

end FileTree

end Webcomic.Files
