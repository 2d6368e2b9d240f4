import Webcomic.Archive.Directory
import Webcomic.Site.Error

/-!
# Promotion of staged comics

Comic files wait in the upload directory until their day. Those that are due are moved to the
comics directory, one after the other. A move that fails ends the promotion, and what was moved
before it stays moved.
-/

namespace Webcomic.Site

open Calendar Files

/-- A change of the files that can fail. What was done before it failed stays done. -/
abbrev Change := ExceptT Error (StateM FileTree)

namespace Change

/-- The outcome of a change, and the files after it. -/
def perform {α : Type} (change : Change α) (files : FileTree) : Except Error α × FileTree :=
  change.run.run files

/-- A look at the files. -/
def look {α : Type} (f : FileTree → Except Fault α) : Change α := do
  match f (← get) with
  | .ok a => return a
  | .error fault => throw (.files fault)

/-- A step that changes the files as a whole or not at all. -/
def step (f : FileTree → Except Error FileTree) : Change Unit := do
  match f (← get) with
  | .ok files => set files
  | .error e => throw e

/-- Makes a directory and those on the way to it that are missing. -/
def makeDirectories (p : Path) : Change Unit := do
  let (files, fault) := (← get).makeDirectories p
  set files
  match fault with
  | none => return
  | some fault => throw (.files fault)

/-- Writes a text to a file. -/
def write (p : Path) (text : String) : Change Unit :=
  step fun files => (files.write p text.toUTF8).mapError .files

end Change

/-- Moves one file from a directory to another. -/
def moveFile (source target : Path) (name : String) : Change Unit :=
  Change.step fun files =>
    (files.move (source.join name) (target.join name)).mapError
      (.move (source.join name) (target.join name))

/-- Moves a comic file if it is due, and counts it to those that were moved before. -/
def moveIfDue (upload comics : Path) (today : Date) (moved : Nat) (file : Date × String) :
    Change Nat :=
  let (date, name) := file
  if today < date then
    return moved
  else do
    moveFile upload comics name
    return moved + 1

/-- Moves the comic files that are due, and counts them. If both directories are the same, there is
nothing to move. -/
def promote (upload comics : Path) (today : Date) : Change Nat := do
  if (← get).same upload comics then
    return 0
  else
    Change.makeDirectories comics
    let listing ← Change.look (·.list upload)
    (Archive.datedFiles listing).foldlM (moveIfDue upload comics today) 0

end Webcomic.Site
