import Webcomic.CommandLine.Run

/-!
# The program

The outer layer: it takes a picture of the files that a command can need, runs the command on the
picture, and carries the changes over to the files. All decisions are made on the picture.
-/

namespace Webcomic

open Calendar CommandLine Files

/-! ## Files -/

/-- The path of a location. -/
def absolutePath (loc : Location) : String :=
  "/" ++ "/".intercalate loc

/-- The location of an existing file or directory. -/
def locationOf (p : Path) : IO Location := do
  return Path.names (← IO.FS.realPath p).toString

/-- The picture with all that lies in a directory. -/
partial def addContents (files : FileTree) (dir : Location) : IO FileTree := do
  let mut files := files
  for entry in ← (← IO.FS.realPath (absolutePath dir)).readDir do
    let loc := dir ++ [entry.fileName]
    if ← entry.path.isDir then
      files ← addContents (files.set loc .directory) loc
    else
      files := files.set loc (.file (← IO.FS.readBinFile entry.path))
  return files

/-- The picture with a directory, all that lies in it and the directories on the way to it. A path
that names no directory adds nothing. -/
def addDirectory (files : FileTree) (p : Path) : IO FileTree := do
  let p := if p.isEmpty then "." else p
  try
    let dir ← locationOf p
    let mut files := files
    for n in [0:dir.length] do
      files := files.set (dir.take (n + 1)) .directory
    addContents files dir
  catch _ => return files

/-- The picture of the working directory, and of the directories of the configuration file and of
the site it describes. -/
def picture (config : Path) : IO FileTree := do
  let files ← addDirectory (.empty (← locationOf ".")) "."
  let files ← addDirectory files ((config.parent?).getD ".")
  match Site.Config.load files config with
  | .ok c => addDirectory files c.baseDir
  | .error _ => return files

/-- Makes the files agree with a picture, where it differs from the one that was taken of them. -/
def carryOver (before after : FileTree) : IO Unit := do
  for (loc, node) in after.nodes do
    if before.node? loc ≠ some node then
      match node with
      | .directory => IO.FS.createDirAll (absolutePath loc)
      | .file content => IO.FS.writeBinFile (absolutePath loc) content
  for (loc, node) in before.nodes do
    if node.isFile && (after.node? loc).isNone then
      IO.FS.removeFile (absolutePath loc)

/-! ## Time -/

/-- The first day of the count of seconds that file times are given in. -/
def firstDay : Date := ⟨1970, 1, 1, by decide⟩

/-- The moment it is: the time at which a new file is made. -/
def now : IO Moment := do
  let (_, path) ← IO.FS.createTempFile
  let time := (← path.metadata).modified
  IO.FS.removeFile path
  match Moment.afterMidnight? firstDay time.sec time.nsec.toNat with
  | some moment => return moment
  | none => throw (IO.userError "the clock is out of range")

/-! ## Texts about the program -/

/-- What the program says about arguments that are no invocation. -/
def usageText : Usage → String
  | .invalidSubcommand => "error: unrecognized subcommand"
  | .missingSubcommand => "error: a subcommand is required"
  | .unknownArgument => "error: unexpected argument"
  | .missingRequiredArgument => "error: a required argument is missing"
  | .invalidValue => "error: a value is required"
  | .tooManyValues => "error: unexpected value"
  | .argumentConflict => "error: an option cannot be used more than once"
  | .displayVersion => "0.1.0"
  | .displayHelp | .displayHelpOnMissing =>
    "Usage: [-c FILE] [-v] publish | render TEMPLATE [-d DATE] [--strict] | dates"

/-- Whether arguments that are no invocation ask for nothing but a text. -/
def isRequest : Usage → Bool
  | .displayHelp | .displayVersion => true
  | _ => false

/-- Runs an invocation on the files of this machine. -/
def perform (i : Invocation) : IO UInt32 := do
  let files ← picture i.config
  let moment ← now
  let outcome := i.run (fun c => (c.today? moment).getD moment.date) files
  carryOver files outcome.files
  IO.print outcome.output
  match outcome.result with
  | .ok _ => return 0
  | .error e =>
    IO.eprintln ("Error: " ++ e.message)
    return 1

end Webcomic

/-- The command line. -/
def main (args : List String) : IO UInt32 := do
  match Webcomic.CommandLine.Invocation.ofArguments args with
  | .ok invocation => Webcomic.perform invocation
  | .error usage =>
    if Webcomic.isRequest usage then
      IO.println (Webcomic.usageText usage)
      return 0
    else
      IO.eprintln (Webcomic.usageText usage)
      return 2
