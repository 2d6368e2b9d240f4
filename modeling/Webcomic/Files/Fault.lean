/-!
# Faults of file operations

The ways in which reading or changing files fails, with the text each is reported by.
-/

namespace Webcomic.Files

/-- Why a file operation failed. -/
inductive Fault where
  | notFound
  | alreadyExists
  | notADirectory
  | isADirectory
  | nameTooLong
  /-- A path with a NUL character names nothing. -/
  | nulInPath
  /-- A file read as text is not UTF-8. -/
  | notText
deriving DecidableEq, Repr

/-- The text a fault is reported by. -/
def Fault.message : Fault → String
  | .notFound => "No such file or directory (os error 2)"
  | .alreadyExists => "File exists (os error 17)"
  | .notADirectory => "Not a directory (os error 20)"
  | .isADirectory => "Is a directory (os error 21)"
  | .nameTooLong => "File name too long (os error 36)"
  | .nulInPath => "file name contained an unexpected NUL byte"
  | .notText => "stream did not contain valid UTF-8"

end Webcomic.Files
