import Webcomic.Calendar.Stamp
import Webcomic.Text.Digit

/-!
# Dated file names

A comic file belongs to the day whose datestamp is in its name. The stamp is looked for in one
place only, the leftmost eight decimal digits that follow each other, digits of other scripts
included; if those are not a stamp, no later ones are tried.
-/

namespace Webcomic.Archive

open Calendar Text

/-- The leftmost eight decimal digits that follow each other. -/
def firstEightDigits? : List Char → Option (List Char)
  | [] => none
  | c :: cs =>
    let window := (c :: cs).take 8
    if window.length = 8 ∧ window.all isDecimalDigit then some window else firstEightDigits? cs

/-- The day that a file name is dated with, if it is dated with a real one. -/
def dateOfName? (name : String) : Option Date :=
  (firstEightDigits? name.toList).bind fun window => Date.ofStamp? (String.ofList window)

end Webcomic.Archive
