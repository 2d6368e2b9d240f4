import Webcomic.Text.Case
import Webcomic.Text.PrintTable

/-!
# Quoted texts

A text between double quotes, as messages show the values they complain about. A character that
would not show as itself is written by a backslash and a letter, or by its number.
-/

namespace Webcomic.Text

/-- The characters with a letter of their own after the backslash. -/
def letterEscapes : List (Char × Char) :=
  [('\x00', '0'), ('\t', 't'), ('\r', 'r'), ('\n', 'n'), ('\\', '\\'), ('"', '"')]

/-- Whether a character shows as itself: it has an image, and does not combine with the character
before it. -/
def isShown (c : Char) : Bool :=
  if c.toNat < 0x80 then
    0x20 ≤ c.toNat && c.toNat < 0x7F
  else
    !inRanges PrintTable.unprintable c.toNat && !inRanges PrintTable.graphemeExtend c.toNat

/-- A character by its number, in hexadecimal digits between braces. -/
def numberEscape (c : Char) : List Char :=
  ['\\', 'u', '\x7b'] ++ Nat.toDigits 16 c.toNat ++ ['\x7d']

/-- A character inside quotes. -/
def quotedChar (c : Char) : List Char :=
  match letterEscapes.lookup c with
  | some letter => ['\\', letter]
  | none => if isShown c then [c] else numberEscape c

/-- A text between double quotes. -/
def quoted (s : String) : String :=
  String.ofList (['"'] ++ s.toList.flatMap quotedChar ++ ['"'])

end Webcomic.Text
