import Webcomic.Text.Decimal

/-!
# Decimal numbers

Numbers above or equal to zero with a decimal point and an exponent, as they are written: digits
around an optional point, at least one of them, then an optional exponent. `Decimal.text` writes a
number in full, without an exponent and with a digit on both sides of the point.
-/

namespace Webcomic

open Text

/-- The number `coefficient * 10 ^ exponent`. -/
structure Decimal where
  coefficient : Nat
  exponent : Int
deriving DecidableEq, Repr

namespace Decimal

/-- A whole number with an optional sign. -/
def signedDigits? (cs : List Char) : Option Int :=
  let unsigned (cs : List Char) : Option Nat :=
    if !cs.isEmpty && cs.all Char.isDigit then some (digitsValue cs) else none
  match cs with
  | '-' :: cs => (unsigned cs).map fun n => -(n : Int)
  | '+' :: cs => (unsigned cs).map Int.ofNat
  | cs => (unsigned cs).map Int.ofNat

/-- The exponent at the end of a number, zero if nothing is written. -/
def exponentAt? : List Char → Option Int
  | [] => some 0
  | c :: cs => if c = 'e' ∨ c = 'E' then signedDigits? cs else none

/-- The number a text writes without a sign. -/
def ofChars? (cs : List Char) : Option Decimal :=
  let whole := cs.takeWhile Char.isDigit
  let rest := cs.dropWhile Char.isDigit
  let afterPoint := if rest.head? = some '.' then rest.drop 1 else rest
  let fraction := if rest.head? = some '.' then afterPoint.takeWhile Char.isDigit else []
  if whole.isEmpty && fraction.isEmpty then
    none
  else
    (exponentAt? (afterPoint.drop fraction.length)).map fun e =>
      ⟨digitsValue (whole ++ fraction), e - fraction.length⟩

/-- A number in full. -/
def text (d : Decimal) : List Char :=
  if 0 ≤ d.exponent then
    digits d.coefficient ++ List.replicate d.exponent.toNat '0' ++ ['.', '0']
  else
    let places := d.exponent.natAbs
    let ds := digits d.coefficient
    let ds := List.replicate (places + 1 - ds.length) '0' ++ ds
    ds.take (ds.length - places) ++ ['.'] ++ ds.drop (ds.length - places)

end Decimal

end Webcomic
