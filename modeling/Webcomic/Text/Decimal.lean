/-!
# Decimal numbers of a fixed width

Whole numbers written with at least a given number of characters. The filler goes between the
sign and the digits when it is a zero, and before the sign when it is a space; the sign counts
towards the width either way.
-/

namespace Webcomic.Text

/-- What stands in front of a number that is shorter than its field. -/
inductive Filler where
  | none
  | zero
  | space
deriving DecidableEq, Repr

/-- The decimal digits of `n`, without leading zeros. -/
def digits (n : Nat) : List Char :=
  Nat.toDigits 10 n

/-- The sign a number is written with: a minus below zero, and a plus at zero or above only when
`plus` asks for it. -/
def sign (plus : Bool) (n : Int) : List Char :=
  if n < 0 then ['-'] else if plus then ['+'] else []

/-- The number `n` in a field of at least `width` characters. -/
def padded (filler : Filler) (width : Nat) (plus : Bool) (n : Int) : List Char :=
  let sgn := sign plus n
  let body := digits n.natAbs
  let missing := width - (sgn.length + body.length)
  match filler with
  | .none => sgn ++ body
  | .zero => sgn ++ List.replicate missing '0' ++ body
  | .space => List.replicate missing ' ' ++ sgn ++ body

/-- The number `n` filled with zeros to `width` characters. -/
def zeroPadded (width : Nat) (n : Int) : String :=
  String.ofList (padded .zero width false n)

/-- The value of a run of ASCII digits, most significant first. -/
def digitsValue (cs : List Char) : Nat :=
  cs.foldl (fun value c => 10 * value + (c.toNat - '0'.toNat)) 0

end Webcomic.Text
