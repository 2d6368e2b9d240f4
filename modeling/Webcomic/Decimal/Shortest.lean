import Webcomic.Decimal.Basic

/-!
# Numbers of double precision

A finite number of double precision is a whole number of **steps** of 2⁻¹⁰⁷⁴, of which at most the
first 53 binary digits are not zero. A decimal number is read as the nearest of them, and of two
equally near ones as the one whose last digit is even. It is written with the fewest digits that
are read back as the same number, and of those with the digits nearest to it.

All of this is exact arithmetic on natural numbers.
-/

namespace Webcomic.Decimal

/-- A power of two. -/
def pow2 (n : Nat) : Nat := Nat.pow 2 n

/-- A power of ten. -/
def pow10 (n : Nat) : Nat := Nat.pow 10 n

/-- The binary digits of the significand. -/
def precision : Nat := 53

/-- The number one has two to this power of steps. -/
def unitBits : Nat := 1074

/-- From two to this power on, a number of steps is too large. -/
def limitBits : Nat := unitBits + 1024

/-- The place of the last binary digit that a number of steps of this size can have. -/
def lastPlace (steps : Nat) : Nat :=
  if steps = 0 then 0 else steps.log2 + 1 - precision

/-- The quotient rounded to the nearest natural number, a half to the even neighbour. -/
def divNearest (num den : Nat) : Nat :=
  let q := num / den
  let r := num % den
  if 2 * r < den ∨ (2 * r = den ∧ q % 2 = 0) then q else q + 1

/-- The steps nearest to a fraction, if they are not too many. -/
def nearestSteps? (num den : Nat) : Option Nat :=
  let num := num * pow2 unitBits
  let place := lastPlace (num / den)
  let steps := divNearest num (den * pow2 place) * pow2 place
  if steps < pow2 limitBits then some steps else none

/-- More powers of ten than a number of double precision can have, either way. -/
def maxPower : Int := 350

/-- The steps nearest to a decimal number. A number so large or so small that its size alone
decides is not worked out. -/
def steps? (d : Decimal) : Option Nat :=
  let power : Int := (Text.digits d.coefficient).length + d.exponent
  if d.coefficient = 0 ∨ power < -maxPower then some 0
  else if maxPower < power then none
  else if 0 ≤ d.exponent then nearestSteps? (d.coefficient * pow10 d.exponent.toNat) 1
  else nearestSteps? d.coefficient (pow10 d.exponent.natAbs)

/-! ## The shortest text -/

/-- The decimal numbers that are read as one number of steps: those between `low` and `high`,
counted in half steps, with both ends if `closed`. -/
structure Basin where
  low : Nat
  high : Nat
  closed : Bool

/-- The basin of a number of steps. Below a power of two the neighbour is half as far away. -/
def basin (steps : Nat) : Basin :=
  let place := lastPlace steps
  let significand := steps / pow2 place
  let down := if significand = pow2 (precision - 1) ∧ 0 < place then pow2 (place - 1) else pow2 place
  ⟨2 * steps - down, 2 * steps + pow2 place, significand % 2 = 0⟩

/-- Whether a number of half steps over `scale` lies in a basin. -/
def Basin.holds (b : Basin) (scale halves : Nat) : Bool :=
  if b.closed then b.low * scale ≤ halves && halves ≤ b.high * scale
  else b.low * scale < halves && halves < b.high * scale

/-- The decimal digits before the point of a positive number of steps, negative for zeros that
follow the point. -/
def magnitude (steps : Nat) : Int :=
  (Text.digits (steps * pow10 maxPower.toNat / pow2 unitBits)).length - maxPower

/-- The multiple of `10 ^ exponent` in the basin that is nearest to the number of steps, if there
is one. Of two equally near ones it is the larger. -/
def onGrid? (steps : Nat) (exponent : Int) : Option Decimal :=
  let scale := pow10 (-exponent).toNat
  let cell := pow10 exponent.toNat * pow2 (unitBits + 1)
  let target := 2 * steps * scale
  let below := target / cell
  let fits (n : Nat) : Bool := (basin steps).holds scale (n * cell)
  let nearerAbove := cell ≤ 2 * (target % cell)
  if fits (below + 1) && (nearerAbove || !fits below) then some ⟨below + 1, exponent⟩
  else if fits below then some ⟨below, exponent⟩
  else none

/-- Seventeen digits tell any two numbers of double precision apart. -/
def maxDigits : Nat := 17

/-- The decimal number with the fewest digits that is read as this number of steps. The coarsest
grid holds the next power of ten only. -/
def shortest (steps : Nat) : Decimal :=
  if steps = 0 then
    ⟨0, 0⟩
  else
    ((List.range (maxDigits + 1)).findSome? fun (n : Nat) =>
      onGrid? steps (magnitude steps - n)).getD ⟨0, 0⟩

end Webcomic.Decimal
