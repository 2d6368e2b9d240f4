import Webcomic.Decimal.Shortest
import Webcomic.Text.Base
import Webcomic.Text.Quoted
import Webcomic.Yaml.Node

/-!
# What scalars stand for

A plain scalar can stand for nothing, a truth value, a number or its own text; which of them it is
can be seen from the text. A quoted scalar stands for its text. A tag can demand one of them, and a
tag that begins with an exclamation mark leaves a plain scalar as it is.
-/

namespace Webcomic.Yaml

open Text

/-- A number of double precision. -/
inductive Real where
  | finite (negative : Bool) (steps : Nat)
  | infinite (negative : Bool)
  | undefined
deriving DecidableEq, Repr

/-- What a node stands for, as far as messages tell it apart. -/
inductive Value where
  | unit
  | boolean (b : Bool)
  | integer (n : Int)
  | real (r : Real)
  | text (s : String)
  | sequence
  | mapping
deriving DecidableEq, Repr

/-! ## Plain scalars -/

/-- The spellings of nothing. -/
def isNull (s : String) : Bool :=
  s = "null" || s = "Null" || s = "NULL" || s = "~"

/-- The truth value that a text spells. -/
def boolean? (s : String) : Option Bool :=
  if s = "true" ∨ s = "True" ∨ s = "TRUE" then some true
  else if s = "false" ∨ s = "False" ∨ s = "FALSE" then some false
  else none

/-- Whether a text is digits after a zero, with or without a sign. Such a text is no number. -/
def hasLeadingZero (cs : List Char) : Bool :=
  let cs := if cs.head? = some '-' || cs.head? = some '+' then cs.tail else cs
  match cs with
  | '0' :: rest => !rest.isEmpty && rest.all Char.isDigit
  | _ => false

/-- A whole number without a sign, in the base that its first characters name. -/
def unsigned? (cs : List Char) : Option Nat :=
  match cs with
  | '0' :: 'x' :: rest => baseValue? 16 rest
  | '0' :: 'o' :: rest => baseValue? 8 rest
  | '0' :: 'b' :: rest => baseValue? 2 rest
  | _ => baseValue? 10 cs

/-- The whole number that a text spells. -/
def integer? (s : String) : Option Int :=
  let cs := s.toList
  if hasLeadingZero cs then
    none
  else
    match cs with
    | '-' :: rest => (unsigned? rest).map fun n => -(n : Int)
    | '+' :: rest => (unsigned? rest).map Int.ofNat
    | _ => (unsigned? cs).map Int.ofNat

/-- The finite number that a text spells without a plus. -/
def finite? (cs : List Char) : Option Real :=
  let (negative, cs) :=
    match cs with
    | '-' :: rest => (true, rest)
    | '+' :: rest => (false, rest)
    | _ => (false, cs)
  ((Decimal.ofChars? cs).bind Decimal.steps?).map (.finite negative)

/-- The number that a text spells. A plus can stand before a number without a sign. -/
def real? (s : String) : Option Real :=
  let infinities := [".inf", ".Inf", ".INF"].map String.toList
  let cs := s.toList
  if [".nan", ".NaN", ".NAN"].contains s then
    some .undefined
  else
    match cs with
    | '+' :: rest =>
      if infinities.contains rest then some (.infinite false)
      else if rest.head? = some '+' || rest.head? = some '-' then none
      else finite? rest
    | '-' :: rest => if infinities.contains rest then some (.infinite true) else finite? cs
    | _ => if infinities.contains cs then some (.infinite false) else finite? cs

/-- The whole numbers of 128 bits, with and without a sign. -/
def fits128 (n : Int) : Bool :=
  -0x80000000000000000000000000000000 ≤ n && n < 0x100000000000000000000000000000000

/-- A whole number that is not too large for one. -/
def boundedInteger? (s : String) : Option Int :=
  (integer? s).filter fits128

/-- What a plain scalar stands for. -/
def Value.ofPlain (s : String) : Value :=
  if s.isEmpty || isNull s then
    .unit
  else
    match boolean? s, boundedInteger? s with
    | some b, _ => .boolean b
    | none, some n => .integer n
    | none, none =>
      if hasLeadingZero s.toList then .text s
      else
        match real? s with
        | some r => .real r
        | none => .text s

/-! ## Tags -/

/-- The start of the tags that demand a kind of value. -/
def kindTag (kind : String) : String :=
  "tag:yaml.org,2002:" ++ kind

/-- The tag that demands nothing. -/
def nullTag : String := kindTag "null"

/-- The tag that demands a whole number. -/
def integerTag : String := kindTag "int"

/-- Whether a tag is of the kind that each text gives its own meaning. -/
def isLocalTag (tag : String) : Bool :=
  tag.toList.head? = some '!'

/-- What a scalar stands for, or what its tag demands in vain. -/
def scalarValue (tag : Option String) (style : Style) (s : String) : Except String Value :=
  let demand (value : Option Value) (what : String) : Except String Value :=
    match value with
    | some v => .ok v
    | none => .error what
  let untagged := if style = .plain then Value.ofPlain s else .text s
  match tag with
  | none => .ok untagged
  | some tag =>
    if tag = kindTag "bool" then demand ((boolean? s).map .boolean) "a boolean"
    else if tag = integerTag then demand ((boundedInteger? s).map .integer) "an integer"
    else if tag = kindTag "float" then demand ((real? s).map .real) "a float"
    else if tag = nullTag then demand (if isNull s then some .unit else none) "null"
    else if isLocalTag tag then .ok untagged
    else .ok (.text s)

/-! ## Messages -/

/-- A number as messages show it. -/
def Real.message : Real → String
  | .finite negative steps =>
    (if negative then "-" else "") ++ String.ofList (Decimal.shortest steps).text
  | .infinite negative => if negative then "-inf" else "inf"
  | .undefined => "NaN"

/-- A value as messages show it. -/
def Value.message : Value → String
  | .unit => "unit value"
  | .boolean b => s!"boolean `{b}`"
  | .integer n =>
    let width :=
      if 0x10000000000000000 ≤ n then " as u128"
      else if n < -0x8000000000000000 then " as i128"
      else ""
    s!"integer `{n}`" ++ width
  | .real r => s!"floating point `{r.message}`"
  | .text s => "string " ++ quoted s
  | .sequence => "sequence"
  | .mapping => "map"

end Webcomic.Yaml
