import Webcomic.Yaml.Flow
import Webcomic.Yaml.Token

/-!
# Anchors, tags and directives

The tokens that a text marks with `&`, `*`, `!` and `%`: names of nodes, references to them, the
tags that say what a scalar stands for, and the directives before a document.
-/

namespace Webcomic.Yaml

/-! ## Anchors and aliases -/

/-- The characters that can follow the name of an anchor, besides a gap. -/
def endsAnchor (c : Char) : Bool :=
  c = '?' || c = ':' || c = ',' || c = ']' || c = '\x7d' || c = '%' || c = '@' || c = '\x60'

/-- The name of an anchor. -/
def anchorName (gs : List Glyph) : Option (String × List Glyph) :=
  let (name, rest) := spanOf isNameChar gs
  if name.isEmpty || !(atWordEnd rest || nextIs endsAnchor rest) then none
  else some (String.ofList name, rest)

/-! ## Tags -/

/-- The characters of a tag. A comma and square brackets can stand only in a tag that is written
in full. -/
def isTagChar (inFull : Bool) (c : Char) : Bool :=
  isNameChar c || ";/?:@&=+$.%!~*'()".toList.contains c || (inFull && ",[]".toList.contains c)

/-- The number of bytes of a character in UTF-8, by the first of them. -/
def utf8Width? (byte : Nat) : Option Nat :=
  if byte < 0x80 then some 1
  else if 0xC0 ≤ byte ∧ byte < 0xE0 then some 2
  else if 0xE0 ≤ byte ∧ byte < 0xF0 then some 3
  else if 0xF0 ≤ byte ∧ byte < 0xF8 then some 4
  else none

/-- A byte written as a percent sign and two hexadecimal digits. -/
def percentByte? : List Char → Option Nat
  | ['%', a, b] => Text.baseValue? 16 [a, b]
  | _ => none

/-- The bytes of a character that is written byte by byte, each as a percent sign and two
hexadecimal digits. -/
def percentBytes? (cs : List Char) : Option (List Nat) := do
  let first ← percentByte? (cs.take 3)
  let width ← utf8Width? first
  let others ← (List.range (width - 1)).mapM fun n => do
    let byte ← percentByte? ((cs.drop (3 * (n + 1))).take 3)
    if 0x80 ≤ byte ∧ byte < 0xC0 then some byte else none
  return first :: others

/-- The text that bytes are, or the replacement character if they are none. -/
def textOfBytes (bytes : List Nat) : List Char :=
  match String.fromUTF8? ⟨(bytes.map UInt8.ofNat).toArray⟩ with
  | some text => text.toList
  | none => ['\uFFFD']

/-- The text of a tag, which can be empty. -/
def tagText (inFull : Bool) (gs : List Glyph) : Option (List Char × List Glyph) :=
  match gs with
  | [] => some ([], [])
  | g :: rest =>
    if g.char = '%' then
      match percentBytes? (chars ((g :: rest).take 12)) with
      | none => none
      | some bytes =>
        have : (rest.drop (3 * bytes.length - 1)).length ≤ rest.length := by simp
        (tagText inFull (rest.drop (3 * bytes.length - 1))).map fun (text, after) =>
          (textOfBytes bytes ++ text, after)
    else if isTagChar inFull g.char then
      (tagText inFull rest).map fun (text, after) => (g.char :: text, after)
    else
      some ([], g :: rest)
termination_by gs.length
decreasing_by all_goals (simp_all only [List.length_cons]; omega)

/-- The exclamation mark that a tag starts with, and the name and second mark of a handle as far as
they are there. -/
def handleText : List Glyph → Option (List Char × List Glyph)
  | [] => none
  | g :: rest =>
    if g.char ≠ '!' then
      none
    else
      let (name, rest) := spanOf isNameChar rest
      if nextIs (· = '!') rest then some ('!' :: name ++ ['!'], rest.tail)
      else some ('!' :: name, rest)

/-- Whether a text is a handle with a name of its own, possibly empty. -/
def isNamedHandle (cs : List Char) : Bool :=
  2 ≤ cs.length && cs.getLast? = some '!'

/-- A tag. In a flow collection a comma can follow it. -/
def tag (inFlow : Bool) (gs : List Glyph) : Option (Token × List Glyph) := do
  let (handle, name, rest) ←
    if nextIs (· = '<') gs.tail then do
      let (name, rest) ← tagText true (gs.drop 2)
      if name.isEmpty || !nextIs (· = '>') rest then none else some ([], name, rest.tail)
    else do
      let (head, rest) ← handleText gs
      let (name, rest) ← tagText false rest
      if isNamedHandle head then
        if name.isEmpty then none else some (head, name, rest)
      else
        let name := head.tail ++ name
        some (if name.isEmpty then ([], ['!'], rest) else (['!'], name, rest))
  if atWordEnd rest || (inFlow && nextIs (· = ',') rest) then
    some (.tag (String.ofList handle) (String.ofList name), rest)
  else
    none

/-! ## Directives -/

/-- The longest number of a version. -/
def maxVersionDigits : Nat := 9

/-- One number of a version. -/
def versionNumber (gs : List Glyph) : Option (Nat × List Glyph) :=
  let (digits, rest) := spanOf Char.isDigit gs
  if digits.isEmpty || maxVersionDigits < digits.length then none
  else some (digits.foldl (fun value c => 10 * value + (c.toNat - '0'.toNat)) 0, rest)

/-- The text without the spaces it starts with. -/
def skipSpaces (gs : List Glyph) : List Glyph :=
  gs.dropWhile fun g => isSpace g.char

/-- The value of the directive that states a version. -/
def versionValue (gs : List Glyph) : Option (Token × List Glyph) := do
  let (major, rest) ← versionNumber (skipSpaces gs)
  let (minor, rest) ← if nextIs (· = '.') rest then versionNumber rest.tail else none
  return (.version major minor, rest)

/-- The value of the directive that declares a handle of tags. -/
def tagHandleValue (gs : List Glyph) : Option (Token × List Glyph) := do
  let (handle, rest) ← handleText (skipSpaces gs)
  if !(handle = ['!'] || isNamedHandle handle) || !nextIs isSpace rest then
    none
  else
    let (start, rest) ← tagText true (skipSpaces rest)
    if start.isEmpty || !atWordEnd rest then none
    else some (.tagHandle (String.ofList handle) (String.ofList start), rest)

/-- A directive after its percent sign, with the rest of its line. -/
def directive (gs : List Glyph) : Option (Token × List Glyph) := do
  let (name, rest) := spanOf isNameChar gs
  if !atWordEnd rest then
    none
  else
    let (token, rest) ←
      if name = "YAML".toList then versionValue rest
      else if name = "TAG".toList then tagHandleValue rest
      else none
    let rest := skipToLineEnd rest
    if atLineEnd rest then some (token, rest.tail) else none

end Webcomic.Yaml
