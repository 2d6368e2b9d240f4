import Webcomic.Text.Blank

/-!
# Characters with their places

Configuration texts are laid out by lines and columns, so their characters are taken together with
the places they stand at. A text is refused as a whole if it holds a character that such a text
cannot hold. The spellings of a line end are made one before anything else: a carriage return with
or without a line feed, and the next-line character, all count as one line feed.
-/

namespace Webcomic.Yaml

/-- A place in a text. -/
structure Spot where
  /-- The characters before the place. -/
  index : Nat
  /-- The line ends before the place. -/
  line : Nat
  /-- The characters between the last line end and the place. -/
  column : Nat
deriving DecidableEq, Repr

/-- The start of a text. -/
def Spot.origin : Spot := ⟨0, 0, 0⟩

/-- A character and its place. -/
structure Glyph where
  char : Char
  spot : Spot
deriving DecidableEq, Repr

/-! ## Classes of characters -/

/-- The characters a text can hold: the printable ones, the tab and the line ends. -/
def isAllowed (c : Char) : Bool :=
  let n := c.toNat
  n = 0x9 || n = 0xA || n = 0xD || (0x20 ≤ n && n ≤ 0x7E) || n = 0x85 || (0xA0 ≤ n && n ≤ 0xD7FF)
    || (0xE000 ≤ n && n ≤ 0xFFFD && n ≠ 0xFEFF) || 0x10000 ≤ n

/-- The spaces inside a line. -/
def isSpace (c : Char) : Bool :=
  c = ' ' || c = '\t'

/-- The ends of a line. -/
def isBreak (c : Char) : Bool :=
  c = '\n' || c = '\u2028' || c = '\u2029'

/-- What separates words. -/
def isGap (c : Char) : Bool :=
  isSpace c || isBreak c

/-- The characters of names: letters and digits without accents, the underscore and the hyphen. -/
def isNameChar (c : Char) : Bool :=
  c.isAlphanum || c = '_' || c = '-'

/-! ## Placing -/

/-- The text with one spelling of the line end. -/
def uniformBreaks : List Char → List Char
  | '\r' :: '\n' :: cs => '\n' :: uniformBreaks cs
  | '\r' :: cs => '\n' :: uniformBreaks cs
  | '\u0085' :: cs => '\n' :: uniformBreaks cs
  | c :: cs => c :: uniformBreaks cs
  | [] => []

/-- The place after a character. -/
def Spot.after (s : Spot) (c : Char) : Spot :=
  if isBreak c then ⟨s.index + 1, s.line + 1, 0⟩ else ⟨s.index + 1, s.line, s.column + 1⟩

/-- Characters with their places, the first of which is `s`. -/
def place (s : Spot) : List Char → List Glyph
  | [] => []
  | c :: cs => ⟨c, s⟩ :: place (s.after c) cs

/-- The place after a text. -/
def endSpot (s : Spot) (cs : List Char) : Spot :=
  cs.foldl Spot.after s

/-- The characters of a text, if it can hold all of them. A byte order mark at the start is not
part of the text. -/
def charsOf? (text : String) : Option (List Char) :=
  let cs := text.toList
  let cs := if cs.head? = some '\uFEFF' then cs.tail else cs
  if cs.all isAllowed then some (uniformBreaks cs) else none

/-! ## Looking ahead -/

/-- The characters of placed text. -/
def chars (gs : List Glyph) : List Char :=
  gs.map Glyph.char

/-- Whether the next character is of a class. -/
def nextIs (p : Char → Bool) : List Glyph → Bool
  | [] => false
  | g :: _ => p g.char

/-- Whether a word ends here: before a gap and at the end of the text. -/
def atWordEnd : List Glyph → Bool
  | [] => true
  | g :: _ => isGap g.char

/-- Whether a line ends here. -/
def atLineEnd : List Glyph → Bool
  | [] => true
  | g :: _ => isBreak g.char

/-- Whether a line starts with a mark of three equal characters. -/
def startsWithMark (c : Char) (gs : List Glyph) : Bool :=
  match gs with
  | g :: _ => g.spot.column = 0 && chars (gs.take 3) = [c, c, c] && atWordEnd (gs.drop 3)
  | [] => false

/-- Whether a line starts with the mark that opens a document, or with the one that closes it. -/
def atDocumentMark (gs : List Glyph) : Bool :=
  startsWithMark '-' gs || startsWithMark '.' gs

/-- The run of characters of a class, and what follows it. -/
def spanOf (p : Char → Bool) (gs : List Glyph) : List Char × List Glyph :=
  (chars (gs.takeWhile fun g => p g.char), gs.dropWhile fun g => p g.char)

theorem length_dropWhile_le {α : Type} (p : α → Bool) (as : List α) :
    (as.dropWhile p).length ≤ as.length :=
  (List.dropWhile_sublist p).length_le

/-- The text without the spaces it starts with, and without a comment. -/
def skipToLineEnd (gs : List Glyph) : List Glyph :=
  let gs := gs.dropWhile fun g => isSpace g.char
  if nextIs (· = '#') gs then gs.dropWhile fun g => !isBreak g.char else gs

end Webcomic.Yaml
