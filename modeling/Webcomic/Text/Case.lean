import Webcomic.Text.CaseTable

/-!
# Upper and lower case

Unicode case mapping of whole words. Lower case works on a text, not on a character: a capital
sigma becomes the final form at the end of a word, and a capital I with a dot becomes two
characters. Upper case of one character can be several.
-/

namespace Webcomic.Text

open CaseTable

/-- Whether `code` lies in one of the ranges. -/
def inRanges (ranges : Array (Nat × Nat)) (code : Nat) : Bool :=
  ranges.any fun r => r.1 ≤ code && code ≤ r.2

/-- The image of a code point under the first row that holds it. -/
def mapCode (rows : Array Row) (code : Nat) : Nat :=
  (rows.findSome? (·.image? code)).getD code

/-- The upper case of one character, which can be up to three. -/
def upperChar (c : Char) : List Char :=
  if c.toNat < 0x80 then
    [c.toUpper]
  else
    match upperExpanding.find? (·.1 == c.toNat) with
    | some (_, codes) => codes.map Char.ofNat
    | none => [Char.ofNat (mapCode upper c.toNat)]

/-- The lower case of one character out of context. -/
def lowerChar (c : Char) : List Char :=
  if c.toNat < 0x80 then
    [c.toLower]
  else if c = 'İ' then
    ['i', Char.ofNat 0x307]
  else
    [Char.ofNat (mapCode lower c.toNat)]

/-- Whether the first character that is not case-ignorable is a cased one. -/
def reachesCased (cs : List Char) : Bool :=
  match cs.dropWhile fun c => inRanges caseIgnorable c.toNat with
  | [] => false
  | c :: _ => inRanges cased c.toNat

/-- Lower case of `cs`, where `before` is what precedes it, nearest first. A capital sigma is final
when a cased character comes before it and none comes after it. -/
def lowerAfter (before : List Char) : List Char → List Char
  | [] => []
  | c :: cs =>
    let low :=
      if c = 'Σ' then
        if reachesCased before && !reachesCased cs then ['ς'] else ['σ']
      else
        lowerChar c
    low ++ lowerAfter (c :: before) cs

/-- The lower case of a text. -/
def toLower (cs : List Char) : List Char :=
  lowerAfter [] cs

/-- A word with its first character in upper case. -/
def capitalize : List Char → List Char
  | [] => []
  | c :: cs => upperChar c ++ cs

end Webcomic.Text
