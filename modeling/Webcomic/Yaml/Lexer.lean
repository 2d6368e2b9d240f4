import Webcomic.Yaml.Block
import Webcomic.Yaml.Property

/-!
# From text to tokens

A text is cut into tokens from left to right. Two things are known only later. A key without a
mark of its own is recognized by the colon after it, so the place where it started is remembered
until then, and its mark is put before tokens that have been cut already. And a collection that is
held together by indentation ends where a line stands further left.

A token is therefore handed on only when no mark can come before it any more. A text that cannot
be cut to its end gives the tokens that had been handed on when that became clear, and
`Token.textEnd` is not among them.
-/

namespace Webcomic.Yaml

/-- A place where a key may have started. -/
structure KeyStart where
  /-- The number of tokens before it. -/
  number : Nat
  spot : Spot
  /-- Whether nothing but a key can stand there. -/
  required : Bool
deriving DecidableEq, Repr

/-- A key cannot be longer than this. -/
def maxKeyLength : Nat := 1024

/-- Whether the key that may have started would have had to end before a place: it does not run
over a line end. -/
def KeyStart.isOver (k : KeyStart) (spot : Spot) : Bool :=
  k.spot.line < spot.line || k.spot.index + maxKeyLength < spot.index

/-- A text that is being cut into tokens. -/
structure Lexer where
  rest : List Glyph
  /-- The tokens that have been cut but not handed on. -/
  queue : List Token
  /-- The number of tokens that have been handed on. -/
  taken : Nat
  /-- The columns of the open collections that indentation holds together, innermost first. -/
  indents : List Nat
  /-- Where a key may have started in the innermost collection. -/
  key : Option KeyStart
  /-- The same for the collections around each open flow collection. -/
  outerKeys : List (Option KeyStart)
  /-- Whether a key can start here. -/
  keyAllowed : Bool
  /-- The end of the text, as a place on a line of its own. -/
  finish : Spot
  ended : Bool

namespace Lexer

/-- The start of a text. -/
def ofChars (cs : List Char) : Lexer where
  rest := place .origin cs
  queue := []
  taken := 0
  indents := []
  key := none
  outerKeys := []
  keyAllowed := true
  finish := endSpot .origin (cs ++ ['\n'])
  ended := false

/-- Whether a flow collection is open. -/
def inFlow (lx : Lexer) : Bool :=
  !lx.outerKeys.isEmpty

/-- The column right of the innermost collection that indentation holds together. -/
def margin (lx : Lexer) : Nat :=
  match lx.indents with
  | [] => 0
  | column :: _ => column + 1

def spot (lx : Lexer) : Spot :=
  match lx.rest with
  | [] => lx.finish
  | g :: _ => g.spot

/-- The lexer with one more token. -/
def enqueue (lx : Lexer) (t : Token) : Lexer :=
  { lx with queue := lx.queue ++ [t] }

/-- The lexer with one more token, which `number` tokens of the text come before. -/
def insert (lx : Lexer) (number : Nat) (t : Token) : Lexer :=
  let n := number - lx.taken
  { lx with queue := lx.queue.take n ++ t :: lx.queue.drop n }

/-- The number of tokens up to here. -/
def count (lx : Lexer) : Nat :=
  lx.taken + lx.queue.length

/-! ## Keys -/

/-- What is left of a key start at a place. A required key cannot be over. -/
def keptKey? (spot : Spot) : Option KeyStart → Option (Option KeyStart)
  | none => some none
  | some k =>
    if k.isOver spot then
      if k.required then none else some none
    else
      some (some k)

/-- Forgets the keys that would have had to end by now. -/
def dropKeys (lx : Lexer) : Option Lexer := do
  let key ← keptKey? lx.spot lx.key
  let outerKeys ← lx.outerKeys.mapM (keptKey? lx.spot)
  return { lx with key, outerKeys }

/-- Forgets that a key may have started in the innermost collection. -/
def forgetKey (lx : Lexer) : Option Lexer :=
  if lx.key.any KeyStart.required then none else some { lx with key := none }

/-- Remembers that a key may start here, if it may. -/
def noteKey (lx : Lexer) : Option Lexer :=
  if lx.keyAllowed then do
    let required := !lx.inFlow && lx.margin = lx.spot.column + 1
    let lx ← lx.forgetKey
    return { lx with key := some ⟨lx.count, lx.spot, required⟩ }
  else
    some lx

/-! ## Indentation -/

/-- Opens a collection at a column that is right of the ones that are open. Its mark comes after
`number` tokens. -/
def openBlock (lx : Lexer) (column number : Nat) (t : Token) : Lexer :=
  if !lx.inFlow && lx.margin ≤ column then
    { lx.insert number t with indents := column :: lx.indents }
  else
    lx

/-- Closes the collections whose lines cannot stand left of the margin `keep`. -/
def closeBlocks (lx : Lexer) (keep : Nat) : Lexer :=
  if lx.inFlow then
    lx
  else
    let closed := lx.indents.takeWhile (keep < · + 1)
    { lx with
      queue := lx.queue ++ closed.map fun _ => .blockEnd
      indents := lx.indents.drop closed.length }

/-! ## One token -/

/-- The text after spaces, comments and line ends, and whether a key can start there. A line end
outside of flow collections lets a key start, and until a token is cut a tab is then no space. -/
def skipGap (inFlow keyAllowed : Bool) (gs : List Glyph) : List Glyph × Bool :=
  match gs with
  | [] => ([], keyAllowed)
  | g :: rest =>
    if g.char = ' ' || (g.char = '\t' && (inFlow || !keyAllowed)) then
      skipGap inFlow keyAllowed rest
    else if g.char = '#' then
      have := length_dropWhile_le (fun g : Glyph => !isBreak g.char) rest
      skipGap inFlow keyAllowed (rest.dropWhile fun g => !isBreak g.char)
    else if isBreak g.char then
      skipGap inFlow (keyAllowed || !inFlow) rest
    else
      (g :: rest, keyAllowed)
termination_by gs.length
decreasing_by all_goals (simp_all only [List.length_cons]; omega)

/-- Passes `n` characters. -/
def pass (lx : Lexer) (n : Nat) : Lexer :=
  { lx with rest := lx.rest.drop n }

/-- The end of the text. -/
def cutEnd (lx : Lexer) : Option Lexer := do
  let lx ← (lx.closeBlocks 0).forgetKey
  return { lx.enqueue .textEnd with keyAllowed := false, ended := true }

/-- A directive. -/
def cutDirective (lx : Lexer) : Option Lexer := do
  let lx ← (lx.closeBlocks 0).forgetKey
  let (t, rest) ← directive lx.rest.tail
  return { lx.enqueue t with rest, keyAllowed := false }

/-- A mark that opens or closes a document. -/
def cutDocumentMark (lx : Lexer) (t : Token) : Option Lexer := do
  let lx ← (lx.closeBlocks 0).forgetKey
  return { (lx.enqueue t).pass 3 with keyAllowed := false }

/-- The start of a flow collection. -/
def cutFlowStart (lx : Lexer) (t : Token) : Option Lexer := do
  let lx ← lx.noteKey
  return { (lx.enqueue t).pass 1 with
    key := none, outerKeys := lx.key :: lx.outerKeys, keyAllowed := true }

/-- The end of a flow collection. -/
def cutFlowEnd (lx : Lexer) (t : Token) : Option Lexer := do
  let lx ← lx.forgetKey
  let lx := { (lx.enqueue t).pass 1 with keyAllowed := false }
  match lx.outerKeys with
  | [] => return lx
  | key :: outerKeys => return { lx with key, outerKeys }

/-- A comma between the items of a flow collection. -/
def cutFlowEntry (lx : Lexer) : Option Lexer := do
  let lx ← lx.forgetKey
  return { (lx.enqueue .flowEntry).pass 1 with keyAllowed := true }

/-- The mark of an item of a sequence. -/
def cutBlockEntry (lx : Lexer) : Option Lexer := do
  if !lx.inFlow && !lx.keyAllowed then
    none
  else
    let lx ← (lx.openBlock lx.spot.column lx.count .blockSequenceStart).forgetKey
    return { (lx.enqueue .blockEntry).pass 1 with keyAllowed := true }

/-- The mark of a key. -/
def cutKey (lx : Lexer) : Option Lexer := do
  if !lx.inFlow && !lx.keyAllowed then
    none
  else
    let lx ← (lx.openBlock lx.spot.column lx.count .blockMappingStart).forgetKey
    return { (lx.enqueue .key).pass 1 with keyAllowed := !lx.inFlow }

/-- The mark of a value. If a key may have started before it, one did. -/
def cutValue (lx : Lexer) : Option Lexer :=
  match lx.key with
  | some k =>
    let lx := lx.insert k.number .key
    let lx := lx.openBlock k.spot.column k.number .blockMappingStart
    some { (lx.enqueue .value).pass 1 with key := none, keyAllowed := false }
  | none =>
    if !lx.inFlow && !lx.keyAllowed then
      none
    else
      let lx := lx.openBlock lx.spot.column lx.count .blockMappingStart
      some { (lx.enqueue .value).pass 1 with keyAllowed := !lx.inFlow }

/-- A property of a node, or an alias. -/
def cutProperty (lx : Lexer) (read : List Glyph → Option (Token × List Glyph)) : Option Lexer := do
  let lx ← lx.noteKey
  let (t, rest) ← read lx.rest
  return { lx.enqueue t with rest, keyAllowed := false }

/-- A block scalar. -/
def cutBlockScalar (lx : Lexer) (style : Style) : Option Lexer := do
  let lx ← lx.forgetKey
  let (text, rest) ← blockScalar (style = .literal) lx.margin lx.rest.tail
  return { lx.enqueue (.scalar style (String.ofList text)) with rest, keyAllowed := true }

/-- A quoted scalar. -/
def cutQuoted (lx : Lexer) (style : Style) : Option Lexer := do
  let lx ← lx.noteKey
  let (text, rest) ←
    if style = .singleQuoted then singleQuoted lx.rest.tail else doubleQuoted lx.rest.tail
  return { lx.enqueue (.scalar style (String.ofList text)) with rest, keyAllowed := false }

/-- A plain scalar. -/
def cutPlain (lx : Lexer) : Option Lexer := do
  let lx ← lx.noteKey
  let scalar ← plainScalar lx.inFlow lx.margin lx.rest
  return { lx.enqueue (.scalar .plain (String.ofList scalar.text)) with
    rest := scalar.rest, keyAllowed := scalar.crossed }

/-- The characters that a plain scalar cannot start with, or only before certain others. -/
def isIndicator (c : Char) : Bool :=
  "-?:,[]\x7b\x7d#&*!|>'\"%@\x60".toList.contains c

/-- Whether a plain scalar can start with `c` before `rest`. -/
def startsPlain (inFlow : Bool) (c : Char) (rest : List Glyph) : Bool :=
  !(isGap c || isIndicator c) || (c = '-' && !nextIs isSpace rest)
    || (!inFlow && (c = '?' || c = ':') && !atWordEnd rest)

/-- Cuts one token, or several that belong together. -/
def cut (lx : Lexer) : Option Lexer := do
  let (rest, keyAllowed) := skipGap lx.inFlow lx.keyAllowed lx.rest
  let lx ← ({ lx with rest, keyAllowed } : Lexer).dropKeys
  match rest with
  | [] => lx.cutEnd
  | g :: after =>
    let lx := lx.closeBlocks (g.spot.column + 1)
    let c := g.char
    if g.spot.column = 0 && c = '%' then lx.cutDirective
    else if startsWithMark '-' rest then lx.cutDocumentMark .documentStart
    else if startsWithMark '.' rest then lx.cutDocumentMark .documentEnd
    else if c = '[' then lx.cutFlowStart .flowSequenceStart
    else if c = '\x7b' then lx.cutFlowStart .flowMappingStart
    else if c = ']' then lx.cutFlowEnd .flowSequenceEnd
    else if c = '\x7d' then lx.cutFlowEnd .flowMappingEnd
    else if c = ',' then lx.cutFlowEntry
    else if c = '-' && atWordEnd after then lx.cutBlockEntry
    else if c = '?' && (lx.inFlow || atWordEnd after) then lx.cutKey
    else if c = ':' && (lx.inFlow || atWordEnd after) then lx.cutValue
    else if c = '*' then lx.cutProperty fun gs =>
      (anchorName gs.tail).map fun (name, rest) => (.alias name, rest)
    else if c = '&' then lx.cutProperty fun gs =>
      (anchorName gs.tail).map fun (name, rest) => (.anchor name, rest)
    else if c = '!' then lx.cutProperty (tag lx.inFlow)
    else if c = '|' && !lx.inFlow then lx.cutBlockScalar .literal
    else if c = '>' && !lx.inFlow then lx.cutBlockScalar .folded
    else if c = '\'' then lx.cutQuoted .singleQuoted
    else if c = '"' then lx.cutQuoted .doubleQuoted
    else if startsPlain lx.inFlow c after then lx.cutPlain
    else none

/-! ## All tokens -/

/-- Whether a mark can still come before the first token of the queue. -/
def isHeld (lx : Lexer) : Bool :=
  (lx.key :: lx.outerKeys).any fun key => key.any (·.number = lx.taken)

/-- What is left to cut: the characters and the end. -/
def left (lx : Lexer) : Nat :=
  lx.rest.length + if lx.ended then 0 else 1

/-- The tokens of the text from here on. Each cut leaves less of the text. -/
def tokens (lx : Lexer) : List Token :=
  let more (lx' : Lexer) : List Token :=
    match lx'.cut with
    | none => []
    | some next => if next.left < lx.left then next.tokens else []
  match _hqueue : lx.queue with
  | [] => more lx
  | t :: queue =>
    match lx.dropKeys with
    | none => []
    | some kept =>
      if kept.isHeld then
        more kept
      else
        t :: ({ lx with
          key := kept.key, outerKeys := kept.outerKeys, queue, taken := lx.taken + 1 } : Lexer).tokens
termination_by (lx.left, lx.queue.length)
decreasing_by
  · exact Prod.Lex.left _ _ (by assumption)
  · simp_all [left, Prod.lex_def]

end Lexer

/-- The tokens of a text, up to where it stops making sense. -/
def tokensOf (text : String) : List Token :=
  match charsOf? text with
  | none => []
  | some cs => (Lexer.ofChars cs).tokens

end Webcomic.Yaml
