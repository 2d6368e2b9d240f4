import Webcomic.Text.Base
import Webcomic.Yaml.Glyph

/-!
# Plain and quoted scalars

The two kinds of scalars that are written inside a line. They can run over several lines, and then
each gap with a line end in it is **folded**: one line end becomes a space, and of several all but
the first are kept.
-/

namespace Webcomic.Yaml

open Text

/-- The text of a gap between two words. -/
def folded (gap : List Char) : List Char :=
  match gap.filter isBreak with
  | [] => gap
  | ['\n'] => [' ']
  | '\n' :: more => more
  | breaks => breaks

/-! ## Between single quotes -/

/-- The text up to a closing single quote; two quotes stand for one. -/
def singleQuoted (gs : List Glyph) : Option (List Char × List Glyph) :=
  match gs with
  | [] => none
  | g :: rest =>
    if atDocumentMark (g :: rest) then
      none
    else if isGap g.char then
      let gap := g.char :: chars (rest.takeWhile fun g => isGap g.char)
      have := length_dropWhile_le (fun g => isGap g.char) rest
      (singleQuoted (rest.dropWhile fun g => isGap g.char)).map fun (text, after) =>
        (folded gap ++ text, after)
    else if g.char = '\'' then
      match rest with
      | [] => some ([], [])
      | quote :: after =>
        if quote.char = '\'' then
          (singleQuoted after).map fun (text, after) => ('\'' :: text, after)
        else
          some ([], quote :: after)
    else
      (singleQuoted rest).map fun (text, after) => (g.char :: text, after)
termination_by gs.length
decreasing_by all_goals (simp_all only [List.length_cons]; omega)

/-! ## Between double quotes -/

/-- The characters that a backslash and a letter stand for. -/
def escapeLetters : List (Char × Char) :=
  [('0', '\x00'), ('a', '\x07'), ('b', '\x08'), ('t', '\t'), ('\t', '\t'), ('n', '\n'),
    ('v', '\x0b'), ('f', '\x0c'), ('r', '\x0d'), ('e', '\x1b'), (' ', ' '), ('"', '"'),
    ('/', '/'), ('\\', '\\'), ('N', '\u0085'), ('_', '\u00a0'), ('L', '\u2028'), ('P', '\u2029')]

/-- The letters that are followed by the number of a character, and how many digits it has. -/
def escapeNumbers : List (Char × Nat) :=
  [('x', 2), ('u', 4), ('U', 8)]

/-- What follows a backslash: the character it stands for and the length of its spelling. -/
def escape? (cs : List Char) : Option (Char × Nat) :=
  match cs with
  | [] => none
  | c :: cs =>
    match escapeLetters.lookup c, escapeNumbers.lookup c with
    | some meant, _ => some (meant, 1)
    | none, some width => do
      let code ← if (cs.take width).length = width then baseValue? 16 (cs.take width) else none
      if code.isValidChar then some (Char.ofNat code, width + 1) else none
    | none, none => none

/-- The text up to a closing double quote. A line end after a backslash is left out, together with
the spaces around it. -/
def doubleQuoted (gs : List Glyph) : Option (List Char × List Glyph) :=
  match gs with
  | [] => none
  | g :: rest =>
    if atDocumentMark (g :: rest) then
      none
    else if isGap g.char then
      let gap := g.char :: chars (rest.takeWhile fun g => isGap g.char)
      have := length_dropWhile_le (fun g => isGap g.char) rest
      (doubleQuoted (rest.dropWhile fun g => isGap g.char)).map fun (text, after) =>
        (folded gap ++ text, after)
    else if g.char = '"' then
      some ([], rest)
    else if g.char = '\\' then
      if nextIs isBreak rest then
        let gap := rest.tail.takeWhile fun g => isGap g.char
        have := length_dropWhile_le (fun g => isGap g.char) rest.tail
        have : rest.tail.length ≤ rest.length := by simp
        (doubleQuoted (rest.tail.dropWhile fun g => isGap g.char)).map fun (text, after) =>
          ((chars gap).filter isBreak ++ text, after)
      else
        match escape? (chars (rest.take 9)) with
        | none => none
        | some (c, width) =>
          have : (rest.drop width).length ≤ rest.length := by simp
          (doubleQuoted (rest.drop width)).map fun (text, after) => (c :: text, after)
    else
      (doubleQuoted rest).map fun (text, after) => (g.char :: text, after)
termination_by gs.length
decreasing_by all_goals (simp_all only [List.length_cons]; omega)

/-! ## Plain -/

/-- A plain scalar, the text after it, and whether it was left by a line end. -/
structure PlainScalar where
  text : List Char
  rest : List Glyph
  crossed : Bool

/-- The indicators that delimit flow collections and their items. -/
def isFlowIndicator (c : Char) : Bool :=
  c = ',' || c = '[' || c = ']' || c = '\x7b' || c = '\x7d'

/-- A word of a plain scalar. It ends before a colon that ends a key, and in a flow collection
before its indicators. In a flow collection a colon cannot stand right before an indicator. -/
def plainWord (inFlow : Bool) : List Glyph → Option (List Char × List Glyph)
  | [] => some ([], [])
  | g :: rest =>
    if isGap g.char then
      some ([], g :: rest)
    else if inFlow && g.char = ':' && nextIs (fun c => isFlowIndicator c || c = '?') rest then
      none
    else if (g.char = ':' && atWordEnd rest) || (inFlow && isFlowIndicator g.char) then
      some ([], g :: rest)
    else
      (plainWord inFlow rest).map fun (word, after) => (g.char :: word, after)

theorem length_rest_plainWord {inFlow : Bool} {gs rest : List Glyph} {word : List Char}
    (h : plainWord inFlow gs = some (word, rest)) : rest.length ≤ gs.length := by
  induction gs generalizing word with
  | nil => cases h; exact Nat.le_refl _
  | cons g gs ih =>
    unfold plainWord at h
    split at h
    · cases h; exact Nat.le_refl _
    split at h
    · cases h
    split at h
    · cases h; exact Nat.le_refl _
    obtain ⟨⟨word', rest'⟩, h', heq⟩ := Option.map_eq_some_iff.1 h
    cases heq
    have := ih h'
    simp only [List.length_cons]
    omega

/-- Whether a gap has a tab in the indentation of a line. -/
def tabIndents (indent : Nat) (gap : List Glyph) : Bool :=
  (gap.dropWhile fun g => !isBreak g.char).any fun g => g.char = '\t' && g.spot.column < indent

/-- Whether the next character stands left of a column. -/
def startsLeftOf (column : Nat) : List Glyph → Bool
  | [] => false
  | g :: _ => g.spot.column < column

theorem length_dropWhile_lt {α : Type} {p : α → Bool} {as : List α}
    (h : (as.takeWhile p).isEmpty = false) : (as.dropWhile p).length < as.length := by
  have hsplit := congrArg List.length (List.takeWhile_append_dropWhile (p := p) (l := as))
  rw [List.length_append] at hsplit
  have : 0 < (as.takeWhile p).length := by
    cases htake : as.takeWhile p with
    | nil => simp [htake] at h
    | cons => simp
  omega

/-- What follows a word of a plain scalar. The scalar goes on after a gap unless a comment or a
mark follows, or outside of flow collections a line that is indented by less than `indent`. -/
def plainTail (inFlow : Bool) (indent : Nat) (gs : List Glyph) : Option PlainScalar :=
  let gap := gs.takeWhile fun g => isGap g.char
  let next := gs.dropWhile fun g => isGap g.char
  let crossed := gap.any (isBreak ·.char)
  if hgap : (gs.takeWhile fun g => isGap g.char).isEmpty then
    some ⟨[], gs, false⟩
  else if tabIndents indent gap then
    none
  else if next.isEmpty || (!inFlow && startsLeftOf indent next) || atDocumentMark next
      || nextIs (· = '#') next then
    some ⟨[], next, crossed⟩
  else
    match hword : plainWord inFlow (gs.dropWhile fun g => isGap g.char) with
    | none => none
    | some ([], _) => some ⟨[], next, crossed⟩
    | some (word, after) =>
      have : after.length < gs.length :=
        Nat.lt_of_le_of_lt (length_rest_plainWord hword)
          (length_dropWhile_lt (Bool.eq_false_iff.2 hgap))
      (plainTail inFlow indent after).map fun tail =>
        { tail with text := folded (chars gap) ++ word ++ tail.text }
termination_by gs.length

/-- A plain scalar. -/
def plainScalar (inFlow : Bool) (indent : Nat) (gs : List Glyph) : Option PlainScalar := do
  let (word, after) ← plainWord inFlow gs
  let tail ← plainTail inFlow indent after
  return { tail with text := word ++ tail.text }

end Webcomic.Yaml
