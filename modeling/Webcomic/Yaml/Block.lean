import Webcomic.Yaml.Flow

/-!
# Block scalars

Scalars that are written as indented lines under a header. The header says whether line ends are
kept (literal) or folded, what becomes of the line ends after the last line, and by how much the
lines are indented; without that the first line that is not empty decides.
-/

namespace Webcomic.Yaml

/-- What becomes of the line ends after the last line of a block scalar. -/
inductive Chomping where
  | strip
  /-- One is kept. -/
  | clip
  | keep
deriving DecidableEq, Repr

/-- The rest of the line that a block scalar starts on. -/
structure BlockHeader where
  chomping : Chomping
  /-- The indentation of the lines, relative to the collection that holds the scalar. -/
  increment : Option Nat
deriving DecidableEq, Repr

/-- The chomping that an indicator asks for. -/
def chomping? (c : Char) : Option Chomping :=
  if c = '+' then some .keep else if c = '-' then some .strip else none

/-- A header after its style indicator: chomping and indentation in either order. -/
def blockHeader (gs : List Glyph) : Option (BlockHeader × List Glyph) :=
  let chompingAt (gs : List Glyph) : Chomping × List Glyph :=
    match gs with
    | [] => (.clip, [])
    | g :: rest =>
      match chomping? g.char with
      | some chomping => (chomping, rest)
      | none => (.clip, g :: rest)
  let incrementAt (gs : List Glyph) : Option (Option Nat × List Glyph) :=
    match gs with
    | [] => some (none, [])
    | g :: rest =>
      if g.char = '0' then none
      else if g.char.isDigit then some (some (g.char.toNat - '0'.toNat), rest)
      else some (none, g :: rest)
  if nextIs (fun c => (chomping? c).isSome) gs then do
    let (chomping, gs) := chompingAt gs
    let (increment, gs) ← incrementAt gs
    return (⟨chomping, increment⟩, gs)
  else do
    let (increment, gs) ← incrementAt gs
    let (chomping, gs) := if increment.isSome then chompingAt gs else (.clip, gs)
    return (⟨chomping, increment⟩, gs)

/-! ## Lines -/

/-- The text after spaces up to the column `indent`, or after all spaces if it is not known. -/
def skipIndent (indent : Option Nat) : List Glyph → List Glyph
  | [] => []
  | g :: rest =>
    if g.char = ' ' && indent.all (g.spot.column < ·) then skipIndent indent rest else g :: rest

theorem length_skipIndent_le (indent : Option Nat) (gs : List Glyph) :
    (skipIndent indent gs).length ≤ gs.length := by
  induction gs with
  | nil => exact Nat.le_refl _
  | cons g rest ih =>
    unfold skipIndent
    split
    · exact Nat.le_succ_of_le ih
    · exact Nat.le_refl _

/-- The empty lines before a line with text. -/
structure EmptyLines where
  breaks : List Char
  rest : List Glyph
  /-- The greatest column that the spaces of any of them, or of the line with text, reach. -/
  reach : Nat

/-- The empty lines at this place. A tab cannot stand in the indentation. -/
def emptyLines (indent : Option Nat) (gs : List Glyph) : Option EmptyLines :=
  match h : skipIndent indent gs with
  | [] => some ⟨[], [], 0⟩
  | g :: rest =>
    if g.char = '\t' && indent.all (g.spot.column < ·) then
      none
    else if isBreak g.char then
      have : rest.length < gs.length := by
        have := length_skipIndent_le indent gs
        rw [h, List.length_cons] at this
        omega
      (emptyLines indent rest).map fun more =>
        ⟨g.char :: more.breaks, more.rest, max g.spot.column more.reach⟩
    else
      some ⟨[], g :: rest, g.spot.column⟩
termination_by gs.length

theorem length_rest_emptyLines {indent : Option Nat} {gs : List Glyph} {lines : EmptyLines}
    (h : emptyLines indent gs = some lines) : lines.rest.length ≤ gs.length := by
  fun_induction emptyLines indent gs generalizing lines with
  | case1 => cases h; simp
  | case2 => cases h
  | case3 gs g rest hskip _ _ hlt ih =>
    obtain ⟨more, hmore, rfl⟩ := Option.map_eq_some_iff.1 h
    have := ih hmore
    simp only
    omega
  | case4 gs g rest hskip _ _ =>
    cases h
    have := length_skipIndent_le indent gs
    rwa [hskip] at this

/-- A text with its lines joined, and the line ends after it. -/
structure BlockText where
  text : List Char
  /-- The end of the last line. -/
  lastBreak : List Char
  /-- The empty lines after it. -/
  breaks : List Char
  rest : List Glyph

/-- What stands between two lines. Only a folded scalar joins lines, and it keeps the line ends
around lines that start with a space. -/
def lineJoint (literal : Bool) (lastBreak breaks : List Char) (spacesAround : Bool) : List Char :=
  if !literal && lastBreak = ['\n'] && !spacesAround then
    if breaks.isEmpty then [' '] else breaks
  else
    lastBreak ++ breaks

/-- The lines of a block scalar, which stand at the column `indent`. `before` holds the lines up to
here, of which the last started with a space if `spaced`. -/
def blockLines (literal : Bool) (indent : Nat) (spaced : Bool) (before : BlockText) :
    Option BlockText :=
  match hrest : before.rest with
  | [] => some before
  | g :: rest =>
    if g.spot.column ≠ indent then
      some before
    else
      let line := g.char :: chars (rest.takeWhile fun g => !isBreak g.char)
      let joint := lineJoint literal before.lastBreak before.breaks (spaced || isSpace g.char)
      let after := rest.dropWhile fun g => !isBreak g.char
      match hlines : emptyLines (some indent) (rest.dropWhile fun g => !isBreak g.char).tail with
      | none => none
      | some lines =>
        have : lines.rest.length < before.rest.length := by
          have h1 := length_rest_emptyLines hlines
          have h2 := length_dropWhile_le (fun g => !isBreak g.char) rest
          rw [List.length_tail] at h1
          rw [hrest, List.length_cons]
          omega
        blockLines literal indent (isSpace g.char)
          ⟨before.text ++ joint ++ line, chars (after.take 1), lines.breaks, lines.rest⟩
termination_by before.rest.length

/-- The text with the line ends after it that the chomping keeps. -/
def BlockText.chomped (b : BlockText) : Chomping → List Char
  | .strip => b.text
  | .clip => b.text ++ b.lastBreak
  | .keep => b.text ++ b.lastBreak ++ b.breaks

/-- A block scalar after its style indicator. Its lines are indented to the column `margin` at
least, which is one past the indentation of the collection that holds it. -/
def blockScalar (literal : Bool) (margin : Nat) (gs : List Glyph) :
    Option (List Char × List Glyph) := do
  let (header, gs) ← blockHeader gs
  let gs := skipToLineEnd gs
  if !atLineEnd gs then
    none
  else
    let indent := header.increment.map (margin - 1 + ·)
    let lines ← emptyLines indent gs.tail
    let indent := indent.getD (max lines.reach (max margin 1))
    let block ← blockLines literal indent false ⟨[], [], lines.breaks, lines.rest⟩
    return (block.chomped header.chomping, block.rest)

end Webcomic.Yaml
