/-!
# Pieces between separators

Cutting a text at every occurrence of one character. There is always one piece more than there
are separators, so pieces can be empty.
-/

namespace Webcomic.Text

/-- The pieces of a text between the separators. -/
def pieces (separator : Char) : List Char → List (List Char)
  | [] => [[]]
  | c :: cs =>
    if c = separator then
      [] :: pieces separator cs
    else
      match pieces separator cs with
      | [] => [[c]]
      | piece :: rest => (c :: piece) :: rest

/-- The pieces that are not empty. -/
def words (separator : Char) (cs : List Char) : List (List Char) :=
  (pieces separator cs).filter (!·.isEmpty)

/-- Two texts joined by a separator fall apart into the pieces of both. -/
theorem pieces_append_separator (separator : Char) (a b : List Char) :
    pieces separator (a ++ separator :: b) = pieces separator a ++ pieces separator b := by
  induction a with
  | nil => simp [pieces]
  | cons c a ih =>
    by_cases h : c = separator
    · simp [pieces, h, ih]
    · cases ha : pieces separator a with
      | nil => cases a <;> simp [pieces] at ha; split at ha <;> (try split at ha) <;> cases ha
      | cons piece rest => simp [pieces, h, ih, ha]

end Webcomic.Text
