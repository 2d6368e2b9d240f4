import Webcomic.Marker.Choice
import Webcomic.Text.Blank

/-!
# Finding markers

A marker is a name between two delimiters of three stars, with parameters after the name if a
blank separates them:

    ***   name   parameters   ***

Blanks just inside the delimiters belong to neither, and both the name and the parameters can be
missing. Stars are ordinary characters of a name or of parameters too, so what a marker is depends
on the order in which its parts are tried: the name is as short as it can be, a name with
parameters is preferred to one without, and the parameters are as short as they can be.

`Line.ofChars` cuts a text into its markers and the stretches between them. Nothing is lost: the
stretches and the texts of the markers in order are the text.
-/

namespace Webcomic

open Text

/-- A marker as a page holds it. -/
structure Marker where
  /-- The whole marker, delimiters included. -/
  text : String
  name : Option String
  /-- What follows the name, without the blanks around it. -/
  params : Option String
deriving DecidableEq, Repr

namespace Marker

/-- The parts of a marker at the head of a text, and the text after it. -/
structure Found where
  name : Option (List Char)
  params : Option (List Char)
  rest : List Char
deriving DecidableEq, Repr

/-- The text after a delimiter. -/
def afterDelimiter? : List Char → Option (List Char)
  | '*' :: '*' :: '*' :: cs => some cs
  | _ => none

/-- The text after a closing delimiter and the blanks before it. -/
def afterClosing? (cs : List Char) : Option (List Char) :=
  longestRun isBlank afterDelimiter? cs

/-- Parameters up to a closing delimiter. They stay on one line. -/
def paramsAt? (name : List Char) (cs : List Char) : Option Found :=
  shortestRun (· != '\n')
    (fun params rest => (afterClosing? rest).map (⟨some name, some params.reverse, ·⟩)) [] cs

/-- Blanks, at least one, and parameters after them. -/
def blanksAndParamsAt? (name : List Char) : List Char → Option Found
  | [] => none
  | c :: cs => if isBlank c then longestRun isBlank (paramsAt? name) cs else none

/-- A name up to a closing delimiter, with parameters if it can have them. -/
def nameAt? (cs : List Char) : Option Found :=
  shortestRun (fun c => !isBlank c)
    (fun name rest =>
      (blanksAndParamsAt? name.reverse rest).or
        ((afterClosing? rest).map (⟨some name.reverse, none, ·⟩)))
    [] cs

/-- What follows an opening delimiter. -/
def bodyAt? (cs : List Char) : Option Found :=
  longestRun isBlank
    (fun cs => (nameAt? cs).or ((afterClosing? cs).map (⟨none, none, ·⟩))) cs

/-- The marker at the head of a text, if one starts there. -/
def at? (cs : List Char) : Option Found :=
  (afterDelimiter? cs).bind bodyAt?

/-! ## A marker is shorter than the text it heads -/

theorem length_afterDelimiter? {cs rest : List Char} (h : afterDelimiter? cs = some rest) :
    rest.length < cs.length := by
  unfold afterDelimiter? at h
  split at h
  · cases h; simp only [List.length_cons]; omega
  · cases h

theorem length_afterClosing? {cs rest : List Char} (h : afterClosing? cs = some rest) :
    rest.length < cs.length := by
  obtain ⟨run, tail, rfl, -, h⟩ := exists_of_longestRun h
  have := length_afterDelimiter? h
  simp only [List.length_append]
  omega

theorem length_rest_paramsAt? {name cs : List Char} {f : Found} (h : paramsAt? name cs = some f) :
    f.rest.length < cs.length := by
  obtain ⟨run, tail, -, rfl, -, h⟩ := exists_of_shortestRun h
  obtain ⟨rest, hrest, rfl⟩ := Option.map_eq_some_iff.1 h
  have := length_afterClosing? hrest
  simp only [List.length_append]
  omega

theorem length_rest_blanksAndParamsAt? {name cs : List Char} {f : Found}
    (h : blanksAndParamsAt? name cs = some f) : f.rest.length < cs.length := by
  cases cs with
  | nil => cases h
  | cons c cs =>
    simp only [blanksAndParamsAt?, Option.ite_none_right_eq_some] at h
    obtain ⟨run, tail, rfl, -, h⟩ := exists_of_longestRun h.2
    have := length_rest_paramsAt? h
    simp only [List.length_cons, List.length_append]
    omega

theorem length_rest_nameAt? {cs : List Char} {f : Found} (h : nameAt? cs = some f) :
    f.rest.length < cs.length := by
  obtain ⟨run, tail, -, rfl, -, h⟩ := exists_of_shortestRun h
  simp only [List.length_append]
  rcases Option.or_eq_some_iff.1 h with h | ⟨-, h⟩
  · have := length_rest_blanksAndParamsAt? h
    omega
  · obtain ⟨rest, hrest, rfl⟩ := Option.map_eq_some_iff.1 h
    have := length_afterClosing? hrest
    simp only
    omega

theorem length_rest_bodyAt? {cs : List Char} {f : Found} (h : bodyAt? cs = some f) :
    f.rest.length < cs.length := by
  obtain ⟨run, tail, rfl, -, h⟩ := exists_of_longestRun h
  simp only [List.length_append]
  rcases Option.or_eq_some_iff.1 h with h | ⟨-, h⟩
  · have := length_rest_nameAt? h
    omega
  · obtain ⟨rest, hrest, rfl⟩ := Option.map_eq_some_iff.1 h
    have := length_afterClosing? hrest
    simp only
    omega

theorem length_rest_at? {cs : List Char} {f : Found} (h : at? cs = some f) :
    f.rest.length < cs.length := by
  obtain ⟨body, hbody, h⟩ := Option.bind_eq_some_iff.1 h
  have := length_afterDelimiter? hbody
  have := length_rest_bodyAt? h
  omega

/-! ## The markers of a text -/

/-- The first marker of a text, after the stretch without one. -/
def next? : List Char → Option (List Char × Found)
  | [] => none
  | c :: cs =>
    match at? (c :: cs) with
    | some found => some ([], found)
    | none => (next? cs).map fun (gap, found) => (c :: gap, found)

theorem length_rest_next? {cs gap : List Char} {f : Found} (h : next? cs = some (gap, f)) :
    gap.length + f.rest.length < cs.length := by
  induction cs generalizing gap with
  | nil => cases h
  | cons c cs ih =>
    unfold next? at h
    split at h
    next heq =>
      cases h
      simpa using length_rest_at? heq
    next =>
      obtain ⟨⟨gap', f'⟩, h', heq⟩ := Option.map_eq_some_iff.1 h
      cases heq
      have := ih h'
      simp only [List.length_cons]
      omega

/-- The marker that was found at the head of `cs`. -/
def ofFound (cs : List Char) (found : Found) : Marker where
  text := String.ofList (cs.take (cs.length - found.rest.length))
  name := found.name.map String.ofList
  params := found.params.map String.ofList

end Marker

/-- A text cut at its markers: each with the stretch before it, and the stretch after the last. -/
structure Line where
  cuts : List (String × Marker)
  tail : String
deriving DecidableEq, Repr

namespace Line

/-- A text cut at its markers, from left to right; a marker is looked for after the end of the one
before it. -/
def ofChars (cs : List Char) : Line :=
  match h : Marker.next? cs with
  | none => ⟨[], String.ofList cs⟩
  | some (gap, found) =>
    have := Marker.length_rest_next? h
    let line := ofChars found.rest
    ⟨(String.ofList gap, .ofFound (cs.drop gap.length) found) :: line.cuts, line.tail⟩
termination_by cs.length
decreasing_by omega

/-- A text cut at its markers. -/
def ofText (s : String) : Line :=
  ofChars s.toList

/-- Each marker of the line with the number of bytes before it. -/
def offsets (line : Line) : List (Nat × Marker) :=
  go 0 line.cuts
where
  /-- The offsets of the remaining cuts, the first of which starts at byte `start`. -/
  go (start : Nat) : List (String × Marker) → List (Nat × Marker)
    | [] => []
    | (gap, marker) :: cuts =>
      let here := start + gap.utf8ByteSize
      (here, marker) :: go (here + marker.text.utf8ByteSize) cuts

end Line

end Webcomic
