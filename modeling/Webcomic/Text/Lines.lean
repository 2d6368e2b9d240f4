/-!
# Lines

Cutting a text after every newline. The newline stays with the line it ends, and only the last
line can lack one, so the lines in order are the text again. The bytes of a file are cut in the
same way before they are read as text, which gives the same lines: no other character has a
newline among its bytes.
-/

namespace Webcomic.Text

variable {α : Type} [DecidableEq α]

/-- The parts of a list, each ending in `stop`, and a last one without it if any elements are
left. -/
def splitAfter (stop : α) : List α → List (List α)
  | [] => []
  | a :: as =>
    if a = stop then
      [a] :: splitAfter stop as
    else
      match splitAfter stop as with
      | [] => [[a]]
      | part :: parts => (a :: part) :: parts

@[simp] theorem splitAfter_nil (stop : α) : splitAfter stop [] = [] := rfl

theorem splitAfter_stop (stop : α) (as : List α) :
    splitAfter stop (stop :: as) = [stop] :: splitAfter stop as := by
  simp [splitAfter]

/-- **Nothing is lost**: the parts in order are the list. -/
theorem flatten_splitAfter (stop : α) (as : List α) : (splitAfter stop as).flatten = as := by
  induction as with
  | nil => rfl
  | cons a as ih =>
    by_cases h : a = stop
    · simp [splitAfter, h, ih]
    · cases hs : splitAfter stop as with
      | nil => simp_all [splitAfter]
      | cons part parts => simp_all [splitAfter]

/-- The lines of a text, each with its newline. A text that ends in a newline has no empty line
after it, and the empty text has no line at all. -/
def lines (s : String) : List String :=
  (splitAfter '\n' s.toList).map String.ofList

@[simp] theorem lines_empty : lines "" = [] := rfl

/-- The lines of a file, each with its newline byte, before they are read as text. -/
def rawLines (content : ByteArray) : List ByteArray :=
  (splitAfter 10 content.data.toList).map fun bytes => ⟨bytes.toArray⟩

end Webcomic.Text
