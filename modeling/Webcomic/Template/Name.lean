import Webcomic.Text.Case
import Webcomic.Text.Pieces

/-!
# Names of tags

A tag is written in words joined by underscores, in any case. Its handler is looked up under one
canonical name: every word capitalized, the words run together, and `Tag` at the end.
-/

namespace Webcomic.Template

open Text

/-- What every canonical name ends in. -/
def nameEnding : List Char := "Tag".toList

/-- The name under which the handler of a tag is kept. -/
def canonicalName (name : String) : String :=
  String.ofList ((((words '_' (toLower name.toList)).map capitalize).flatten) ++ nameEnding)

end Webcomic.Template
