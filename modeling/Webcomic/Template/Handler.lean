import Webcomic.Marker.Scan
import Webcomic.Template.Error
import Webcomic.Template.Session

/-!
# Handlers

A handler turns the markers of one tag into text. It can look at the session, turn it to another
comic day, have more text or a whole file expanded in the same session, and keep something in
memory from one marker to the next. What it does is a **script**: a tree of requests, each
continued by what the request is answered with. Since a script is data, what holds of every
handler is proved by induction on scripts.

The handlers of one registry share a memory `M`; a handler that needs a part of its own works on
one `Slot` of it.
-/

namespace Webcomic.Template

open Calendar Files

/-- A part of a memory: how to read it and how to replace it. -/
structure Slot (M A : Type) where
  get : M → A
  set : A → M → M

/-- The part of a memory that lies in a part of it. -/
def Slot.within {L M A : Type} (outer : Slot L M) (inner : Slot M A) : Slot L A where
  get l := inner.get (outer.get l)
  set a l := outer.set (inner.set a (outer.get l)) l

/-- What a handler can ask to have expanded in its session. -/
inductive Request where
  | text (text : String)
  | file (path : Path)
deriving DecidableEq, Repr

/-- What a handler does with one marker. -/
inductive Script (M : Type) where
  /-- The text that takes the place of the marker. -/
  | reply (text : String)
  | look (next : Session → Script M)
  /-- Asks whether a file is being expanded. -/
  | isOpen (path : Path) (next : Bool → Script M)
  /-- Turns the session to another comic day. -/
  | turnTo (date : Date) (next : Script M)
  | recollect (next : M → Script M)
  | remember (memory : M) (next : Script M)
  | expand (request : Request) (next : String → Script M)

/-- What turns the markers of one tag into text. The memory is changed in no other way than by its
scripts, by a new day and by a new page. -/
structure Handler (M : Type) where
  handle : Marker → Script M
  /-- Puts the part of the memory that the handler uses into its first state. -/
  start : M → M := id
  /-- Forgets what does not outlive a comic day. -/
  resetForDay : M → M := id
  /-- Forgets what does not outlive a page. -/
  resetForPage : M → M := id

/-- A row of a table of tags: a name, and the handler or why there is none. -/
structure Entry (M : Type) where
  name : String
  handler : Except Error (Handler M)

end Webcomic.Template
