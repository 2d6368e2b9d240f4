import Webcomic.Keyed
import Webcomic.Template.Handler
import Webcomic.Template.Name

/-!
# Registries

A registry maps tags to their handlers and owns the memory that the handlers share. Tags are told
apart by their canonical names only, so spellings that differ in case or in stray underscores
reach one handler. A tag without a handler is put back into the page, or reported in its place,
as the policy of the registry says.
-/

namespace Webcomic

/-- What a marker without a handler leaves on the page: its name and its parameters, without the
delimiters. A marker without a name is left as it is written. -/
def Marker.echo (m : Marker) : String :=
  match m.name with
  | none => if m.text.isEmpty then "UNMATCHED NULLTAG!" else m.text
  | some name =>
    match m.params with
    | none => name
    | some params => name ++ " " ++ params

namespace Template

/-- What becomes of a marker whose tag has no handler. -/
inductive UnknownTagPolicy where
  /-- Its name and parameters are put back. -/
  | echo
  /-- An error that names the missing handler takes its place. -/
  | report
deriving DecidableEq, Repr

/-- The text of an error that says nothing more. -/
def invalidTag : String := "ERROR: Invalid tag!"

/-- The report on a tag without a handler. -/
def noHandler (canonical : String) : String :=
  s!"ERROR: Invalid tag! No handler named {canonical}."

/-- The handlers of a site, each under its canonical name, and what they remember. -/
structure Registry (M : Type) where
  policy : UnknownTagPolicy
  handlers : List (String × Handler M)
  distinct : (handlers.map Prod.fst).Nodup
  memory : M
  /-- The last report on a tag without a handler. -/
  notice : String

namespace Registry

variable {M : Type}

/-- A registry without a handler. -/
def new (policy : UnknownTagPolicy) (memory : M) : Registry M :=
  ⟨policy, [], by simp, memory, invalidTag⟩

/-- The handler of a tag. -/
def handler? (r : Registry M) (tag : String) : Option (Handler M) :=
  Keyed.get? (canonicalName tag) r.handlers

/-- Whether a tag has a handler. -/
def hasHandler (r : Registry M) (tag : String) : Bool :=
  (r.handler? tag).isSome

/-- The canonical names of the tags that have handlers. -/
def names (r : Registry M) : List String :=
  r.handlers.map Prod.fst

/-- The number of tags that have handlers. -/
def size (r : Registry M) : Nat :=
  r.handlers.length

/-- Whether no tag has a handler. -/
def isEmpty (r : Registry M) : Bool :=
  r.handlers.isEmpty

/-- The registry with a handler for a tag, in place of the one that the tag had. -/
def register (r : Registry M) (tag : String) (handler : Handler M) : Registry M :=
  { r with
    handlers := Keyed.put (canonicalName tag) handler r.handlers
    distinct := Keyed.nodup_keys_put r.distinct
    memory := handler.start r.memory }

/-- The registry with the handlers of a table, and their number. A row without a handler changes
nothing. -/
def registerAll (r : Registry M) : List (Entry M) → Registry M × Nat
  | [] => (r, 0)
  | entry :: rest =>
    match entry.handler with
    | .error _ => r.registerAll rest
    | .ok handler =>
      let (r', n) := (r.register entry.name handler).registerAll rest
      (r', n + 1)

/-- The registry at the start of a comic day. -/
def resetForDay (r : Registry M) : Registry M :=
  { r with memory := r.handlers.foldl (fun m (_, h) => h.resetForDay m) r.memory }

/-- The registry at the start of a page. -/
def resetForPage (r : Registry M) : Registry M :=
  { r with memory := r.handlers.foldl (fun m (_, h) => h.resetForPage m) r.memory }

end Registry

end Template

end Webcomic
