import Webcomic.Yaml.Document
import Webcomic.Yaml.Value

/-!
# Reading records from documents

What is read from a document can fail to fit it, and the document can break off. The nodes are
looked at in the order of the text, so whichever comes first is reported. A misfit is reported with
its place, which is given by the keys on the way to it; some are reported with the place of the
mapping around it.
-/

namespace Webcomic.Yaml

/-! ## What can be wrong -/

/-- How a document does not fit what is read from it. -/
inductive Misfit where
  | unknownField (name : String) (known : List String)
  | duplicateField (name : String)
  | unknownVariant (name : String) (known : List String)
  | invalidType (found : Value) (expected : String)
  | invalidValue (found : Value) (expected : String)
deriving DecidableEq, Repr

/-- What is wrong with a document. -/
inductive Problem where
  /-- The text makes no sense at some place, or goes on after the document. -/
  | malformed
  | misfit (place : List String) (m : Misfit)
deriving DecidableEq, Repr

/-- A name as messages show it. -/
def marked (name : String) : String :=
  "`" ++ name ++ "`"

/-- The names that could stand somewhere. -/
def alternatives : List String → String
  | [a] => marked a
  | [a, b] => marked a ++ " or " ++ marked b
  | names => "one of " ++ ", ".intercalate (names.map marked)

/-- The text a misfit is reported by, without its place. -/
def Misfit.message : Misfit → String
  | .unknownField name known =>
    "unknown field " ++ marked name ++ ", expected " ++ alternatives known
  | .duplicateField name => "duplicate field " ++ marked name
  | .unknownVariant name known =>
    "unknown variant " ++ marked name ++ ", expected " ++ alternatives known
  | .invalidType found expected => "invalid type: " ++ found.message ++ ", expected " ++ expected
  | .invalidValue found expected => "invalid value: " ++ found.message ++ ", expected " ++ expected

/-- The text a problem is reported by. -/
def Problem.message : Problem → String
  | .malformed => "the text is malformed"
  | .misfit [] m => m.message
  | .misfit place m => ".".intercalate place ++ ": " ++ m.message

/-! ## Readers -/

/-- Reads a value from a node of a document at a place. -/
abbrev Reader (α : Type) := Document → List String → Node → Except Problem α

namespace Reader

variable {α : Type}

/-- Reports a misfit. -/
def refuse (place : List String) (m : Misfit) : Except Problem α :=
  .error (.misfit place m)

/-- Reports a scalar of the wrong kind. -/
def refuseScalar (place : List String) (tag : Option String) (style : Style) (s : String)
    (expected : String) : Except Problem α :=
  match scalarValue tag style s with
  | .ok found => refuse place (.invalidType found expected)
  | .error demanded => refuse place (.invalidValue (.text s) demanded)

/-- The text of a scalar of any kind. -/
def text (expected : String) : Reader String := fun d place node =>
  match d.resolve node with
  | .scalar _ _ s => .ok s
  | .sequence _ _ => refuse place (.invalidType .sequence expected)
  | .mapping _ _ => refuse place (.invalidType .mapping expected)
  | _ => .error .malformed

/-- Whether a plain scalar without a tag stands for nothing. -/
def isNothing (s : String) : Bool :=
  s.isEmpty || isNull s

/-- A value, or nothing. -/
def optional (reader : Reader α) : Reader (Option α) := fun d place node =>
  match d.resolve node with
  | .scalar p .plain s =>
    if p.tag = some nullTag then
      if isNull s then .ok none else refuse place.dropLast (.invalidValue (.text s) "null")
    else if p.tag = none ∧ isNothing s then
      .ok none
    else
      (reader d place node).map some
  | _ => (reader d place node).map some

/-- The whole numbers of 64 bits. -/
def fits64 (n : Int) : Bool :=
  -0x8000000000000000 ≤ n && n < 0x8000000000000000

/-- A whole number of 32 bits. It is read from a plain scalar, whatever its tag, and from a literal
one with the tag of whole numbers. -/
def int32 : Reader Int32 := fun d place node =>
  let expected := "i32"
  match d.resolve node with
  | .scalar p style s =>
    let isWritten := style = .plain || (style = .literal && p.tag = some integerTag)
    match if isWritten then (integer? s).filter fits64 else none with
    | none => refuseScalar place p.tag style s expected
    | some n =>
      if -0x80000000 ≤ n ∧ n < 0x80000000 then .ok (Int32.ofInt n)
      else refuse place (.invalidValue (.integer n) expected)
  | .sequence _ _ => refuse place (.invalidType .sequence expected)
  | .mapping _ _ => refuse place (.invalidType .mapping expected)
  | _ => .error .malformed

/-- The name that a tag of a text's own gives. -/
def tagName? (tag : Option String) : Option String :=
  tag.bind fun tag =>
    match tag.toList with
    | ['!'] => some tag
    | '!' :: name => some (String.ofList name)
    | _ => none

/-- What follows a tag that names a variant: nothing. -/
def nothing (place : List String) : Node → Except Problem Unit
  | .scalar _ style s =>
    if style = .plain ∧ isNothing s then .ok ()
    else refuse place (.invalidValue (.text s) "null")
  | .sequence _ _ => refuse place (.invalidType .sequence "unit")
  | .mapping _ _ => refuse place (.invalidType .mapping "unit")
  | _ => .error .malformed

/-- One of some named values. The name is the text of a scalar, or a tag before nothing. -/
def variant (variants : List (String × α)) : Reader α := fun d place node =>
  let node := d.resolve node
  let known := variants.map Prod.fst
  let tagExpected := "a YAML tag starting with '!'"
  match tagName? node.properties.tag with
  | some name =>
    match variants.lookup name with
    | none => refuse place.dropLast (.unknownVariant name known)
    | some a => (nothing place node).map fun _ => a
  | none =>
    match node with
    | .scalar _ _ s =>
      match variants.lookup s with
      | none => refuse place (.unknownVariant s known)
      | some a => .ok a
    | .sequence _ _ => refuse place (.invalidType .sequence tagExpected)
    | .mapping _ _ => refuse place (.invalidType .mapping tagExpected)
    | _ => .error .malformed

end Reader

/-! ## Records -/

/-- A field of a record: its key, and how its value is read into the record. -/
structure RecordField (C : Type) where
  name : String
  read : Document → List String → Node → C → Except Problem C

/-- A field with its reader and the way it is set. -/
def RecordField.of {C α : Type} (name : String) (reader : Reader α) (set : α → C → C) :
    RecordField C where
  name
  read d place node c := (reader d place node).map (set · c)

namespace Reader

variable {C : Type}

/-- How a key is called in a place. -/
def keyName (key : Node) (name : String) : String :=
  match key with
  | .alias _ => "?"
  | _ => name

/-- A record with the values of the entries of a mapping. Each key is the name of a field, and no
name comes twice. -/
def entries (fields : List (RecordField C)) (d : Document) (place : List String) :
    List (Node × Node) → List String → C → Except Problem C
  | [], _, c => .ok c
  | (key, value) :: rest, seen, c =>
    match text "field identifier" d place key with
    | .error problem => .error problem
    | .ok name =>
      match fields.find? (·.name = name) with
      | none => refuse place (.unknownField name (fields.map RecordField.name))
      | some field =>
        if name ∈ seen then
          refuse place (.duplicateField name)
        else
          match field.read d (place ++ [keyName key name]) value c with
          | .error problem => .error problem
          | .ok c => entries fields d place rest (name :: seen) c

/-- A record, with the default in every field that the mapping leaves out. A plain scalar without
text leaves all of them out. -/
def record (expected : String) (fields : List (RecordField C)) (default : C) : Reader C :=
  fun d place node =>
    match d.resolve node with
    | .mapping _ es => entries fields d place es [] default
    | .scalar p style s =>
      if style = .plain ∧ s.isEmpty then .ok default
      else refuseScalar place p.tag style s expected
    | .sequence _ _ => refuse place (.invalidType .sequence expected)
    | _ => .error .malformed

end Reader

/-- What a reader makes of a text that is one document. -/
def read {α : Type} (reader : Reader α) (text : String) : Except Problem α :=
  let d := Document.ofText text
  match reader d [] d.root with
  | .error problem => .error problem
  | .ok a => if d.complete then .ok a else .error .malformed

end Webcomic.Yaml
