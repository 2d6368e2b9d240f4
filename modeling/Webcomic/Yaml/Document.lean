import Webcomic.Keyed
import Webcomic.Yaml.Lexer
import Webcomic.Yaml.Node

/-!
# Documents

A document is a tree of nodes, described by a text that holds nothing else. Tokens are put together
from left to right: the next token alone decides what a node is, and what stands where no node is
written is an empty scalar. Where no token fits, the tree is broken off.
-/

namespace Webcomic.Yaml

/-- A tree, and whether the text makes sense after it and holds nothing else. -/
structure Document where
  root : Node
  complete : Bool

/-- The tokens that have not been used, and the numbers of the anchors so far. Once the tokens have
run out or do not fit, none are left. -/
structure Assembly where
  tokens : List Token
  anchors : List (String × Nat)

/-- A step of putting tokens together. -/
abbrev Assemble := StateM Assembly

namespace Assemble

/-- The next token. -/
def peek : Assemble (Option Token) := do
  return (← get).tokens.head?

/-- Passes a token. -/
def drop : Assemble Unit :=
  modify fun a => { a with tokens := a.tokens.tail }

/-- Breaks the tree off here. -/
def breakOff : Assemble Node := do
  modify fun a => { a with tokens := [] }
  return .broken

/-- The number of a new anchor: there are as many names before it. -/
def number : Option String → Assemble (Option Nat)
  | none => return none
  | some name => do
    let n := (← get).anchors.length
    modify fun a => { a with anchors := Keyed.put name n a.anchors }
    return some n

/-! ## Properties -/

/-- The handles that every text can use, with the starts of names they stand for. -/
def commonHandles : List (String × String) :=
  [("!", "!"), ("!!", "tag:yaml.org,2002:")]

/-- The tag with a handle, in full. -/
def fullTag? (handles : List (String × String)) (handle rest : String) : Option String :=
  if handle.isEmpty then some rest else (handles.lookup handle).map (· ++ rest)

/-- The anchor and the tag before a node, in either order, each with what it says. -/
def writtenProperties : Assemble (Option String × Option (String × String)) := do
  match (← get).tokens with
  | .anchor name :: .tag handle rest :: tokens => do
    modify fun a => { a with tokens }
    return (some name, some (handle, rest))
  | .tag handle rest :: .anchor name :: tokens => do
    modify fun a => { a with tokens }
    return (some name, some (handle, rest))
  | .anchor name :: tokens => do
    modify fun a => { a with tokens }
    return (some name, none)
  | .tag handle rest :: tokens => do
    modify fun a => { a with tokens }
    return (none, some (handle, rest))
  | _ => return (none, none)

/-! ## Nodes -/

mutual

/-- A node. In a flow collection only flow collections can be inside it; `level` says that the
items of a sequence can stand at the column of the key before it. -/
def node (handles : List (String × String)) (block level : Bool) : Nat → Assemble Node
  | 0 => breakOff
  | fuel + 1 => do
    if let some (.alias name) ← peek then
      drop
      match Keyed.get? name (← get).anchors with
      | some anchor => return .alias anchor
      | none => breakOff
    else
      let (anchor, written) ← writtenProperties
      let tag := written.bind fun (handle, rest) => fullTag? handles handle rest
      let next ← peek
      if next.isNone || (written.isSome && tag.isNone) then
        breakOff
      else
        match next with
        | some (.scalar style text) =>
          drop
          let tag := if tag = some "!" then none else tag
          return .scalar ⟨← number anchor, tag⟩ style text
        | some .blockEntry =>
          if level then
            return .sequence ⟨← number anchor, tag⟩ (← levelItems handles fuel)
          else
            bare anchor tag
        | some .flowSequenceStart =>
          drop
          return .sequence ⟨← number anchor, tag⟩ (← flowItems handles true fuel)
        | some .flowMappingStart =>
          drop
          return .mapping ⟨← number anchor, tag⟩ (← flowEntries handles true fuel)
        | some .blockSequenceStart =>
          if block then
            drop
            return .sequence ⟨← number anchor, tag⟩ (← blockItems handles fuel)
          else
            bare anchor tag
        | some .blockMappingStart =>
          if block then
            drop
            return .mapping ⟨← number anchor, tag⟩ (← blockEntries handles fuel)
          else
            bare anchor tag
        | _ => bare anchor tag
where
  /-- A node that has nothing but properties. -/
  bare (anchor tag : Option String) : Assemble Node := do
    if anchor.isSome || tag.isSome then
      return .scalar ⟨← number anchor, tag⟩ .plain ""
    else
      breakOff

/-- A node, or an empty one if one of the tokens `stops` comes first. -/
def nodeUnless (handles : List (String × String)) (block level : Bool) (stops : List Token) :
    Nat → Assemble Node
  | 0 => breakOff
  | fuel + 1 => do
    match ← peek with
    | none => breakOff
    | some t => if t ∈ stops then return .empty else node handles block level fuel

/-- The value of a key, if its mark follows. -/
def valueUnless (handles : List (String × String)) (block : Bool) (stops : List Token) :
    Nat → Assemble Node
  | 0 => breakOff
  | fuel + 1 => do
    match ← peek with
    | none => breakOff
    | some .value => drop; nodeUnless handles block block stops fuel
    | some _ => return .empty

/-- The items of a sequence with an indentation of its own. -/
def blockItems (handles : List (String × String)) : Nat → Assemble (List Node)
  | 0 => return [← breakOff]
  | fuel + 1 => do
    match ← peek with
    | some .blockEntry =>
      drop
      let item ← nodeUnless handles true false [.blockEntry, .blockEnd] fuel
      return item :: (← blockItems handles fuel)
    | some .blockEnd => drop; return []
    | _ => return [← breakOff]

/-- The items of a sequence at the column of its key. -/
def levelItems (handles : List (String × String)) : Nat → Assemble (List Node)
  | 0 => return [← breakOff]
  | fuel + 1 => do
    match ← peek with
    | some .blockEntry =>
      drop
      let item ← nodeUnless handles true false [.blockEntry, .key, .value, .blockEnd] fuel
      return item :: (← levelItems handles fuel)
    | some _ => return []
    | none => return [← breakOff]

/-- The entries of a mapping that indentation holds together. -/
def blockEntries (handles : List (String × String)) : Nat → Assemble (List (Node × Node))
  | 0 => return [(← breakOff, .broken)]
  | fuel + 1 => do
    match ← peek with
    | some .key =>
      drop
      let key ← nodeUnless handles true true [.key, .value, .blockEnd] fuel
      let value ← valueUnless handles true [.key, .value, .blockEnd] fuel
      return (key, value) :: (← blockEntries handles fuel)
    | some .blockEnd => drop; return []
    | _ => return [(← breakOff, .broken)]

/-- The items of a flow sequence, which a comma separates from those before them. -/
def flowItems (handles : List (String × String)) (first : Bool) : Nat → Assemble (List Node)
  | 0 => return [← breakOff]
  | fuel + 1 => do
    let next ← peek
    if next = some .flowSequenceEnd then
      drop
      return []
    else if !first && next ≠ some .flowEntry then
      return [← breakOff]
    else
      if !first then drop
      match ← peek with
      | some .flowSequenceEnd => drop; return []
      | some .key =>
        drop
        let item ← pair handles fuel
        return item :: (← flowItems handles false fuel)
      | _ =>
        let item ← node handles false false fuel
        return item :: (← flowItems handles false fuel)

/-- A mapping of one key, as an item of a flow sequence. Where no key is written, the token after
its mark is passed too. -/
def pair (handles : List (String × String)) : Nat → Assemble Node
  | 0 => breakOff
  | fuel + 1 => do
    let stops := [Token.value, .flowEntry, .flowSequenceEnd]
    let next ← peek
    let key ← nodeUnless handles false false stops fuel
    if next.any (· ∈ stops) then drop
    let value ← valueUnless handles false [.flowEntry, .flowSequenceEnd] fuel
    return .mapping .none [(key, value)]

/-- The entries of a flow mapping, which a comma separates from those before them. A node without
the mark of a key is a key without a value. -/
def flowEntries (handles : List (String × String)) (first : Bool) :
    Nat → Assemble (List (Node × Node))
  | 0 => return [(← breakOff, .broken)]
  | fuel + 1 => do
    let next ← peek
    if next = some .flowMappingEnd then
      drop
      return []
    else if !first && next ≠ some .flowEntry then
      return [(← breakOff, .broken)]
    else
      if !first then drop
      match ← peek with
      | some .flowMappingEnd => drop; return []
      | some .key =>
        drop
        let key ← nodeUnless handles false false [.value, .flowEntry, .flowMappingEnd] fuel
        let value ← valueUnless handles false [.flowEntry, .flowMappingEnd] fuel
        return (key, value) :: (← flowEntries handles false fuel)
      | _ =>
        let key ← node handles false false fuel
        let value ← match ← peek with
          | none => breakOff
          | some _ => pure Node.empty
        return (key, value) :: (← flowEntries handles false fuel)

end

end Assemble

/-! ## The whole text -/

/-- The handles that the directives of a document declare, and the tokens after them. A version is
stated once at most, and is one of the two that there are. -/
def directives (versioned : Bool) (handles : List (String × String)) :
    List Token → Option (List (String × String) × List Token)
  | .version major minor :: tokens =>
    if versioned || major ≠ 1 || !(minor = 1 || minor = 2) then none
    else directives true handles tokens
  | .tagHandle handle start :: tokens =>
    if (handles.lookup handle).isSome then none
    else directives versioned (handles ++ [(handle, start)]) tokens
  | tokens => some (handles, tokens)

/-- Whether tokens hold nothing but the end of the document and of the text. -/
def endsText : List Token → Bool
  | .documentEnd :: tokens => endsText tokens
  | [.textEnd] => true
  | _ => false

namespace Document

/-- The document with this root, from the tokens `tokens`. Each of them is the start of one node at
most, which bounds the nesting. -/
def assemble (handles : List (String × String)) (tokens : List Token) : Document :=
  let fuel := 4 * tokens.length + 4
  let handles := handles ++ Assemble.commonHandles
  let (root, rest) := (Assemble.node handles true false fuel).run ⟨tokens, []⟩
  ⟨root, endsText rest.tokens⟩

/-- A document without content. -/
def blank (tokens : List Token) : Document :=
  ⟨.empty, endsText tokens⟩

/-- A document that makes no sense from its start. -/
def broken : Document := ⟨.broken, false⟩

/-- The document that opens after its directives, with the mark for that. -/
def afterMark (handles : List (String × String)) : List Token → Document
  | .documentStart :: tokens =>
    match tokens with
    | .version _ _ :: _ | .tagHandle _ _ :: _ | .documentStart :: _ | .documentEnd :: _
    | .textEnd :: _ => blank tokens
    | _ => assemble handles tokens
  | _ => broken

/-- The document of a text. -/
def ofTokens (tokens : List Token) : Document :=
  match tokens with
  | [.textEnd] => blank tokens
  | .version _ _ :: _ | .tagHandle _ _ :: _ | .documentStart :: _ =>
    match directives false [] tokens with
    | none => broken
    | some (handles, tokens) => afterMark handles tokens
  | _ => assemble [] tokens

/-- The document of a text. -/
def ofText (text : String) : Document :=
  ofTokens (tokensOf text)

/-- The node that a node stands for. -/
def resolve (d : Document) (n : Node) : Node :=
  d.root.target n

end Document

end Webcomic.Yaml
