import Webcomic.Yaml.Token

/-!
# Nodes

The tree that a text in YAML describes. Where the text stops making sense the tree has a `broken`
node, and nothing after it; so what is in front of such a place can still be read.

A node can have an anchor, and an alias elsewhere in the tree then stands for it. Anchors are
numbered, and the last node of a number is the one that aliases stand for.
-/

namespace Webcomic.Yaml

/-- What can be written before the content of a node. -/
structure Properties where
  /-- The number of the node's anchor. -/
  anchor : Option Nat
  /-- The node's tag in full. -/
  tag : Option String
deriving DecidableEq, Repr

/-- No properties. -/
def Properties.none : Properties := ⟨Option.none, Option.none⟩

/-- A node of the tree. -/
inductive Node where
  | scalar (properties : Properties) (style : Style) (text : String)
  | sequence (properties : Properties) (items : List Node)
  | mapping (properties : Properties) (entries : List (Node × Node))
  /-- Stands for the node with this anchor. -/
  | alias (anchor : Nat)
  /-- The text stops making sense. -/
  | broken

namespace Node

/-- What stands where nothing is written. -/
def empty : Node := .scalar .none .plain ""

/-- The properties of a node; an alias has none of its own. -/
def properties : Node → Properties
  | .scalar p _ _ => p
  | .sequence p _ => p
  | .mapping p _ => p
  | .alias _ => .none
  | .broken => .none

/-- A node and all nodes in it, in the order in which they start in the text. -/
def withInner : Node → List Node
  | .scalar p style text => [.scalar p style text]
  | .sequence p items =>
    .sequence p items :: items.attach.flatMap fun ⟨item, h⟩ =>
      have := List.sizeOf_lt_of_mem h
      item.withInner
  | .mapping p entries =>
    .mapping p entries :: entries.attach.flatMap fun ⟨(key, value), h⟩ =>
      have := List.sizeOf_lt_of_mem h
      key.withInner ++ value.withInner
  | .alias anchor => [.alias anchor]
  | .broken => [.broken]
termination_by n => sizeOf n
decreasing_by all_goals (simp_all; omega)

/-- The node that an alias stands for, in the tree with this root; every other node stands for
itself. -/
def target (root : Node) : Node → Node
  | .alias anchor =>
    ((root.withInner.filter fun n => n.properties.anchor = some anchor).getLast?).getD .broken
  | n => n

end Node

end Webcomic.Yaml
