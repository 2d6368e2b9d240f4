/-!
# Tokens

What a text in YAML is made of: the scalars and their properties as they are written, and the
marks of structure, among them those that indentation stands for.
-/

namespace Webcomic.Yaml

/-- How a scalar is written. -/
inductive Style where
  | plain
  | singleQuoted
  | doubleQuoted
  | literal
  | folded
deriving DecidableEq, Repr

/-- A piece of a text. -/
inductive Token where
  /-- A directive that states the version of the language. -/
  | version (major minor : Nat)
  /-- A directive that lets a handle of tags stand for the start of their names. -/
  | tagHandle (handle start : String)
  | documentStart
  | documentEnd
  | textEnd
  | blockSequenceStart
  | blockMappingStart
  /-- The end of a collection that is held together by its indentation. -/
  | blockEnd
  | flowSequenceStart
  | flowSequenceEnd
  | flowMappingStart
  | flowMappingEnd
  | blockEntry
  | flowEntry
  | key
  | value
  | alias (name : String)
  | anchor (name : String)
  /-- A tag: a handle, empty for a tag that is written in full, and the rest of its name. -/
  | tag (handle rest : String)
  | scalar (style : Style) (text : String)
deriving DecidableEq, Repr

end Webcomic.Yaml
