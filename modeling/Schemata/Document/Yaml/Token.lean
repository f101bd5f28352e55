/-!
# YAML tokens
-/

namespace Schemata.Yaml

/-- How a scalar was written. -/
inductive Style where
  /-- Without quotes or indicators. -/
  | plain
  | quoted
  | literal
  | folded
  deriving DecidableEq, Repr

/-- A token. Tokens for the start and the end of block collections stand for no text of their own;
they follow from the indentation. -/
inductive Token where
  | version (major minor : Nat)
  /-- What a tag handle stands for. -/
  | tagHandle (handle lead : String)
  | documentStart
  | documentEnd
  | streamEnd
  | blockSequenceStart
  | blockMappingStart
  | blockEnd
  | flowSequenceStart
  | flowSequenceEnd
  | flowMappingStart
  | flowMappingEnd
  | blockEntry
  | flowEntry
  | key
  | value
  | anchor (name : String)
  | reference (name : String)
  /-- A tag; the handle is empty when the rest is the whole tag. -/
  | tag (handle rest : String)
  | scalar (text : String) (style : Style)
  deriving DecidableEq, Repr

end Schemata.Yaml
