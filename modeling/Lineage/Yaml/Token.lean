/-!
# Tokens of a document text

A document text is cut into tokens.  Besides the marks that are written, there
are tokens for what the layout implies: a block begins where a line is indented
more than the lines around it, and ends where the indentation falls back.  A
text that cannot be cut any further ends with a token that says so.
-/

namespace Lineage

namespace Yaml

/-- How a scalar is written. -/
inductive ScalarStyle where
  | plain
  | singleQuoted
  | doubleQuoted
  | literal
  | folded
  deriving DecidableEq, Repr

/-- A token of a document text. -/
inductive Token where
  | versionDirective (major minor : Nat)
  | tagDirective (handle expansion : String)
  | documentStart
  | documentEnd
  | blockSequenceStart
  | blockMappingStart
  | blockEnd
  | flowSequenceStart
  | flowSequenceEnd
  | flowMappingStart
  | flowMappingEnd
  | blockEntry
  | flowEntry
  | key
  | value
  | alias (name : String)
  | anchor (name : String)
  | tag (handle suffix : String)
  | scalar (style : ScalarStyle) (text : String)
  | streamEnd
  | malformed
  deriving DecidableEq, Repr

end Yaml

end Lineage
