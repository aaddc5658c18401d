/-!
# YAML tokens

The tokens of a text. Block structure is explicit: the scanner turns indentation into
starts and ends, and a key is announced by a token of its own, which is known to be needed
only when the colon after it turns up.
-/

namespace HostPruning.Yaml

/-- How a scalar is written. -/
inductive Style where
  | plain
  | singleQuoted
  | doubleQuoted
  | literal
  | folded
deriving DecidableEq

/-- A token. -/
inductive Token where
  | versionDirective (major minor : Nat)
  | tagDirective (handle front : String)
  | documentStart
  | documentEnd
  | blockSequenceStart
  | blockMappingStart
  | blockEnd
  | flowSequenceStart
  | flowSequenceEnd
  | flowMappingStart
  | flowMappingEnd
  | blockEntry
  | flowEntry
  | key
  | value
  | anchor (name : String)
  | reference (name : String)
  | tag (handle rest : String)
  | scalar (style : Style) (text : String)
deriving DecidableEq

end HostPruning.Yaml
