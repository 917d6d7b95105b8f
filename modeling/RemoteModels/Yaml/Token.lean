/-!
# YAML tokens

A stream of tokens says where collections, keys and values begin and end; indentation and the
look-ahead for keys have been resolved in it.
-/

set_option autoImplicit false

namespace RemoteModels
namespace Yaml

/-- Only a plain scalar is open to interpretation as a number, truth value or null. -/
inductive Style where
  | plain
  | quoted
deriving DecidableEq

/-- What a text is cut into. -/
inductive Token where
  | streamEnd
  | version (major minor : Nat)
  | tagHandle (handle lead : String)
  | documentStart
  | documentEnd
  | blockSequenceStart
  | blockMappingStart
  | blockEnd
  | flowSequenceStart
  | flowSequenceEnd
  | flowMappingStart
  | flowMappingEnd
  | blockEntry
  | flowEntry
  | key
  | value
  | alias (name : String)
  | anchor (name : String)
  | tag (handle suffix : String)
  | scalar (text : String) (style : Style)
deriving DecidableEq

end Yaml
end RemoteModels
