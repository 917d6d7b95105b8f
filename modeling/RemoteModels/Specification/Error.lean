import RemoteModels.Json.Cursor

/-!
# What can be wrong with a specification

A text may be unreadable in its format, be of the wrong shape, or name a model that has no local
name.
-/

set_option autoImplicit false

namespace RemoteModels

/-- What is wrong with a specification. -/
inductive SpecificationError where
  | yaml
  | json (e : Json.Error)
  | notAMapping
  | entryNotAMapping (name : String)
  | emptyName
  | emptySegment (name : String)
deriving DecidableEq

/-- The wording of each cause; faults in YAML are not described further. -/
def SpecificationError.message : SpecificationError → String
  | .yaml => "yaml: "
  | .json e => "json: " ++ e.message
  | .notAMapping => "specification root must be a mapping of model names"
  | .entryNotAMapping name => "entry '" ++ name ++ "' must be a mapping of fields"
  | .emptyName => "model name must not be empty"
  | .emptySegment name => "model name '" ++ name ++ "' has an empty local segment"

end RemoteModels
