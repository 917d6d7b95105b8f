/-!
# The format of a specification text

A specification is written in JSON or YAML.  The content type decides if it names one of them, else
the ending of the path.
-/

set_option autoImplicit false

namespace RemoteModels

/-- The two formats. -/
inductive Format where
  | yaml
  | json
deriving DecidableEq

namespace Format

def name : Format → String
  | .yaml => "Yaml"
  | .json => "Json"

/-- The characters with the letters from A to Z in lower case. -/
def lower (s : String) : List Char := s.toList.map Char.toLower

/-- Whether `word` occurs in a text. -/
def occurs (word : List Char) : List Char → Bool
  | [] => word.isEmpty
  | c :: rest => word.isPrefixOf (c :: rest) || occurs word rest

/-- JSON for a path that ends in `.json`, in any case, and YAML for every other one. -/
def ofPath (path : String) : Format :=
  if ".json".toList.isSuffixOf (lower path) then .json else .yaml

/-- The format of an answer with this content type at this path. -/
def negotiate (contentType : Option String) (path : String) : Format :=
  match contentType with
  | none => ofPath path
  | some ct =>
    if occurs "json".toList (lower ct) then .json
    else if occurs "yaml".toList (lower ct) then .yaml
    else ofPath path

end Format
end RemoteModels
