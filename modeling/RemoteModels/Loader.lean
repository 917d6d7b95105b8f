import RemoteModels.Log
import RemoteModels.Registry
import RemoteModels.Transport

/-!
# Loaders

A loader knows the path at which a server keeps its specification, and reads what comes back.

The format is told by the type of the answer, or else by the path.
-/

set_option autoImplicit false

namespace RemoteModels

/-- The path of the specification on a server. -/
structure Loader where
  path : String
deriving DecidableEq

namespace Loader

/-- The path that is used when none is given. -/
def defaultPath : String := "/configuration/models/models.yaml"

def default : Loader := ⟨defaultPath⟩

/-- A path of its own, with a slash in front. -/
def ofPath (path : String) : Loader :=
  ⟨if path.toList.head? = some '/' then path else "/" ++ path⟩

/-- The request for the specification. -/
def request (l : Loader) : Request := .text l.path

/-- The specification in an answer, with what is reported. -/
def read (l : Loader) (answer : TextAnswer) : Except LoadError Specification × List LogEntry :=
  match answer with
  | .error e => (.error (.fetch e), [])
  | .ok response =>
    let format := Format.negotiate response.contentType l.path
    let result := match Specification.parse format response.body with
      | .ok s => .ok s
      | .error e => .error (.parse e)
    (result, [⟨.debug, .loader, "specification " ++ l.path ++ " read as " ++ format.name, []⟩])

/-- The registry of the specification in an answer, with what is reported. -/
def build (l : Loader) (answer : TextAnswer) : Except LoadError Registry × List LogEntry :=
  match l.read answer with
  | (.error e, logs) => (.error e, logs)
  | (.ok s, logs) =>
    match Registry.ofSpecification s with
    | .error e => (.error (.parse e), logs)
    | .ok (r, more) => (.ok r, logs ++ more)

end Loader
end RemoteModels
