import RemoteModels.Toml.Document

/-!
# Configurations

A configuration names the servers a user talks to, each in a context, and the context in use.

The order of contexts is kept, and names are meant to be distinct, though a text may repeat one; a
look-up by name then finds the first context that has it.

* `Context`, `Config` — contexts, and the configuration that holds them.
* `Config.create`, `Config.set`, `Config.delete`, `Config.use` — the changes a user can make.
* `Config.text`, `Config.parse` — the configuration as a TOML text.
-/

set_option autoImplicit false

namespace RemoteModels

/-- One server to talk to.  What is not set is empty. -/
structure Context where
  name : String
  server : String := ""
  token : String := ""
  specPath : String := ""
deriving DecidableEq

/-- All contexts, and the name of the one in use, empty if there is none. -/
structure Config where
  current : String := ""
  contexts : List Context := []
deriving DecidableEq

instance : Inhabited Config := ⟨{}⟩

/-- Properties to be set on a context. -/
structure ContextProps where
  server : Option String := none
  token : Option String := none
  specPath : Option String := none
deriving DecidableEq

/-- What is not given stays as it was. -/
def ContextProps.apply (p : ContextProps) (c : Context) : Context :=
  { c with
    server := p.server.getD c.server
    token := p.token.getD c.token
    specPath := p.specPath.getD c.specPath }

/-- Why a configuration cannot be changed, or has no server to talk to. -/
inductive ConfigError where
  | emptyName
  | alreadyExists (name : String)
  | notFound (name : String)
  | notFoundToUse (name : String)
  | noCurrent
  | noServer (name : String)
deriving DecidableEq

def ConfigError.message : ConfigError → String
  | .emptyName => "Context name cannot be empty."
  | .alreadyExists name =>
    "Context \"" ++ name ++ "\" already exists. Use `modelgate context set`."
  | .notFound name => "Context \"" ++ name ++ "\" not found."
  | .notFoundToUse name =>
    "Context \"" ++ name ++
      "\" not found. Run `modelgate context list` to see available contexts."
  | .noCurrent =>
    "No current context. Run `modelgate context create <name> --server <url>`."
  | .noServer name =>
    "No server URL set for context \"" ++ name ++ "\". Run `modelgate context set " ++ name ++
      " --server <url>`."

namespace Config

def find? (c : Config) (name : String) : Option Context := c.contexts.find? (·.name = name)

def contains (c : Config) (name : String) : Bool := c.contexts.any (·.name = name)

/-! ## Changes

A change is refused if the name it is about is taken or missing, and a refused change leaves no
trace. -/

/-- Adds a context; the first one is in use at once. -/
def create (c : Config) (name : String) (props : ContextProps) : Except ConfigError Config :=
  if name = "" then .error .emptyName
  else if c.contains name then .error (.alreadyExists name)
  else
    .ok
      { current := if c.current = "" then name else c.current
        contexts := c.contexts ++ [props.apply { name := name }] }

/-- Changes the first context with a name. -/
def modifyFirst (name : String) (f : Context → Context) : List Context → List Context
  | [] => []
  | x :: rest => if x.name = name then f x :: rest else x :: modifyFirst name f rest

/-- Sets properties of a context. -/
def set (c : Config) (name : String) (props : ContextProps) : Except ConfigError Config :=
  if c.contains name then .ok { c with contexts := modifyFirst name props.apply c.contexts }
  else .error (.notFound name)

/-- Removes a context; if it was in use, none is in use any more. -/
def delete (c : Config) (name : String) : Except ConfigError Config :=
  if c.contains name then
    .ok
      { current := if c.current = name then "" else c.current
        contexts := c.contexts.filter (·.name ≠ name) }
  else .error (.notFound name)

/-- Takes a context into use. -/
def use (c : Config) (name : String) : Except ConfigError Config :=
  if c.contains name then .ok { c with current := name } else .error (.notFoundToUse name)

/-- The context in use, with its server. -/
def require (c : Config) : Except ConfigError Context :=
  match c.find? c.current with
  | none => .error .noCurrent
  | some x => if x.server = "" then .error (.noServer x.name) else .ok x

/-! ## Writing

A property that is empty is not written. -/

def pairText (key value : String) : String := key ++ " = " ++ Toml.textOf value ++ "\n"

/-- A line for a property that is set. -/
def propertyText (key value : String) : String := if value = "" then "" else pairText key value

def contextText (x : Context) : String :=
  "\n[[contexts]]\n" ++ pairText "name" x.name ++ propertyText "server" x.server ++
    propertyText "token" x.token ++ propertyText "spec-path" x.specPath

/-- The configuration as a TOML text. -/
def text (c : Config) : String :=
  pairText "current-context" c.current ++
    (if c.contexts.isEmpty then "contexts = []\n" else String.join (c.contexts.map contextText))

/-! ## Reading

A context may be written as a table or, in short, as a list of its properties.  What is not written
is empty, and what has the wrong type is refused. -/

/-- A string, or the given text if there is none. -/
def stringOr (d : String) : Option Toml.Value → Option String
  | none => some d
  | some (.string s) => some s
  | some _ => none

/-- A context from a table with its properties, or from a list of them in order. -/
def contextOf : Toml.Value → Option Context
  | .table m => do
    let name ← match Members.get? m "name" with
      | some (.string s) => some s
      | _ => none
    return {
      name := name
      server := ← stringOr "" (Members.get? m "server")
      token := ← stringOr "" (Members.get? m "token")
      specPath := ← stringOr "" (Members.get? m "spec-path") }
  | .array (.string name :: rest) => do
    return {
      name := name
      server := ← stringOr "" rest[0]?
      token := ← stringOr "" rest[1]?
      specPath := ← stringOr "" rest[2]? }
  | _ => none

/-- The contexts in their order; none where there is no such member. -/
def contextsOf : Option Toml.Value → Option (List Context)
  | none => some []
  | some (.array items) => items.mapM contextOf
  | some _ => none

/-- The configuration of a TOML text. -/
def parse (text : String) : Option Config := do
  let m ← Toml.parse text
  return {
    current := ← stringOr "" (Members.get? m "current-context")
    contexts := ← contextsOf (Members.get? m "contexts") }

end Config
end RemoteModels
