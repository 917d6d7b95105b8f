import RemoteModels.Json.Value
import RemoteModels.Specification.Error

/-!
# Requests, answers and what can go wrong with them

A client asks its server for JSON, posts JSON to it, or asks for a text.

* `Request`, `Answer`, `TextAnswer` — what is sent and what comes back.
* `TransportError`, `LoadError`, `RequestError`, `FieldError` — the causes of failure, with their
  wording.
-/

set_option autoImplicit false

namespace RemoteModels

open Json (Value)

/-! ## Requests

A request names a path on the server and, if it is a post, what is sent there. -/

/-- What a client asks of its server. -/
inductive Request where
  | get (path : String)
  | post (path : String) (body : Value)
  | text (path : String)

/-- A text with its content type. -/
structure TextResponse where
  contentType : Option String
  body : String
deriving DecidableEq

/-! ## Failures

A request may fail on its way, at the server, or in the reading of its answer.  Those who sent it
wrap the failure in one of their own, which says what it was sent for. -/

/-- A request that never reached a server, or got no answer. -/
inductive NetworkFault where
  | builder (url : Option String)
  | sending (url : String)
deriving DecidableEq

def NetworkFault.message : NetworkFault → String
  | .builder none => "builder error"
  | .builder (some url) => "builder error for url (" ++ url ++ ")"
  | .sending url => "error sending request for url (" ++ url ++ ")"

/-- Why there is no answer, or none that can be used. -/
inductive TransportError where
  | server (status : Nat) (body : String)
  | network (fault : NetworkFault)
  | decode (text : String)
deriving DecidableEq

def TransportError.message : TransportError → String
  | .server status body => "HTTP " ++ toString status ++ ": " ++ body
  | .network fault => "network: " ++ fault.message
  | .decode text => "decode: " ++ text

/-- What comes back for a request for JSON or a post. -/
abbrev Answer := Except TransportError Value

/-- What comes back for a request for a text. -/
abbrev TextAnswer := Except TransportError TextResponse

/-- Why a specification could not be had from a server. -/
inductive LoadError where
  | fetch (e : TransportError)
  | parse (e : SpecificationError)
deriving DecidableEq

def LoadError.message : LoadError → String
  | .fetch e => "fetch specification: " ++ e.message
  | .parse e => "parse specification: " ++ e.message

/-- Why a request about a record failed. -/
inductive RequestError where
  | transport (e : TransportError)
  | decode (text : String)
  | missingId
  | destroyed
  | alreadyCreated (id : String)
deriving DecidableEq

def RequestError.message : RequestError → String
  | .transport e => e.message
  | .decode text => "decode: " ++ text
  | .missingId => "instance has no id yet"
  | .destroyed => "instance was deleted"
  | .alreadyCreated id => "instance " ++ id ++ " already exists on the server"

/-- A field that the model does not declare. -/
structure FieldError where
  model : String
  field : String
deriving DecidableEq

def FieldError.message (e : FieldError) : String := e.model ++ " has no field '" ++ e.field ++ "'"

end RemoteModels
