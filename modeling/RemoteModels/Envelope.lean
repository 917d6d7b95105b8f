import RemoteModels.Instance

/-!
# Envelopes

Changes are all sent as posts.  The envelope around a change names the record and the kind of
change, and carries the declared fields as JSON text.

The payload is a text and not an object, so an envelope says nothing about the fields in it.
-/

set_option autoImplicit false

namespace RemoteModels

open Json (Value)

/-- The kind of change. -/
inductive Verb where
  | put
  | post
  | delete
deriving DecidableEq

namespace Verb

/-- The verb as it is sent. -/
def wire : Verb → String
  | .put => "put"
  | .post => "post"
  | .delete => "delete"

/-- The verb as it is reported. -/
def name : Verb → String
  | .put => "Put"
  | .post => "Post"
  | .delete => "Delete"

/-- The verb with this text, if there is one. -/
def ofWire? (s : String) : Option Verb := [Verb.put, .post, .delete].find? (·.wire = s)

end Verb

/-- What is sent for a change. -/
structure Envelope where
  instid : Option String
  verb : Verb
  payload : String
deriving DecidableEq

namespace Envelope

/-- The envelope of a change to an instance. -/
def ofInstance (verb : Verb) (i : Instance) : Envelope :=
  ⟨i.id, verb, (Value.object i.toDict).compact⟩

/-- The JSON object that is sent. -/
def toValue (e : Envelope) : Value :=
  .object
    [("instid", match e.instid with
      | some id => .string id
      | none => .null),
     ("method", .string e.verb.wire),
     ("payload", .string e.payload)]

end Envelope
end RemoteModels
