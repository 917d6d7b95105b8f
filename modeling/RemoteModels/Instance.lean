import RemoteModels.Specification.Descriptor
import RemoteModels.Transport

/-!
# Instances

An instance is the client's copy of one record of a model: the values of its declared fields, its
identity on the server, and attributes of the client's own that are never sent.

* `Instance.fresh`, `Instance.ofRecord` — the two ways to get one.
* `Instance.set`, `Instance.setLocal`, `Instance.update` — changing it.
* `Instance.toDict` — the declared fields in declaration order.
-/

set_option autoImplicit false

namespace RemoteModels

open Json (Value Object)

/-- Whether a record exists on the server, as far as the client knows. -/
inductive State where
  | new
  | synced
  | destroyed
deriving DecidableEq

/-- The client's copy of a record. -/
structure Instance where
  descriptor : Descriptor
  id : Option String
  fields : Object
  locals : Object
  state : State
  /-- Whether a field was set since a record was last taken over. -/
  dirty : Bool
  /-- Whether a request for it is under way. -/
  pending : Bool

/-- The identity a record carries: a text that is not empty, or a number as its text. -/
def recordId (record : Object) : Option String :=
  match record.get? "id" with
  | some (.string s) => if s = "" then none else some s
  | some (.number n) => some n.text
  | _ => none

namespace Instance

/-! ## Making one

The fields of an instance are those of its descriptor from the beginning, so that setting one never
adds a field. -/

/-- An instance without identity whose fields are all null. -/
def fresh (d : Descriptor) : Instance :=
  { descriptor := d
    id := none
    fields := d.fieldNames.map fun name => (name, .null)
    locals := []
    state := .new
    dirty := false
    pending := false }

/-- Takes every declared field from a record; what the record lacks becomes null. -/
def update (i : Instance) (record : Object) : Instance :=
  { i with
    fields := i.descriptor.fieldNames.foldl
      (fun m name => m.put name ((record.get? name).getD .null)) i.fields
    dirty := false }

/-- The instance of a record from the server. -/
def ofRecord (d : Descriptor) (record : Value) : Except RequestError Instance :=
  match record.asObject? with
  | none =>
    .error (.decode (d.localName ++ " record must be an object, got " ++ record.compact))
  | some r =>
    let i := (fresh d).update r
    match recordId r with
    | some id => .ok { i with id := some id, state := .synced }
    | none => .ok i

/-! ## Reading and changing it

Changes are the client's own until they are sent. -/

def get? (i : Instance) (field : String) : Option Value := i.fields.get? field

/-- Sets a declared field. -/
def set (i : Instance) (field : String) (value : Value) : Except FieldError Instance :=
  match i.get? field with
  | some _ => .ok { i with fields := i.fields.put field value, dirty := true }
  | none => .error ⟨i.descriptor.localName, field⟩

def local? (i : Instance) (key : String) : Option Value := i.locals.get? key

/-- Sets an attribute of the client's own. -/
def setLocal (i : Instance) (key : String) (value : Value) : Instance :=
  { i with locals := i.locals.put key value }

/-- The declared fields in declaration order. -/
def toDict (i : Instance) : Object :=
  i.descriptor.fieldNames.map fun name => (name, (i.get? name).getD .null)

def isDestroyed (i : Instance) : Bool := i.state == .destroyed

/-! ## What an answered request does to it

A record that was created or changed is taken over as the server has it, whatever was set in the
meantime; of one that was deleted nothing is taken over. -/

/-- The record exists from now on, under this identity. -/
def markCreated (i : Instance) (id : String) (record : Object) : Instance :=
  { i.update record with id := some id, state := .synced }

/-- The record is as the server has it. -/
def markSynced (i : Instance) (record : Object) : Instance :=
  { i.update record with state := .synced }

/-- The record exists no more. -/
def markDestroyed (i : Instance) : Instance := { i with state := .destroyed }

end Instance
end RemoteModels
