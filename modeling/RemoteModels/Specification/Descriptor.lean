import RemoteModels.Json.Printer
import RemoteModels.Specification.Basic
import RemoteModels.Specification.Name

/-!
# Descriptors

The descriptor of a model is what its declaration says: its names, its parent, and its fields with
their types.  Members named `parent` or starting with a dot describe the model itself and are no
fields.

* `Descriptor.ofDeclaration` — the descriptor of one entry.
* `Specification.descriptors` — those of all entries; the first name that is not acceptable is the
  fault.
-/

set_option autoImplicit false

namespace RemoteModels

open Json (Value Object)

/-- A field and the text of its type. -/
structure Field where
  name : String
  type : String
deriving DecidableEq

/-- What is known of a model. -/
structure Descriptor where
  fullName : String
  localName : String
  parentName : String
  fields : List Field
deriving DecidableEq

/-- The parent of a model that has none. -/
def noParent : String := "none"

/-- The members that may name the parent, the preferred one first. -/
def parentKeys : List String := ["parent", ".parent"]

/-- The parent named by a declaration: the first of the two members that is there and not null. -/
def resolveParent (body : Object) : String :=
  match (parentKeys.filterMap body.get?).find? (fun v => !v.isNull) with
  | some v => v.plainText
  | none => noParent

/-- Whether a member describes the model itself. -/
def isMetadata (key : String) : Bool := key == "parent" || key.toList.head? == some '.'

namespace Descriptor

/-- The fields of a declaration in document order. -/
def fieldsOf (body : Object) : List Field :=
  (body.filter fun kv => !isMetadata kv.1).map fun kv => ⟨kv.1, kv.2.plainText⟩

/-- The descriptor of an entry, if its name is acceptable. -/
def ofDeclaration (fullName : String) (body : Object) : Except SpecificationError Descriptor := do
  let name ← RemoteModels.localName fullName
  return ⟨fullName, name, resolveParent body, fieldsOf body⟩

def fieldNames (d : Descriptor) : List String := d.fields.map (·.name)

def isRoot (d : Descriptor) : Bool := d.parentName == noParent

def declares (d : Descriptor) (field : String) : Bool := d.fieldNames.contains field

/-- The descriptors of entries in order. -/
def ofEntries : List (String × Object) → Except SpecificationError (List Descriptor)
  | [] => .ok []
  | (name, body) :: rest => do
    let d ← ofDeclaration name body
    let ds ← ofEntries rest
    return d :: ds

end Descriptor

/-- The descriptors of a specification. -/
def Specification.descriptors (s : Specification) : Except SpecificationError (List Descriptor) :=
  Descriptor.ofEntries s.entries

end RemoteModels
