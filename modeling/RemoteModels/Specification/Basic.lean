import RemoteModels.Json.Parser
import RemoteModels.Specification.Error
import RemoteModels.Specification.Format
import RemoteModels.Text.Blank
import RemoteModels.Yaml.Document

/-!
# Specifications

A specification declares models: a sequence of full names, each with the object of its fields, in
document order and each name once.

A declaration is kept as the object it is.  What it says about fields and parents is read later,
when descriptors are made of it.

* `Specification.ofValue` — the specification of a JSON value.
* `Specification.parse` — the specification of a text in either format.
* `Specification.merge` — a later specification written over an earlier one.
-/

set_option autoImplicit false

namespace RemoteModels

open Json (Value Object)

/-- Declarations under full names, each name once. -/
structure Specification where
  entries : Members Object
  distinct : entries.names.Nodup

namespace Specification

def empty : Specification := ⟨[], by simp [Members.names]⟩

instance : Inhabited Specification := ⟨empty⟩

def ofEntries (l : List (String × Object)) : Specification :=
  ⟨Members.ofList l, Members.nodup_names_ofList l⟩

def size (s : Specification) : Nat := s.entries.length

/-! ## Acceptance

What is accepted is decided by shape alone: an object of objects, with null for an empty one at both
levels. -/

/-- The declaration of one member: an object, or null for an empty one. -/
def declaration (name : String) : Value → Except SpecificationError Object
  | .null => .ok []
  | .object m => .ok m
  | _ => .error (.entryNotAMapping name)

/-- The declarations of all members; the first that is no mapping is the fault. -/
def declarations : List (String × Value) → Except SpecificationError (List (String × Object))
  | [] => .ok []
  | (name, body) :: rest => do
    let body ← declaration name body
    let rest ← declarations rest
    return (name, body) :: rest

/-- The specification of a value: null declares nothing, an object its members. -/
def ofValue : Value → Except SpecificationError Specification
  | .null => .ok empty
  | .object m => (declarations m).map ofEntries
  | _ => .error .notAMapping

/-! ## Reading

Both formats are read into the same kind of value, and accepted by the same rules. -/

def parseJson (text : String) : Except SpecificationError Specification :=
  match Json.parse text with
  | .ok v => ofValue v
  | .error e => .error (.json e)

/-- A text of white space alone declares nothing. -/
def parseYaml (text : String) : Except SpecificationError Specification :=
  if Text.isAllBlank text then .ok empty
  else
    match Yaml.parse text with
    | some v => ofValue v
    | none => .error .yaml

/-- The specification of a text. -/
def parse (format : Format) (text : String) : Except SpecificationError Specification :=
  match format with
  | .yaml => parseYaml text
  | .json => parseJson text

/-! ## Merging and comparing

An entry that is in both keeps its place and takes the later declaration as a whole. -/

/-- Writes the entries of `later` over those of `s`. -/
def merge (s later : Specification) : Specification :=
  ⟨s.entries.merge later.entries, Members.nodup_names_merge s.distinct later.entries⟩

/-- The object of all entries. -/
def toValue (s : Specification) : Value :=
  .object (s.entries.map fun e => (e.1, .object e.2))

/-- Equality up to the order of entries and fields. -/
def same (s t : Specification) : Bool := s.toValue.same t.toValue

end Specification
end RemoteModels
