import RemoteModels.Specification.Error

/-!
# Local model names

A full model name is a text of segments divided by dots.  The local name, under which the model is
known to its client, is the second segment, or the whole name when there is no dot.
-/

set_option autoImplicit false

namespace RemoteModels

/-- The segment in front of the first dot. -/
def firstSegment (cs : List Char) : List Char := cs.takeWhile (· ≠ '.')

/-- What follows the first dot, if there is one. -/
def afterFirstDot? (cs : List Char) : Option (List Char) :=
  match cs.dropWhile (· ≠ '.') with
  | [] => none
  | _ :: rest => some rest

/-- The local name of a full name; it is never empty. -/
def localName (fullName : String) : Except SpecificationError String :=
  let cs := fullName.toList
  if cs.isEmpty then .error .emptyName
  else
    let segment := match afterFirstDot? cs with
      | some rest => firstSegment rest
      | none => firstSegment cs
    if segment.isEmpty then .error (.emptySegment fullName) else .ok (String.ofList segment)

end RemoteModels
