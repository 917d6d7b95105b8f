import RemoteModels.Transport

/-!
# Scripted answers

A rehearsal needs no server: its requests are answered from a script, in order.  An answer behind a
gate arrives only once the gate has been opened, and behind the end of the script every request
fails.
-/

set_option autoImplicit false

namespace RemoteModels
namespace Rehearsal

/-- An answer, perhaps behind a gate. -/
structure Scripted (α : Type) where
  answer : Except TransportError α
  gate : Option String := none

/-- The answer to a request for JSON behind the end of the script. -/
def exhausted {α : Type} : Scripted α := { answer := .error (.decode "no scripted answer") }

/-- The answer to a request for a text behind the end of the script. -/
def exhaustedText {α : Type} : Scripted α := { answer := .error (.decode "no scripted text") }

/-- The next answer, and the rest of the script. -/
def next {α : Type} : List (Scripted α) → Scripted α × List (Scripted α)
  | [] => (exhausted, [])
  | a :: rest => (a, rest)

end Rehearsal
end RemoteModels
