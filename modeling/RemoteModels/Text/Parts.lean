/-!
# Parts of a text

A text is cut at every character of a kind.  There is always one part more than there are cuts, and
parts may be empty.
-/

set_option autoImplicit false

namespace RemoteModels
namespace Text

/-- The parts of a text between the characters that cut it. -/
def parts (cuts : Char → Bool) : List Char → List (List Char)
  | [] => [[]]
  | c :: rest =>
    match parts cuts rest with
    | [] => [[c]]
    | part :: more => if cuts c then [] :: part :: more else (c :: part) :: more

/-- There is at least one part. -/
theorem parts_ne_nil (cuts : Char → Bool) (cs : List Char) : parts cuts cs ≠ [] := by
  cases cs with
  | nil => simp [parts]
  | cons c rest =>
    rw [parts]
    split
    · simp
    · split <;> simp

end Text
end RemoteModels
