/-!
# TOML values

A configuration needs strings, tables and arrays.  Numbers and moments are read as well, since a
document that has them is still to be read, but nothing is made of them.
-/

set_option autoImplicit false

namespace RemoteModels
namespace Toml

/-- A TOML value.  Floats and moments in time keep their text. -/
inductive Value where
  | string (s : String)
  | integer (n : Int)
  | float (text : String)
  | boolean (b : Bool)
  | moment (text : String)
  | array (items : List Value)
  | table (members : List (String × Value))

instance : Inhabited Value := ⟨.boolean false⟩

/-- A function that reads something from the front of a text and leaves the rest. -/
abbrev Reader (α : Type) := List Char → Option (α × List Char)

/-! ## Blanks, line ends and comments

Spaces and tabs may stand between the words of a line, and a comment goes up to the end of its
line. -/

def isSpace (c : Char) : Bool := c == ' ' || c == '\t'

/-- Characters that may stand in comments and plain strings: no controls but the tab. -/
def isPrintable (c : Char) : Bool := c == '\t' || (0x20 ≤ c.toNat && c.toNat != 0x7F)

def skipSpaces (cs : List Char) : List Char := cs.dropWhile isSpace

/-- Passes a line break. -/
def readNewline : List Char → Option (List Char)
  | '\n' :: rest => some rest
  | '\r' :: '\n' :: rest => some rest
  | _ => none

/-- Passes a comment, if there is one. -/
def skipComment : List Char → List Char
  | '#' :: rest => rest.dropWhile isPrintable
  | cs => cs

/-- Passes the end of a line: spaces, perhaps a comment, and a line break or the end of the text. -/
def readLineEnd (cs : List Char) : Option (List Char) :=
  match skipComment (skipSpaces cs) with
  | [] => some []
  | c :: rest => readNewline (c :: rest)

/-- Passes spaces, comments and line breaks. -/
def skipLines : Nat → List Char → List Char
  | 0, cs => cs
  | n + 1, cs =>
    let cs := skipSpaces cs
    match readNewline (skipComment cs) with
    | some rest => skipLines n rest
    | none => cs

end Toml
end RemoteModels
