import RemoteModels.Json.Value

/-!
# Reading positions and faults in JSON text

A position is a line, counted from one, and the number of bytes of that line already passed.  A
fault is reported where the reader stands once it has looked at the offending byte: the byte counts
as passed, and a line break puts the position at the start of the next line.

Characters are read one by one and bytes are counted, so a position is in bytes although no reader
ever sees one.

* `Json.Fault` — what can be wrong; `Json.Fault.message` its wording.
* `Json.Cursor` — the text still to be read and the position reached.
* `Json.Reader` — functions that read a value from a cursor or fail.
-/

set_option autoImplicit false

namespace RemoteModels
namespace Json

/-! ## Faults

Each fault has a fixed wording.  Where it was seen is said apart from it, and put behind it in the
message. -/

/-- What can be wrong with a text. -/
inductive Fault where
  | endInValue
  | endInObject
  | endInList
  | endInString
  | expectedValue
  | expectedIdent
  | expectedColon
  | expectedListEnd
  | expectedObjectEnd
  | keyNotString
  | trailingComma
  | trailingCharacters
  | invalidNumber
  | numberOutOfRange
  | invalidEscape
  | endOfHexEscape
  | loneSurrogate
  | controlCharacter
  | recursionLimit
deriving DecidableEq

def Fault.message : Fault → String
  | .endInValue => "EOF while parsing a value"
  | .endInObject => "EOF while parsing an object"
  | .endInList => "EOF while parsing a list"
  | .endInString => "EOF while parsing a string"
  | .expectedValue => "expected value"
  | .expectedIdent => "expected ident"
  | .expectedColon => "expected `:`"
  | .expectedListEnd => "expected `,` or `]`"
  | .expectedObjectEnd => "expected `,` or `\x7d`"
  | .keyNotString => "key must be a string"
  | .trailingComma => "trailing comma"
  | .trailingCharacters => "trailing characters"
  | .invalidNumber => "invalid number"
  | .numberOutOfRange => "number out of range"
  | .invalidEscape => "invalid escape"
  | .endOfHexEscape => "unexpected end of hex escape"
  | .loneSurrogate => "lone leading surrogate in hex escape"
  | .controlCharacter => "control character (\\u0000-\\u001F) found while parsing a string"
  | .recursionLimit => "recursion limit exceeded"

/-- A line, from one, and the bytes of it already passed. -/
structure Position where
  line : Nat
  column : Nat
deriving DecidableEq

namespace Position

/-- The position behind one byte of a character. -/
def pastByte (p : Position) (c : Char) : Position :=
  if c = '\n' then ⟨p.line + 1, 0⟩ else ⟨p.line, p.column + 1⟩

/-- The position behind a character. -/
def past (p : Position) (c : Char) : Position :=
  if c = '\n' then ⟨p.line + 1, 0⟩ else ⟨p.line, p.column + c.utf8Size⟩

/-- The position behind the first `n` bytes of a text, which may end inside a character. -/
def pastBytes : Nat → List Char → Position → Position
  | 0, _, p => p
  | _, [], p => p
  | n + 1, c :: rest, p =>
    if c.utf8Size ≤ n + 1 then pastBytes (n + 1 - c.utf8Size) rest (p.past c)
    else ⟨p.line, p.column + (n + 1)⟩
termination_by _ cs _ => cs.length

def text (p : Position) : String :=
  "at line " ++ toString p.line ++ " column " ++ toString p.column

end Position

/-- A fault and where it was seen. -/
structure Error where
  fault : Fault
  position : Position
deriving DecidableEq

/-- The wording of a fault, and where it was seen. -/
def Error.message (e : Error) : String := e.fault.message ++ " " ++ e.position.text

/-! ## Cursors

A cursor moves forward only.  Readers give back the cursor behind what they have read, and it is up
to their callers to go on from there. -/

/-- The text still to be read and the position reached. -/
structure Cursor where
  rest : List Char
  position : Position

namespace Cursor

def ofText (text : String) : Cursor := ⟨text.toList, ⟨1, 0⟩⟩

/-- The position at which the next byte has been looked at. -/
def seen (c : Cursor) : Position :=
  match c.rest with
  | [] => c.position
  | x :: _ => c.position.pastByte x

/-- The cursor behind the next character. -/
def skip (c : Cursor) : Cursor :=
  match c.rest with
  | [] => c
  | x :: rest => ⟨rest, c.position.past x⟩

/-- The cursor behind the next `n` characters. -/
def skipMany : Nat → Cursor → Cursor
  | 0, c => c
  | n + 1, c => skipMany n c.skip

/-- Space, tab, line feed and carriage return. -/
def isBlank (c : Char) : Bool := c == ' ' || c == '\n' || c == '\t' || c == '\r'

/-- The cursor at the next character that is not blank. -/
def skipBlanks (c : Cursor) : Cursor :=
  skipMany (c.rest.takeWhile isBlank).length c

/-- The leading digits, and the cursor behind them. -/
def takeDigits (c : Cursor) : List Char × Cursor :=
  let ds := c.rest.takeWhile Char.isDigit
  (ds, c.skipMany ds.length)

end Cursor

/-- A function that reads a value from a cursor and leaves the cursor behind it. -/
abbrev Reader (α : Type) := Cursor → Except Error (α × Cursor)

/-- Fails at the byte the cursor looks at. -/
def failSeen {α : Type} (c : Cursor) (fault : Fault) : Except Error α := .error ⟨fault, c.seen⟩

/-- Fails at the position reached. -/
def failHere {α : Type} (c : Cursor) (fault : Fault) : Except Error α := .error ⟨fault, c.position⟩

end Json
end RemoteModels
