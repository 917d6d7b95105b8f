import RemoteModels.Json.Value

/-!
# The text of JSON values

Texts are put together as lists of characters, which the proofs about reading them back take apart
again.

* `Json.quote` — a string between quotes; only quotes, backslashes and control characters below a
  space are escaped.
* `Json.Value.compact` — no blanks at all.
* `Json.Value.pretty` — one item a line, two spaces a level, `{}` and `[]` when empty.
-/

set_option autoImplicit false

namespace RemoteModels
namespace Json

/-! ## Strings

A character is escaped by a letter where there is one for it, and else by its number. -/

/-- The two lower-case hexadecimal digits of a number below 256. -/
def hexPair (n : Nat) : List Char := [Nat.digitChar (n / 16), Nat.digitChar (n % 16)]

/-- One character as it stands between quotes. -/
def escapeChar (c : Char) : List Char :=
  if c = '"' then ['\\', '"']
  else if c = '\\' then ['\\', '\\']
  else if c = '\n' then ['\\', 'n']
  else if c = '\r' then ['\\', 'r']
  else if c = '\t' then ['\\', 't']
  else if c.toNat = 8 then ['\\', 'b']
  else if c.toNat = 12 then ['\\', 'f']
  else if c.toNat < 32 then '\\' :: 'u' :: '0' :: '0' :: hexPair c.toNat
  else [c]

def escape (cs : List Char) : List Char := cs.flatMap escapeChar

/-- The characters of a quoted string. -/
def quoted (s : String) : List Char := '"' :: escape s.toList ++ ['"']

def quote (s : String) : String := String.ofList (quoted s)

/-! ## Compact text

The first item stands behind the bracket and each further one behind a comma. -/

namespace Value

mutual

/-- The characters of the compact text. -/
def chars : Value → List Char
  | .null => "null".toList
  | .bool true => "true".toList
  | .bool false => "false".toList
  | .number n => n.text.toList
  | .string s => quoted s
  | .array [] => ['[', ']']
  | .array (v :: rest) => '[' :: chars v ++ itemChars rest ++ [']']
  | .object [] => ['\x7b', '\x7d']
  | .object ((k, v) :: rest) =>
    '\x7b' :: quoted k ++ ':' :: chars v ++ memberChars rest ++ ['\x7d']

/-- Further items, each after a comma. -/
def itemChars : List Value → List Char
  | [] => []
  | v :: rest => ',' :: chars v ++ itemChars rest

/-- Further members, each after a comma. -/
def memberChars : List (String × Value) → List Char
  | [] => []
  | (k, v) :: rest => ',' :: quoted k ++ ':' :: chars v ++ memberChars rest

end

/-- The text without blanks. -/
def compact (v : Value) : String := String.ofList v.chars

/-! ## Indented text

The same with line breaks.  An empty container has none inside. -/

/-- A line break and the indentation of a level. -/
def newline (level : Nat) : List Char := '\n' :: List.replicate (2 * level) ' '

mutual

/-- The characters of the indented text; `level` is that of the line the value starts on. -/
def prettyChars (level : Nat) : Value → List Char
  | .array [] => ['[', ']']
  | .array (v :: rest) =>
    '[' :: newline (level + 1) ++ prettyChars (level + 1) v ++ prettyItems level rest ++
      newline level ++ [']']
  | .object [] => ['\x7b', '\x7d']
  | .object ((k, v) :: rest) =>
    '\x7b' :: newline (level + 1) ++ quoted k ++ ':' :: ' ' :: prettyChars (level + 1) v ++
      prettyMembers level rest ++ newline level ++ ['\x7d']
  | .null => "null".toList
  | .bool true => "true".toList
  | .bool false => "false".toList
  | .number n => n.text.toList
  | .string s => quoted s

/-- Further items, each on a line of its own. -/
def prettyItems (level : Nat) : List Value → List Char
  | [] => []
  | v :: rest => ',' :: newline (level + 1) ++ prettyChars (level + 1) v ++ prettyItems level rest

/-- Further members, each on a line of its own. -/
def prettyMembers (level : Nat) : List (String × Value) → List Char
  | [] => []
  | (k, v) :: rest =>
    ',' :: newline (level + 1) ++ quoted k ++ ':' :: ' ' :: prettyChars (level + 1) v ++
      prettyMembers level rest

end

/-- The text with one item a line. -/
def pretty (v : Value) : String := String.ofList (v.prettyChars 0)

/-- A string as it is, any other value as compact text. -/
def plainText : Value → String
  | .string s => s
  | v => v.compact

end Value
end Json
end RemoteModels
