import RemoteModels.Json.Numeral

/-!
# Reading JSON text

* `Json.readString` — a string behind its opening quote; escapes of surrogates come in pairs.
* `Json.readValue` — a value in which at most `depth` containers are nested.
* `Json.parse` — a whole text; at most 127 containers may be nested.

Every loop is bounded by the length of the text before it, which it always shortens.
-/

set_option autoImplicit false

namespace RemoteModels
namespace Json

/-! ## Strings

A piece is read at a time.  Characters beyond the basic plane are written by two escapes, and a half
of such a pair on its own is a fault. -/

/-- What a string is made of: a character or its closing quote. -/
inductive Piece where
  | char (c : Char)
  | close

def hexValue? (c : Char) : Option Nat :=
  if '0' ≤ c ∧ c ≤ '9' then some (c.toNat - '0'.toNat)
  else if 'a' ≤ c ∧ c ≤ 'f' then some (c.toNat - 'a'.toNat + 10)
  else if 'A' ≤ c ∧ c ≤ 'F' then some (c.toNat - 'A'.toNat + 10)
  else none

/-- The number written by four hexadecimal digits. -/
def hexUnit? (a b c d : Char) : Option Nat := do
  let a ← hexValue? a
  let b ← hexValue? b
  let c ← hexValue? c
  let d ← hexValue? d
  return ((a * 16 + b) * 16 + c) * 16 + d

def utf8Length (cs : List Char) : Nat := cs.foldr (fun c n => c.utf8Size + n) 0

/-- Reads four hexadecimal digits.  Four bytes are taken whatever they are. -/
def readHexUnit : Reader Nat := fun c =>
  let bad : Except Error (Nat × Cursor) :=
    if utf8Length c.rest < 4 then
      .error ⟨.endInString, (c.skipMany c.rest.length).position⟩
    else .error ⟨.invalidEscape, Position.pastBytes 4 c.rest c.position⟩
  match c.rest with
  | x :: y :: z :: w :: _ =>
    match hexUnit? x y z w with
    | some n => .ok (n, c.skipMany 4)
    | none => bad
  | _ => bad

def isHighSurrogate (n : Nat) : Bool := 0xD800 ≤ n && n ≤ 0xDBFF

def isLowSurrogate (n : Nat) : Bool := 0xDC00 ≤ n && n ≤ 0xDFFF

/-- Passes the expected character inside a pair of escapes. -/
def expectInPair (x : Char) (c : Cursor) : Except Error Cursor :=
  match c.rest with
  | [] => failHere c .endInString
  | y :: _ => if y = x then .ok c.skip else failSeen c .endOfHexEscape

/-- Reads what follows `\u`. -/
def readUnicodeEscape : Reader Char := fun c => do
  let (n, c) ← readHexUnit c
  if isLowSurrogate n then failHere c .loneSurrogate
  else if isHighSurrogate n then
    let c ← expectInPair '\\' c
    let c ← expectInPair 'u' c
    let (m, c) ← readHexUnit c
    if isLowSurrogate m then
      .ok (Char.ofNat ((n - 0xD800) * 0x400 + (m - 0xDC00) + 0x10000), c)
    else failHere c .loneSurrogate
  else .ok (Char.ofNat n, c)

/-- Reads what follows a backslash. -/
def readEscape : Reader Char := fun c =>
  match c.rest with
  | [] => failHere c .endInString
  | '"' :: _ => .ok ('"', c.skip)
  | '\\' :: _ => .ok ('\\', c.skip)
  | '/' :: _ => .ok ('/', c.skip)
  | 'b' :: _ => .ok ('\x08', c.skip)
  | 'f' :: _ => .ok ('\x0c', c.skip)
  | 'n' :: _ => .ok ('\n', c.skip)
  | 'r' :: _ => .ok ('\r', c.skip)
  | 't' :: _ => .ok ('\t', c.skip)
  | 'u' :: _ => readUnicodeEscape c.skip
  | _ => failSeen c .invalidEscape

/-- Reads the next character of a string, or its end. -/
def readPiece : Reader Piece := fun c =>
  match c.rest with
  | [] => failHere c .endInString
  | '"' :: _ => .ok (.close, c.skip)
  | '\\' :: _ => do
    let (x, c) ← readEscape c.skip
    .ok (.char x, c)
  | x :: _ => if x.toNat < 32 then failSeen c .controlCharacter else .ok (.char x, c.skip)

/-- Reads pieces up to the closing quote. -/
def readPieces : Nat → Reader (List Char)
  | 0, c => failHere c .endInString
  | n + 1, c => do
    let (piece, c) ← readPiece c
    match piece with
    | .close => .ok ([], c)
    | .char x =>
      let (rest, c) ← readPieces n c
      .ok (x :: rest, c)

/-- Reads a string behind its opening quote. -/
def readString : Reader String := fun c => do
  let (cs, c) ← readPieces (c.rest.length + 1) c
  .ok (String.ofList cs, c)

/-! ## Values

The reader of a container takes the reader of its items as a parameter, and only `readValue` ties
the knot, one level of nesting at a time.  So every other definition here is without recursion
through values. -/

/-- Passes the remaining letters of a word. -/
def readWord : List Char → Cursor → Except Error Cursor
  | [], c => .ok c
  | x :: xs, c =>
    match c.rest with
    | [] => failHere c .endInValue
    | y :: _ => if y = x then readWord xs c.skip else failSeen c .expectedIdent

/-- Reads the items of a list behind its bracket or behind an earlier item. -/
def readItems (item : Reader Value) : Nat → Bool → Reader (List Value)
  | 0, _, c => failSeen c .endInList
  | n + 1, first, c => do
    let c := c.skipBlanks
    match c.rest with
    | [] => failSeen c .endInList
    | ']' :: _ => .ok ([], c.skip)
    | x :: _ =>
      let start ←
        if first then pure c
        else if x = ',' then
          let c := c.skip.skipBlanks
          match c.rest with
          | [] => failSeen c .endInValue
          | ']' :: _ => failSeen c .trailingComma
          | _ => pure c
        else failSeen c .expectedListEnd
      let (v, c) ← item start
      let (rest, c) ← readItems item n false c
      .ok (v :: rest, c)

/-- Passes the colon between a name and its value. -/
def readColon (c : Cursor) : Except Error Cursor :=
  let c := c.skipBlanks
  match c.rest with
  | [] => failSeen c .endInObject
  | ':' :: _ => .ok c.skip
  | _ => failSeen c .expectedColon

/-- Moves to the opening quote of the next name, or to the closing brace: `none`. -/
def nextName (first : Bool) (c : Cursor) : Except Error (Option Cursor) :=
  let c := c.skipBlanks
  match c.rest with
  | [] => failSeen c .endInObject
  | '\x7d' :: _ => .ok none
  | x :: _ =>
    if first then
      if x = '"' then .ok (some c) else failSeen c .keyNotString
    else if x = ',' then
      let c := c.skip.skipBlanks
      match c.rest with
      | [] => failSeen c .endInValue
      | '"' :: _ => .ok (some c)
      | '\x7d' :: _ => failSeen c .trailingComma
      | _ => failSeen c .keyNotString
    else failSeen c .expectedObjectEnd

/-- Reads the members of an object behind its brace or behind an earlier member. -/
def readMembers (item : Reader Value) : Nat → Bool → Reader (List (String × Value))
  | 0, _, c => failSeen c .endInObject
  | n + 1, first, c => do
    match ← nextName first c with
    | none => .ok ([], c.skipBlanks.skip)
    | some c =>
      let (name, c) ← readString c.skip
      let c ← readColon c
      let (v, c) ← item c
      let (rest, c) ← readMembers item n false c
      .ok ((name, v) :: rest, c)

/-! ## Nesting

The first character tells what kind of value follows. -/

/-- Reads a value; `container` reads on at an opening bracket or brace. -/
def readValueWith (container : Reader Value) : Reader Value := fun c =>
  let c := c.skipBlanks
  match c.rest with
  | [] => failSeen c .endInValue
  | 'n' :: _ => do
    let c ← readWord "ull".toList c.skip
    .ok (.null, c)
  | 't' :: _ => do
    let c ← readWord "rue".toList c.skip
    .ok (.bool true, c)
  | 'f' :: _ => do
    let c ← readWord "alse".toList c.skip
    .ok (.bool false, c)
  | '"' :: _ => do
    let (s, c) ← readString c.skip
    .ok (.string s, c)
  | '[' :: _ => container c
  | '\x7b' :: _ => container c
  | x :: _ =>
    if x = '-' ∨ x.isDigit then do
      let (n, c) ← readNumber c
      .ok (.number n, c)
    else failSeen c .expectedValue

/-- Reads a list or an object whose items are read by `item`. -/
def readContainer (item : Reader Value) : Reader Value := fun c =>
  let fuel := c.rest.length + 1
  if c.rest.head? == some '[' then do
    let (items, c) ← readItems item fuel true c.skip
    .ok (.array items, c)
  else do
    let (members, c) ← readMembers item fuel true c.skip
    .ok (.object (Members.ofList members), c)

/-- Reads a value in which at most `depth` containers are nested. -/
def readValue : Nat → Reader Value
  | 0 => readValueWith fun c => failSeen c .recursionLimit
  | depth + 1 => readValueWith (readContainer (readValue depth))

/-! ## Whole texts

Behind the value only blanks may stand. -/

/-- Checks that only blanks are left. -/
def readEnd (c : Cursor) : Except Error Unit :=
  let c := c.skipBlanks
  if c.rest.isEmpty then .ok () else failSeen c .trailingCharacters

/-- The deepest nesting of containers. -/
def maxDepth : Nat := 127

/-- The value of a whole text. -/
def parse (text : String) : Except Error Value := do
  let (v, c) ← readValue maxDepth (Cursor.ofText text)
  readEnd c
  .ok v

end Json
end RemoteModels
