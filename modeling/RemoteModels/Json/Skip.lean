import RemoteModels.Json.Parser

/-!
# Passing over JSON values

A member that nobody asks for is passed over without being built.  Its shape is checked, with no
limit on nesting and none on the size of numbers, and of an escaped character only the digits are
looked at.

* `Json.skipString`, `Json.skipNumber` — passing over a string and a number.
* `Json.skipValue` — passing over any value, with the open containers on a stack.
-/

set_option autoImplicit false

namespace RemoteModels
namespace Json

/-! ## Strings

Surrogates need not come in pairs where nothing is made of them. -/

/-- Passes over what follows a backslash. -/
def skipEscape (c : Cursor) : Except Error Cursor :=
  match c.rest with
  | [] => failHere c .endInString
  | 'u' :: _ => do
    let (_, c) ← readHexUnit c.skip
    .ok c
  | x :: _ =>
    if ['"', '\\', '/', 'b', 'f', 'n', 'r', 't'].contains x then .ok c.skip
    else failSeen c .invalidEscape

/-- Passes over the pieces of a string up to its closing quote. -/
def skipPieces : Nat → Cursor → Except Error Cursor
  | 0, c => failHere c .endInString
  | n + 1, c =>
    match c.rest with
    | [] => failHere c .endInString
    | '"' :: _ => .ok c.skip
    | '\\' :: _ => do
      let c ← skipEscape c.skip
      skipPieces n c
    | x :: _ => if x.toNat < 32 then failHere c .controlCharacter else skipPieces n c.skip

/-- Passes over a string behind its opening quote. -/
def skipString (c : Cursor) : Except Error Cursor := skipPieces (c.rest.length + 1) c

/-! ## Numbers

The digits are passed over without being counted up, so no number is too large. -/

/-- Passes over digits, of which there is at least one. -/
def skipDigits (c : Cursor) : Except Error Cursor :=
  match c.takeDigits with
  | ([], _) => failSeen c .invalidNumber
  | (_, c) => .ok c

/-- Passes over an exponent, if there is one. -/
def skipExponent (c : Cursor) : Except Error Cursor :=
  match c.rest with
  | x :: _ =>
    if x = 'e' ∨ x = 'E' then
      let c := c.skip
      match c.rest with
      | '+' :: _ => skipDigits c.skip
      | '-' :: _ => skipDigits c.skip
      | _ => skipDigits c
    else .ok c
  | [] => .ok c

/-- Passes over a fraction and an exponent, as far as they are there. -/
def skipFraction (c : Cursor) : Except Error Cursor :=
  match c.rest with
  | '.' :: _ => do
    let c ← skipDigits c.skip
    skipExponent c
  | _ => skipExponent c

/-- Passes over a number without its sign. -/
def skipNumber (c : Cursor) : Except Error Cursor :=
  match c.rest with
  | '0' :: _ =>
    let c := c.skip
    match c.rest with
    | x :: _ => if x.isDigit then failSeen c .invalidNumber else skipFraction c
    | [] => .ok c
  | _ => do
    let c ← skipDigits c
    skipFraction c

/-! ## Values

A stack takes the place of recursion: there is no limit on nesting, but each bracket must be closed
by its own kind. -/

/-- A container that is still open. -/
inductive Opened where
  | list
  | object
deriving DecidableEq

/-- Passes over a name and its colon in an object. -/
def skipName (c : Cursor) : Except Error Cursor :=
  let c := c.skipBlanks
  match c.rest with
  | [] => failSeen c .endInObject
  | '"' :: _ => do
    let c ← skipString c.skip
    readColon c
  | _ => failSeen c .keyNotString

/-- Goes on to the next item of a container. -/
def enter (o : Opened) (c : Cursor) : Except Error Cursor :=
  match o with
  | .list => .ok c
  | .object => skipName c

/-- Passes over the brackets that close behind a value or behind an opening bracket, and goes on to
the next item of the innermost container that stays open.  With none left open the value has been
passed: the stack is empty. -/
def skipClosers : List Opened → Bool → Cursor → Except Error (List Opened × Cursor)
  | [], _, c => .ok ([], c)
  | o :: outer, behindItem, c => do
    let c := c.skipBlanks
    match c.rest, o with
    | [], .list => failSeen c .endInList
    | [], .object => failSeen c .endInObject
    | ']' :: _, .list => skipClosers outer true c.skip
    | '\x7d' :: _, .object => skipClosers outer true c.skip
    | x :: _, o =>
      if behindItem then
        if x = ',' then
          let c ← enter o c.skip
          .ok (o :: outer, c)
        else if o = .list then failSeen c .expectedListEnd
        else failSeen c .expectedObjectEnd
      else
        let c ← enter o c
        .ok (o :: outer, c)

/-- Passes over a value that is no container, or over an opening bracket. -/
def skipStart (c : Cursor) : Except Error (Option Opened × Cursor) :=
  match c.rest with
  | [] => failSeen c .endInValue
  | 'n' :: _ => do return (none, ← readWord "ull".toList c.skip)
  | 't' :: _ => do return (none, ← readWord "rue".toList c.skip)
  | 'f' :: _ => do return (none, ← readWord "alse".toList c.skip)
  | '"' :: _ => do return (none, ← skipString c.skip)
  | '-' :: _ => do return (none, ← skipNumber c.skip)
  | '[' :: _ => .ok (some .list, c.skip)
  | '\x7b' :: _ => .ok (some .object, c.skip)
  | x :: _ => do
    if x.isDigit then return (none, ← skipNumber c)
    else failSeen c .expectedValue

/-- Passes over values until every container of the stack is closed. -/
def skipOpened : Nat → List Opened → Cursor → Except Error Cursor
  | 0, _, c => failSeen c .endInValue
  | n + 1, stack, c => do
    let (opened, c) ← skipStart c.skipBlanks
    let (stack, c) ← match opened with
      | some o => skipClosers (o :: stack) false c
      | none => skipClosers stack true c
    if stack.isEmpty then .ok c else skipOpened n stack c

/-- Passes over a value. -/
def skipValue (c : Cursor) : Except Error Cursor := skipOpened (c.rest.length + 1) [] c

end Json
end RemoteModels
