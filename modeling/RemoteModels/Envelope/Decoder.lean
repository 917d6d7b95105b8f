import RemoteModels.Envelope
import RemoteModels.Json.Skip
import RemoteModels.Text.Quoted

/-!
# Reading envelopes

An envelope is an object with the members `instid`, `method` and `payload` in any order among
others, or a list of the three.  It is read straight from the text, so that a fault in its shape is
reported where it stands.

The reader takes members as they come and stops at the first thing that is wrong, so of several
faults the one that stands first is reported.  A member that is no part of an envelope is passed
over with only its form checked.

* `Envelope.ShapeFault` — what can be wrong with the shape of a JSON text that is otherwise sound.
* `Envelope.decode` — the envelope of a text.
-/

set_option autoImplicit false

namespace RemoteModels
namespace Envelope

open Json (Value Cursor Position Fault failSeen failHere)

/-! ## Faults

A text may be no JSON, or be JSON of another shape.  The second kind of fault tells what was found
and what was wanted. -/

/-- A value found where another was wanted. -/
inductive Found where
  | null
  | bool (b : Bool)
  | number (n : Json.Number)
  | string (s : String)
  | list
  | object
deriving DecidableEq

/-- What was found, as it stands in a message. -/
def Found.text : Found → String
  | .null => "null"
  | .bool true => "boolean `true`"
  | .bool false => "boolean `false`"
  | .number (.real x) => "floating point `" ++ x.text ++ "`"
  | .number n => "integer `" ++ n.text ++ "`"
  | .string s => "string " ++ Text.quoted s
  | .list => "sequence"
  | .object => "map"

/-- What a reader wants to find. -/
inductive Wanted where
  | envelope
  | string
  | unit
  | variant
deriving DecidableEq

/-- What was wanted, as it stands in a message. -/
def Wanted.text : Wanted → String
  | .envelope => "struct Envelope"
  | .string => "a string"
  | .unit => "unit"
  | .variant => "variant identifier"

/-- The members of an envelope. -/
inductive Slot where
  | instid
  | method
  | payload
deriving DecidableEq

def Slot.name : Slot → String
  | .instid => "instid"
  | .method => "method"
  | .payload => "payload"

def Slot.ofName? (s : String) : Option Slot :=
  [Slot.instid, .method, .payload].find? (·.name = s)

/-- What is wrong with the shape. -/
inductive ShapeFault where
  | invalidType (found : Found) (wanted : Wanted)
  | missing (slot : Slot)
  | duplicate (slot : Slot)
  | unknownVerb (name : String)
  | tooShort (length : Nat)
deriving DecidableEq

def ShapeFault.message : ShapeFault → String
  | .invalidType found wanted => "invalid type: " ++ found.text ++ ", expected " ++ wanted.text
  | .missing slot => "missing field `" ++ slot.name ++ "`"
  | .duplicate slot => "duplicate field `" ++ slot.name ++ "`"
  | .unknownVerb name =>
    "unknown variant `" ++ name ++ "`, expected one of `put`, `post`, `delete`"
  | .tooShort n =>
    "invalid length " ++ toString n ++ ", expected struct Envelope with 3 elements"

/-- Why a text is no envelope. -/
inductive DecodeError where
  | json (e : Json.Error)
  | shape (fault : ShapeFault) (position : Position)
deriving DecidableEq

def DecodeError.message : DecodeError → String
  | .json e => e.message
  | .shape fault position => fault.message ++ " " ++ position.text

/-- A function that reads a part of an envelope. -/
abbrev Reader (α : Type) := Cursor → Except DecodeError (α × Cursor)

/-- A fault of the JSON text is one of the envelope. -/
def fromJson {α : Type} : Except Json.Error α → Except DecodeError α
  | .ok a => .ok a
  | .error e => .error (.json e)

/-! ## Parts

Each part has a reader of its own, which says what it wants. -/

/-- Fails with the value that stands where another was wanted.  A scalar is read to its end first;
a container counts as found before its bracket. -/
def invalidType {α : Type} (wanted : Wanted) (c : Cursor) : Except DecodeError α :=
  let found (f : Found) (c : Cursor) : Except DecodeError α :=
    .error (.shape (.invalidType f wanted) c.position)
  match c.rest with
  | '[' :: _ => found .list c
  | '\x7b' :: _ => found .object c
  | _ => do
    let (v, c) ← fromJson (Json.readValue 0 c)
    match v with
    | .null => found .null c
    | .bool b => found (.bool b) c
    | .number n => found (.number n) c
    | .string s => found (.string s) c
    | .array _ => found .list c
    | .object _ => found .object c

/-- Reads a string, where one is wanted. -/
def readText (wanted : Wanted) : Reader String := fun c =>
  let c := c.skipBlanks
  match c.rest with
  | [] => fromJson (failSeen c .endInValue)
  | '"' :: _ => fromJson (Json.readString c.skip)
  | _ => invalidType wanted c

/-- Reads a string or null. -/
def readOptionalText : Reader (Option String) := fun c =>
  let c := c.skipBlanks
  match c.rest with
  | 'n' :: _ => do
    let c ← fromJson (Json.readWord "ull".toList c.skip)
    .ok (none, c)
  | _ => do
    let (s, c) ← readText .string c
    .ok (some s, c)

/-- Reads the name of a verb. -/
def readVerbName : Reader Verb := fun c => do
  let (name, c) ← readText .variant c
  match Verb.ofWire? name with
  | some verb => .ok (verb, c)
  | none => .error (.shape (.unknownVerb name) c.position)

/-- Reads null where nothing else is wanted. -/
def readUnit (c : Cursor) : Except DecodeError Cursor :=
  let c := c.skipBlanks
  match c.rest with
  | [] => fromJson (failSeen c .endInValue)
  | 'n' :: _ => fromJson (Json.readWord "ull".toList c.skip)
  | _ => invalidType .unit c

/-- Reads a verb: its name, or an object with its name and null. -/
def readVerb : Reader Verb := fun c =>
  let c := c.skipBlanks
  match c.rest with
  | [] => fromJson (failSeen c .endInValue)
  | '"' :: _ => readVerbName c
  | '\x7b' :: _ => do
    let (verb, c) ← readVerbName c.skip
    let c ← fromJson (Json.readColon c)
    let c ← readUnit c
    let c := c.skipBlanks
    match c.rest with
    | [] => fromJson (failHere c .endInObject)
    | '\x7d' :: _ => .ok (verb, c.skip)
    | _ => fromJson (failHere c .expectedValue)
  | _ => fromJson (failSeen c .expectedValue)

/-! ## Objects

Each of the three members may stand once, and only the identity may be missing. -/

/-- The members read so far. -/
structure Partial where
  instid : Option (Option String) := none
  verb : Option Verb := none
  payload : Option String := none

def Partial.has (p : Partial) : Slot → Bool
  | .instid => p.instid.isSome
  | .method => p.verb.isSome
  | .payload => p.payload.isSome

/-- Reads the value of a member. -/
def Partial.fill (p : Partial) (slot : Slot) : Reader Partial := fun c =>
  match slot with
  | .instid => do
    let (id, c) ← readOptionalText c
    .ok ({ p with instid := some id }, c)
  | .method => do
    let (verb, c) ← readVerb c
    .ok ({ p with verb := some verb }, c)
  | .payload => do
    let (s, c) ← readText .string c
    .ok ({ p with payload := some s }, c)

/-- Where a fault of the whole container is reported: behind its end, if that comes next. -/
def pastEnd (close : Char) (c : Cursor) : Position :=
  let c := c.skipBlanks
  if c.rest.head? = some close then c.skip.position else c.position

/-- Reads members up to the closing brace. -/
def readSlots : Nat → Bool → Partial → Reader Partial
  | 0, _, _, c => fromJson (failSeen c .endInObject)
  | n + 1, first, p, c => do
    match ← fromJson (Json.nextName first c) with
    | none => .ok (p, c)
    | some c =>
      let (name, c) ← fromJson (Json.readString c.skip)
      match Slot.ofName? name with
      | none =>
        let c ← fromJson (Json.readColon c)
        let c ← fromJson (Json.skipValue c)
        readSlots n false p c
      | some slot =>
        if p.has slot then .error (.shape (.duplicate slot) (pastEnd '\x7d' c))
        else
          let c ← fromJson (Json.readColon c)
          let (p, c) ← p.fill slot c
          readSlots n false p c

/-- Reads an envelope behind its opening brace. -/
def readObject : Reader Envelope := fun c => do
  let (p, c) ← readSlots (c.rest.length + 1) true {} c
  match p.verb, p.payload with
  | some verb, some payload => .ok (⟨p.instid.getD none, verb, payload⟩, c.skipBlanks.skip)
  | none, _ => .error (.shape (.missing .method) (pastEnd '\x7d' c))
  | _, none => .error (.shape (.missing .payload) (pastEnd '\x7d' c))

/-! ## Lists

The three parts in their order, with nothing missing and nothing behind them. -/

/-- Moves to the next item of a list of which `count` items have been read. -/
def nextItem (count : Nat) (c : Cursor) : Except DecodeError Cursor :=
  let c := c.skipBlanks
  match c.rest with
  | [] => fromJson (failSeen c .endInList)
  | ']' :: _ => .error (.shape (.tooShort count) (pastEnd ']' c))
  | x :: _ =>
    if count = 0 then .ok c
    else if x = ',' then
      let c := c.skip.skipBlanks
      match c.rest with
      | [] => fromJson (failSeen c .endInValue)
      | ']' :: _ => fromJson (failSeen c .trailingComma)
      | _ => .ok c
    else fromJson (failSeen c .expectedListEnd)

/-- Passes the end of a list. -/
def readListEnd (c : Cursor) : Except DecodeError Cursor :=
  let c := c.skipBlanks
  match c.rest with
  | [] => fromJson (failSeen c .endInList)
  | ']' :: _ => .ok c.skip
  | ',' :: _ =>
    let c := c.skip.skipBlanks
    if c.rest.head? = some ']' then fromJson (failSeen c .trailingComma)
    else fromJson (failSeen c .trailingCharacters)
  | _ => fromJson (failSeen c .trailingCharacters)

/-- Reads an envelope behind its opening bracket. -/
def readList : Reader Envelope := fun c => do
  let (instid, c) ← readOptionalText (← nextItem 0 c)
  let (verb, c) ← readVerb (← nextItem 1 c)
  let (payload, c) ← readText .string (← nextItem 2 c)
  let c ← readListEnd c
  .ok (⟨instid, verb, payload⟩, c)

/-! ## Whole texts

Only blanks may follow an envelope. -/

/-- Reads an envelope. -/
def read : Reader Envelope := fun c =>
  let c := c.skipBlanks
  match c.rest with
  | [] => fromJson (failSeen c .endInValue)
  | '[' :: _ => readList c.skip
  | '\x7b' :: _ => readObject c.skip
  | _ => invalidType .envelope c

/-- The envelope of a text. -/
def decode (text : String) : Except DecodeError Envelope := do
  let (e, c) ← read (Cursor.ofText text)
  fromJson (Json.readEnd c)
  .ok e

end Envelope
end RemoteModels
