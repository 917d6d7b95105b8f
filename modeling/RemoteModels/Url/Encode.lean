import RemoteModels.Json.Parser
import RemoteModels.Text.Utf8

/-!
# Percent encoding

A character that may not stand in a part of a URL is written byte by byte as `%XX`.

* `Url.inControls`, `Url.inFragment`, `Url.inQuery`, `Url.inPath`, `Url.inUserinfo` — the characters
  that are encoded in the parts of a URL.
* `Url.encode` — a text with the characters of a set encoded.
* `Url.decodeBytes` — the bytes of a text with its triples decoded.
-/

set_option autoImplicit false

namespace RemoteModels
namespace Url

/-! ## Sets

A part that stands further in front can be mistaken for more, so more has to be encoded in it: the
fragment has a small set, and the user the largest. -/

/-- Controls and everything outside ASCII. -/
def inControls (c : Char) : Bool := c.toNat < 0x20 || 0x7E < c.toNat

def inFragment (c : Char) : Bool := inControls c || [' ', '"', '<', '>', '`'].contains c

def inQuery (c : Char) : Bool := inControls c || [' ', '"', '#', '<', '>'].contains c

/-- The query of a URL with one of the well-known schemes. -/
def inSpecialQuery (c : Char) : Bool := inQuery c || c == '\''

def inPath (c : Char) : Bool := inFragment c || ['#', '?', '\x7b', '\x7d'].contains c

def inUserinfo (c : Char) : Bool :=
  inPath c || ['/', ':', ';', '=', '@', '[', '\\', ']', '^', '|'].contains c

/-! ## Encoding and decoding

A percent sign is encoded nowhere, so what was encoded before stays as it is. -/

/-- A hexadecimal digit in upper case. -/
def hexDigit (n : Nat) : Char :=
  if n < 10 then Char.ofNat ('0'.toNat + n) else Char.ofNat ('A'.toNat + (n - 10))

def encodeByte (b : UInt8) : List Char := ['%', hexDigit (b.toNat / 16), hexDigit (b.toNat % 16)]

def utf8Bytes (c : Char) : List UInt8 := c.toString.toUTF8.toList

def encodeChar (set : Char → Bool) (c : Char) : List Char :=
  if set c then (utf8Bytes c).flatMap encodeByte else [c]

/-- A text with the characters of a set encoded. -/
def encode (set : Char → Bool) (cs : List Char) : String :=
  String.ofList (cs.flatMap (encodeChar set))

/-- The bytes of a text; a percent sign without two digits behind it stands for itself. -/
def decodeBytes : List Char → List UInt8
  | [] => []
  | c :: rest =>
    let plain := utf8Bytes c ++ decodeBytes rest
    match c, rest with
    | '%', x :: y :: after =>
      match Json.hexValue? x, Json.hexValue? y with
      | some a, some b => UInt8.ofNat (a * 16 + b) :: decodeBytes after
      | _, _ => plain
    | _, _ => plain

end Url
end RemoteModels
