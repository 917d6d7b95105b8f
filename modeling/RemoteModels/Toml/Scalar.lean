import RemoteModels.Decimal.Binary64
import RemoteModels.Toml.Text

/-!
# Numbers, truth values and moments in TOML

Such a value is a word without blanks; only a date may be followed by a time behind a space.

* `Toml.integerOf`, `Toml.isFloat`, `Toml.isMoment` — what a word says.
* `Toml.readScalar` — a value that is no container.
-/

set_option autoImplicit false

namespace RemoteModels
namespace Toml

/-! ## Digits

An underscore may stand between two digits, and nowhere else. -/

/-- Takes digits, between which single underscores may stand. -/
def takeDigits (isDigit : Char → Bool) : List Char → Option (List Char × List Char)
  | [] => none
  | c :: rest =>
    if isDigit c then
      match rest with
      | '_' :: d :: more => do
        if !isDigit d then none
        let (ds, rest) ← takeDigits isDigit (d :: more)
        return (c :: ds, rest)
      | ['_'] => none
      | rest =>
        match takeDigits isDigit rest with
        | some (ds, rest) => some (c :: ds, rest)
        | none => if rest.head?.any isDigit then none else some ([c], rest)
    else none

def natOf (base : Nat) (ds : List Char) : Nat :=
  ds.foldl (fun n c => n * base + (Json.hexValue? c).getD 0) 0

/-- The sign in front of a number. -/
def takeSign : List Char → Bool × List Char
  | '+' :: rest => (false, rest)
  | '-' :: rest => (true, rest)
  | cs => (false, cs)

/-- Digits of a number without leading zeros. -/
def takeDecimal (cs : List Char) : Option (List Char × List Char) :=
  match cs with
  | '0' :: rest => some (['0'], rest)
  | cs => takeDigits Char.isDigit cs

/-! ## Integers

An integer is written in one of four bases; only a decimal one has a sign. -/

def isBinary (c : Char) : Bool := c == '0' || c == '1'

def isOctal (c : Char) : Bool := '0' ≤ c && c ≤ '7'

def isHex (c : Char) : Bool := (Json.hexValue? c).isSome

/-- The digits of a whole word. -/
def wholeDigits (isDigit : Char → Bool) (cs : List Char) : Option (List Char) :=
  match takeDigits isDigit cs with
  | some (ds, []) => some ds
  | _ => none

/-- The integer of a word. -/
def integerText : List Char → Option Int
  | '0' :: 'x' :: rest => (wholeDigits isHex rest).map fun ds => natOf 16 ds
  | '0' :: 'o' :: rest => (wholeDigits isOctal rest).map fun ds => natOf 8 ds
  | '0' :: 'b' :: rest => (wholeDigits isBinary rest).map fun ds => natOf 2 ds
  | cs =>
    let (negative, cs) := takeSign cs
    match takeDecimal cs with
    | some (ds, []) => some (if negative then -(natOf 10 ds : Int) else natOf 10 ds)
    | _ => none

/-- The integer of a word, if it fits 64 bits. -/
def integerOf (cs : List Char) : Option Int :=
  match integerText cs with
  | some n => if -Int.pow 2 63 ≤ n ∧ n < Int.pow 2 63 then some n else none
  | none => none

/-! ## Floats

A word is a float if it has a point or an exponent.  Its value is not computed but for the question
whether there is one. -/

/-- The digits behind a point, if there is one. -/
def takeFraction : List Char → Option (List Char × List Char)
  | '.' :: rest => takeDigits Char.isDigit rest
  | cs => some ([], cs)

/-- The exponent behind a number, if there is one. -/
def takeExponent : List Char → Option (Option Int × List Char)
  | c :: rest =>
    if c = 'e' ∨ c = 'E' then
      let (negative, rest) := takeSign rest
      (takeDigits Char.isDigit rest).map fun (ds, rest) =>
        (some (if negative then -(natOf 10 ds : Int) else natOf 10 ds), rest)
    else some (none, c :: rest)
  | [] => some (none, [])

/-- Whether a word is a float.  One above the range has to be negative. -/
def isFloat (cs : List Char) : Bool :=
  let (negative, rest) := takeSign cs
  if rest = "inf".toList ∨ rest = "nan".toList then true
  else
    let parts := do
      let (whole, rest) ← takeDecimal rest
      let (fraction, rest) ← takeFraction rest
      let (exponent, rest) ← takeExponent rest
      if rest.isEmpty && (!fraction.isEmpty || exponent.isSome) then
        some (whole, fraction, exponent.getD 0)
      else none
    match parts with
    | none => false
    | some (whole, fraction, exponent) =>
      negative ||
        (Binary64.ofDecimal false (natOf 10 (whole ++ fraction))
          (exponent - fraction.length)).isSome

/-! ## Moments

Dates are checked against the calendar, and seconds may be 60. -/

/-- Takes a number of so many digits within bounds. -/
def takeNumber (width low high : Nat) (cs : List Char) : Option (Nat × List Char) :=
  let ds := cs.take width
  if ds.length = width ∧ ds.all Char.isDigit then
    let n := natOf 10 ds
    if low ≤ n ∧ n ≤ high then some (n, cs.drop width) else none
  else none

def takeChar (x : Char) : List Char → Option (List Char)
  | c :: rest => if c = x then some rest else none
  | [] => none

/-- The number of days of a month. -/
def daysOf (year month : Nat) : Nat :=
  if month = 2 then
    if year % 4 = 0 ∧ (year % 100 ≠ 0 ∨ year % 400 = 0) then 29 else 28
  else if month = 4 ∨ month = 6 ∨ month = 9 ∨ month = 11 then 30
  else 31

/-- Passes a date. -/
def skipDate (cs : List Char) : Option (List Char) := do
  let (year, cs) ← takeNumber 4 0 9999 cs
  let cs ← takeChar '-' cs
  let (month, cs) ← takeNumber 2 1 12 cs
  let cs ← takeChar '-' cs
  let (_, cs) ← takeNumber 2 1 (daysOf year month) cs
  return cs

/-- Passes a time of day. -/
def skipTime (cs : List Char) : Option (List Char) := do
  let (_, cs) ← takeNumber 2 0 23 cs
  let cs ← takeChar ':' cs
  let (_, cs) ← takeNumber 2 0 59 cs
  let cs ← takeChar ':' cs
  let (_, cs) ← takeNumber 2 0 60 cs
  match cs with
  | '.' :: rest =>
    if rest.head?.any Char.isDigit then return rest.dropWhile Char.isDigit else none
  | cs => return cs

/-- Passes a distance from universal time, if there is one. -/
def skipOffset : List Char → Option (List Char)
  | [] => some []
  | c :: rest =>
    if c = 'Z' ∨ c = 'z' then some rest
    else if c = '+' ∨ c = '-' then do
      let (_, rest) ← takeNumber 2 0 23 rest
      let rest ← takeChar ':' rest
      let (_, rest) ← takeNumber 2 0 59 rest
      return rest
    else some (c :: rest)

/-- Whether a word is a date. -/
def isDate (cs : List Char) : Bool := skipDate cs == some []

/-- Whether a word is a date, a time, or both. -/
def isMoment (cs : List Char) : Bool :=
  isDate cs || skipTime cs == some [] ||
    (match skipDate cs with
      | some (t :: rest) =>
        (t == 'T' || t == 't' || t == ' ') && (skipTime rest).bind skipOffset == some []
      | _ => false)

/-! ## Words

A word is taken as a whole and then tried as one kind of value after the other. -/

def isWordChar (c : Char) : Bool :=
  c.isAlphanum || c == '_' || c == '+' || c == '-' || c == '.' || c == ':'

/-- Takes a word; a date takes a time behind a space with it. -/
def takeWord (cs : List Char) : List Char × List Char :=
  let word := cs.takeWhile isWordChar
  let rest := cs.dropWhile isWordChar
  match rest with
  | ' ' :: a :: b :: ':' :: more =>
    if isDate word && a.isDigit && b.isDigit then
      let time := a :: b :: ':' :: more.takeWhile isWordChar
      (word ++ ' ' :: time, more.dropWhile isWordChar)
    else (word, rest)
  | _ => (word, rest)

/-- The value of a word. -/
def wordValue (word : List Char) : Option Value :=
  if word = "true".toList then some (.boolean true)
  else if word = "false".toList then some (.boolean false)
  else
    match integerOf word with
    | some n => some (.integer n)
    | none =>
      if isFloat word then some (.float (String.ofList word))
      else if isMoment word then some (.moment (String.ofList word))
      else none

/-- Reads a value that is no container. -/
def readScalar : Reader Value := fun cs =>
  match cs with
  | '"' :: _ => (readText cs).map fun (s, rest) => (.string s, rest)
  | '\'' :: _ => (readText cs).map fun (s, rest) => (.string s, rest)
  | _ =>
    let (word, rest) := takeWord cs
    (wordValue word).map fun v => (v, rest)

end Toml
end RemoteModels
