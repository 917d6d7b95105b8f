import RemoteModels.Json.Value
import RemoteModels.Yaml.Token

/-!
# What plain YAML scalars stand for

A plain scalar is null, a truth value, an integer, a floating-point number or, failing these, its
own text.

* `Yaml.integer?` — integers in base ten, sixteen, eight and two; base ten without leading zeros.
* `Yaml.float?` — floating-point numbers, infinite and undefined ones included.
* `Yaml.plainValue?`, `Yaml.taggedValue?` — the value of a scalar; `none` when it has none.
-/

set_option autoImplicit false

namespace RemoteModels
namespace Yaml

open Json (Value Number)

/-! ## Integers

A base mark is in lower case, and a sign may stand in front of it. -/

def digitIn? (base : Nat) (c : Char) : Option Nat :=
  let v :=
    if '0' ≤ c ∧ c ≤ '9' then some (c.toNat - '0'.toNat)
    else if 'a' ≤ c ∧ c ≤ 'f' then some (c.toNat - 'a'.toNat + 10)
    else if 'A' ≤ c ∧ c ≤ 'F' then some (c.toNat - 'A'.toNat + 10)
    else none
  v.bind fun n => if n < base then some n else none

/-- The number written by one or more digits. -/
def digitsIn? (base : Nat) (cs : List Char) : Option Nat :=
  if cs.isEmpty then none
  else cs.foldl (fun acc c => do return (← acc) * base + (← digitIn? base c)) (some 0)

/-- Digits with a sign that start with a superfluous zero. -/
def hasLeadingZero (cs : List Char) : Bool :=
  let ds := match cs with
    | '-' :: rest => rest
    | '+' :: rest => rest
    | cs => cs
  1 < ds.length && ds.head? == some '0' && ds.all Char.isDigit

/-- The magnitude of an unsigned integer: a base mark and digits, or decimal digits. -/
def magnitude? : List Char → Option Nat
  | '0' :: 'x' :: ds => digitsIn? 16 ds
  | '0' :: 'o' :: ds => digitsIn? 8 ds
  | '0' :: 'b' :: ds => digitsIn? 2 ds
  | ds => digitsIn? 10 ds

/-- The integer a text writes. -/
def integer? (cs : List Char) : Option Int :=
  if hasLeadingZero cs then none
  else
    match cs with
    | '-' :: rest => (magnitude? rest).map fun n => -(n : Int)
    | '+' :: rest => (magnitude? rest).map fun n => (n : Int)
    | rest => (magnitude? rest).map fun n => (n : Int)

/-! ## Floating-point numbers

The text is rounded once, by the same rule as in other formats. -/

/-- A number that is finite, infinite or undefined. -/
inductive FloatValue where
  | finite (x : Binary64)
  | infinite
  | undefined

def digitRun (cs : List Char) : List Char × List Char :=
  (cs.takeWhile Char.isDigit, cs.dropWhile Char.isDigit)

/-- The exponent behind its letter: an optional sign and digits, nothing else. -/
def exponent? (cs : List Char) : Option Int :=
  match cs with
  | '-' :: ds => (digitsIn? 10 ds).map fun n => -(n : Int)
  | '+' :: ds => (digitsIn? 10 ds).map fun n => (n : Int)
  | ds => (digitsIn? 10 ds).map fun n => (n : Int)

/-- A decimal number: digits with at most one point, at least one of them, and an optional
exponent.  Numbers too large for a double are not taken. -/
def decimal? (cs : List Char) : Option Binary64 := do
  let (negative, cs) := match cs with
    | '-' :: rest => (true, rest)
    | '+' :: rest => (false, rest)
    | cs => (false, cs)
  let (whole, cs) := digitRun cs
  let (fraction, cs) := match cs with
    | '.' :: rest => digitRun rest
    | cs => ([], cs)
  let digits ← digitsIn? 10 (whole ++ fraction)
  let exponent ← match cs with
    | [] => some 0
    | c :: rest => if c == 'e' || c == 'E' then exponent? rest else none
  Binary64.ofDecimal negative digits (exponent - fraction.length)

/-- The floating-point number a text writes. -/
def float? (cs : List Char) : Option FloatValue :=
  let text := String.ofList cs
  if [".inf", ".Inf", ".INF", "+.inf", "+.Inf", "+.INF", "-.inf", "-.Inf", "-.INF"].contains text
  then some .infinite
  else if [".nan", ".NaN", ".NAN"].contains text then some .undefined
  else
    let rest := match cs with
      | '+' :: rest => if rest.head? == some '+' || rest.head? == some '-' then [] else rest
      | cs => cs
    (decimal? rest).map .finite

/-- Numbers that are not finite have no JSON form and become null. -/
def FloatValue.value : FloatValue → Value
  | .finite x => .number (.real x)
  | _ => .null

/-! ## Values

The kinds are tried in a fixed order, and a text that is of none of them is a string. -/

def isNull (text : String) : Bool := ["null", "Null", "NULL", "~"].contains text

def boolean? (text : String) : Option Bool :=
  if ["true", "True", "TRUE"].contains text then some true
  else if ["false", "False", "FALSE"].contains text then some false
  else none

/-- The value of an integer: 64 bits are kept, up to 128 bits are refused. -/
inductive IntegerValue where
  | number (n : Number)
  | refused
  | notInteger

def integerValue (cs : List Char) : IntegerValue :=
  match integer? cs with
  | none => .notInteger
  | some i =>
    match Number.ofInt? i with
    | some n => .number n
    | none => if -Int.pow 2 127 ≤ i ∧ i < Int.pow 2 128 then .refused else .notInteger

/-- The value of a plain scalar without a tag. -/
def plainValue? (text : String) : Option Value :=
  let cs := text.toList
  if text = "" || isNull text then some .null
  else
    match boolean? text with
    | some b => some (.bool b)
    | none =>
      match integerValue cs with
      | .number n => some (.number n)
      | .refused => none
      | .notInteger =>
        if hasLeadingZero cs then some (.string text)
        else some (((float? cs).map FloatValue.value).getD (.string text))

/-- The value of a scalar with a tag.  Tags of the core types convert, local tags are refused, and
any other tag makes it a string. -/
def taggedValue? (tag text : String) : Option Value :=
  if tag.toList.head? == some '!' then none
  else if tag = "tag:yaml.org,2002:bool" then (boolean? text).map .bool
  else if tag = "tag:yaml.org,2002:int" then
    match integerValue text.toList with
    | .number n => some (.number n)
    | _ => none
  else if tag = "tag:yaml.org,2002:float" then (float? text.toList).map FloatValue.value
  else if tag = "tag:yaml.org,2002:null" then if isNull text then some .null else none
  else some (.string text)

end Yaml
end RemoteModels
