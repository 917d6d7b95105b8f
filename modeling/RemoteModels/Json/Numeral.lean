import RemoteModels.Json.Cursor

/-!
# Reading JSON numbers

Digits are gathered into a 64-bit significand.  Digits that no longer fit are dropped, those before
the point being counted in a power of ten.  An integer that fits keeps its exact value; everything
else becomes the significand as a double, multiplied or divided by a power of ten that is itself a
double.

* `Json.absorb` — gathering digits into the significand.
* `Json.realOf?` — the double of a significand and a power of ten.
* `Json.readNumber` — a whole number literal.
-/

set_option autoImplicit false

namespace RemoteModels
namespace Json

/-! ## Significands

The digits of a literal are gathered before it is known whether there is a point or an exponent.
What did not fit is made up for by the power of ten. -/

def digitValue (c : Char) : Nat := c.toNat - '0'.toNat

/-- Appends digits to a significand as long as it stays below `2 ^ 64`; the second part counts the
digits taken. -/
def absorb : Nat → List Char → Nat × Nat
  | s, [] => (s, 0)
  | s, d :: ds =>
    let s' := s * 10 + digitValue d
    if s' < Nat.pow 2 64 then
      let r := absorb s' ds
      (r.1, r.2 + 1)
    else (s, 0)

/-- A power of ten as a double, for exponents up to 308. -/
def powerOfTen (n : Nat) : Binary64 := (Binary64.ofNat? (Nat.pow 10 n)).getD default

/-- Divides by a power of ten, in steps of at most `10 ^ 308`. -/
def divideByPower (x : Binary64) (n : Nat) : Binary64 :=
  if n ≤ 308 then (x.div (powerOfTen n)).getD default
  else if x.isZero then x
  else divideByPower ((x.div (powerOfTen 308)).getD default) (n - 308)
termination_by n

/-- The double of `significand · 10 ^ exponent`; `none` when it is too large. -/
def realOf? (negative : Bool) (significand : Nat) (exponent : Int) : Option Binary64 :=
  let f := (Binary64.ofNat? significand).getD default
  let magnitude :=
    if exponent < 0 then some (divideByPower f exponent.natAbs)
    else if f.isZero then some f
    else if 308 < exponent then none
    else f.mul (powerOfTen exponent.toNat)
  magnitude.map (·.withSign negative)

/-! ## Literals

A literal has a sign, digits, a fraction and an exponent, each with a reader that hands what it has
gathered to the next one. -/

/-- The number of an integer literal without point and exponent. -/
def integerOf (negative : Bool) (significand : Nat) : Number :=
  if !negative then .natural (UInt64.ofNat significand)
  else if 0 < significand ∧ significand ≤ Nat.pow 2 63 then .negative (Int64.ofInt (-significand))
  else .real (((Binary64.ofNat? significand).getD default).withSign true)

/-- A double, or the fault that it is too large. -/
def readReal (negative : Bool) (significand : Nat) (exponent : Int) : Reader Number := fun c =>
  match realOf? negative significand exponent with
  | some x => .ok (.real x, c)
  | none => failHere c .numberOutOfRange

/-- Reads exponent digits onto `acc`; `none` with the cursor behind the digit that leaves the range
of 32-bit integers. -/
def readExponentDigits : Nat → List Char → Cursor → Option Nat × Cursor
  | acc, [], c => (some acc, c)
  | acc, d :: ds, c =>
    let acc' := acc * 10 + digitValue d
    if acc' < Nat.pow 2 31 then readExponentDigits acc' ds c.skip else (none, c.skip)

/-- Reads what follows the sign of an exponent; `down` tells whether it is a minus. -/
def readPower (negative : Bool) (significand : Nat) (start : Int) (down : Bool) : Reader Number :=
  fun c =>
    match c.takeDigits with
    | ([], _) => failSeen c (if c.rest.isEmpty then .endInValue else .invalidNumber)
    | (ds, behind) =>
      match readExponentDigits 0 ds c with
      | (some e, _) => readReal negative significand (if down then start - e else start + e) behind
      | (none, overflow) =>
        if significand ≠ 0 ∧ !down then failHere overflow .numberOutOfRange
        else .ok (.real (.zero negative), behind)

/-- Reads what follows the letter of an exponent. -/
def readExponent (negative : Bool) (significand : Nat) (start : Int) : Reader Number := fun c =>
  if c.rest.head? == some '-' then readPower negative significand start true c.skip
  else if c.rest.head? == some '+' then readPower negative significand start false c.skip
  else readPower negative significand start false c

/-- Reads an exponent if there is one. -/
def readScaled (negative : Bool) (significand : Nat) (exponent : Int) : Reader Number := fun c =>
  if c.rest.head? == some 'e' then readExponent negative significand exponent c.skip
  else if c.rest.head? == some 'E' then readExponent negative significand exponent c.skip
  else readReal negative significand exponent c

/-- Reads what follows the point. -/
def readFraction (negative : Bool) (significand : Nat) (dropped : Nat) : Reader Number := fun c =>
  match c.takeDigits with
  | ([], _) => failSeen c (if c.rest.isEmpty then .endInValue else .invalidNumber)
  | (ds, behind) =>
    let (s, taken) := absorb significand ds
    readScaled negative s ((dropped : Int) - taken) behind

/-- Reads what follows the digits of an integer, of which `dropped` did not fit. -/
def readTail (negative : Bool) (significand : Nat) (dropped : Nat) : Reader Number := fun c =>
  if c.rest.head? == some '.' then readFraction negative significand dropped c.skip
  else if c.rest.head? == some 'e' then readExponent negative significand dropped c.skip
  else if c.rest.head? == some 'E' then readExponent negative significand dropped c.skip
  else if dropped = 0 then .ok (integerOf negative significand, c)
  else readReal negative significand dropped c

/-- Reads a number behind its sign. -/
def readUnsigned (negative : Bool) : Reader Number := fun c =>
  match c.takeDigits with
  | ([], _) => failSeen c (if c.rest.isEmpty then .endInValue else .invalidNumber)
  | ('0' :: _ :: _, _) => failSeen c.skip .invalidNumber
  | (ds, behind) =>
    let (s, taken) := absorb 0 ds
    readTail negative s (ds.length - taken) behind

/-- Reads a number literal. -/
def readNumber : Reader Number := fun c =>
  if c.rest.head? == some '-' then readUnsigned true c.skip else readUnsigned false c

end Json
end RemoteModels
