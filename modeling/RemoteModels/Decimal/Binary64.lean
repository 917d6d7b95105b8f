/-!
# Double-precision numbers as exact dyadic rationals

A finite double-precision number is `± mantissa · 2 ^ exponent`.  Keeping the two integers in place
of a machine word makes every operation here exact natural-number arithmetic followed by one
rounding, so a value can be computed, compared and reasoned about.

* `Binary64` — the finite numbers in canonical form; there is no infinity and no not-a-number.
* `Binary64.round` — the nearest number to a fraction, ties to the even mantissa, `none` when the
  result would be infinite.
* `Binary64.mul`, `Binary64.div`, `Binary64.ofDecimal` — one rounding of the exact result each.
-/

set_option autoImplicit false

namespace RemoteModels

/-! ## Canonical form

Each finite number has one canonical pair, so that two numbers are the same exactly if their parts
are; only the two zeros are the same number with different parts. -/

/-- The pairs that stand for a finite double: a full 53-bit mantissa, or a shorter one at the
least exponent. -/
def Binary64.Canonical (mantissa : Nat) (exponent : Int) : Prop :=
  mantissa < Nat.pow 2 53 ∧ (-1074) ≤ exponent ∧ exponent ≤ 971 ∧
    (Nat.pow 2 52 ≤ mantissa ∨ exponent = -1074)

instance (mantissa : Nat) (exponent : Int) : Decidable (Binary64.Canonical mantissa exponent) :=
  inferInstanceAs (Decidable (_ ∧ _ ∧ _ ∧ _))

/-- A finite double-precision number `± mantissa · 2 ^ exponent`. -/
structure Binary64 where
  negative : Bool
  mantissa : Nat
  exponent : Int
  canonical : Binary64.Canonical mantissa exponent
deriving DecidableEq

namespace Binary64

/-- Zero with a sign. -/
def zero (negative : Bool) : Binary64 :=
  ⟨negative, 0, -1074, by decide⟩

instance : Inhabited Binary64 := ⟨zero false⟩

/-- The number with these parts, when they are canonical. -/
def ofParts? (negative : Bool) (mantissa : Nat) (exponent : Int) : Option Binary64 :=
  if h : Canonical mantissa exponent then some ⟨negative, mantissa, exponent, h⟩ else none

def isZero (x : Binary64) : Bool := x.mantissa == 0

/-- The number with its sign replaced. -/
def withSign (x : Binary64) (negative : Bool) : Binary64 := { x with negative }

/-- Numeric equality: the two zeros are equal. -/
def sameValue (x y : Binary64) : Bool := (x.isZero && y.isZero) || x == y

/-! ## Rounding

Fractions of natural numbers stand for the exact results.  The exponent is chosen first, by the size
of the fraction, and the mantissa is then rounded once. -/

/-- The integer nearest to `num / den`, an exact half going to the even one. -/
def roundDiv (num den : Nat) : Nat :=
  let q := num / den
  let r := num % den
  if 2 * r < den then q
  else if den < 2 * r then q + 1
  else if q % 2 = 0 then q else q + 1

/-- The fraction `num / den` divided by `2 ^ exponent`. -/
def scale (num den : Nat) (exponent : Int) : Nat × Nat :=
  if 0 ≤ exponent then (num, den * Nat.pow 2 exponent.toNat)
  else (num * Nat.pow 2 (-exponent).toNat, den)

/-- The exponent at which `num / den` has a mantissa of 53 bits, but at least `-1074`. -/
def exponentFor (num den : Nat) : Int :=
  let e := max ((Nat.log2 num : Int) - (Nat.log2 den : Int) - 53) (-1074)
  let s := scale num den e
  if Nat.pow 2 53 ≤ s.1 / s.2 then e + 1 else e

/-- The double nearest to the fraction `num / den`, ties to the even mantissa; `none` when it lies
beyond the largest finite number. -/
def round (negative : Bool) (num den : Nat) : Option Binary64 :=
  if num = 0 then some (zero negative)
  else
    let e := exponentFor num den
    let s := scale num den e
    let m := roundDiv s.1 s.2
    if m = Nat.pow 2 53 then ofParts? negative (Nat.pow 2 52) (e + 1) else ofParts? negative m e

/-- The double nearest to a natural number. -/
def ofNat? (n : Nat) : Option Binary64 := round false n 1

/-- The value of `mantissa · 2 ^ exponent` as a fraction. -/
def fraction (x : Binary64) : Nat × Nat :=
  if 0 ≤ x.exponent then (x.mantissa * Nat.pow 2 x.exponent.toNat, 1)
  else (x.mantissa, Nat.pow 2 (-x.exponent).toNat)

def mul (x y : Binary64) : Option Binary64 :=
  round (x.negative != y.negative) (x.fraction.1 * y.fraction.1) (x.fraction.2 * y.fraction.2)

/-- The rounded quotient; `y` is not zero where this is used. -/
def div (x y : Binary64) : Option Binary64 :=
  round (x.negative != y.negative) (x.fraction.1 * y.fraction.2) (x.fraction.2 * y.fraction.1)

/-! ## Decimal numerals

A numeral may have an exponent of any size, and its power of ten is computed only where it can
matter. -/

/-- The double nearest to `digits · 10 ^ exponent`.  A numeral of `n` digits lies in
`[10 ^ (n - 1), 10 ^ n)`, so far outside the range of doubles the answer is known without the
power. -/
def ofDecimal (negative : Bool) (digits : Nat) (exponent : Int) : Option Binary64 :=
  let magnitude : Int := exponent + (Nat.toDigits 10 digits).length
  if digits = 0 ∨ magnitude < -330 then some (zero negative)
  else if 330 < magnitude then none
  else if 0 ≤ exponent then round negative (digits * Nat.pow 10 exponent.toNat) 1
  else round negative digits (Nat.pow 10 (-exponent).toNat)

end Binary64
end RemoteModels
