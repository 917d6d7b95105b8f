import RemoteModels.Decimal.Binary64

/-!
# The fewest decimal digits that read back

Every double is the nearest one to a whole interval of real numbers.  The shortest numeral of a
double is the point of that interval on the coarsest decimal grid that has one; of two such points
the nearer is taken, and of two equally near the one with the even last digit.

* `Binary64.interval` — the interval, scaled to integers.
* `Binary64.shortest` — the digits and the power of ten of the shortest numeral.
* `Binary64.text` — that numeral written out: positional from `1e-5` up to `1e16`, with an exponent
  outside.
-/

set_option autoImplicit false

namespace RemoteModels
namespace Binary64

/-! ## The interval of a double

All numbers in it are rounded to the double.  Its ends belong to it if the mantissa is even, since a
tie goes to the even one. -/

/-- The ends of the rounding interval and the value between them, in units of
`2 ^ (exponent - 2)`.  Below a power of two the spacing is half as wide. -/
structure Interval where
  lower : Nat
  value : Nat
  upper : Nat
  closed : Bool

/-- The interval of a number, with its ends at half the distance to the neighbours. -/
def interval (x : Binary64) : Interval :=
  let m := x.mantissa
  { lower := if m = Nat.pow 2 52 ∧ x.exponent ≠ -1074 then 4 * m - 1 else 4 * m - 2
    value := 4 * m
    upper := 4 * m + 2
    closed := m % 2 == 0 }

/-- The interval and the grid `10 ^ k` brought to one scale: `(lower, value, upper, step)`. -/
def onGrid (x : Binary64) (k : Int) : Nat × Nat × Nat × Nat :=
  let i := x.interval
  let two := x.exponent - 2
  let up := Nat.pow 2 two.toNat * Nat.pow 10 (-k).toNat
  let step := Nat.pow 2 (-two).toNat * Nat.pow 10 k.toNat
  (i.lower * up, i.value * up, i.upper * up, step)

/-- The multiple of `10 ^ k` nearest to the value among those inside the interval. -/
def gridPoint? (x : Binary64) (k : Int) : Option Nat :=
  let (lower, value, upper, step) := x.onGrid k
  let inside (p : Nat) : Bool :=
    if x.interval.closed then lower ≤ p && p ≤ upper else lower < p && p < upper
  let below := value / step
  let above := below + 1
  match inside (below * step), inside (above * step) with
  | true, true =>
    let down := value - below * step
    let up := above * step - value
    if down < up then some below
    else if up < down then some above
    else if below % 2 = 0 then some below else some above
  | true, false => some below
  | false, true => some above
  | false, false => none

/-! ## The shortest numeral

A coarser grid means fewer digits, so the first grid with a point in the interval has the shortest
numeral. -/

/-- Digits and exponent of a decimal numeral `digits · 10 ^ exponent`. -/
structure Numeral where
  digits : Nat
  exponent : Int

/-- The shortest numeral that reads back as this (non-zero) number.  The grids are tried from a
power of ten above the number down to one below its seventeenth digit. -/
def shortest (x : Binary64) : Numeral :=
  let start : Int := ((Nat.log2 x.mantissa : Int) + x.exponent + 1) * 30103 / 100000 + 2
  let found := (List.range 26).findSome? fun (i : Nat) =>
    (x.gridPoint? (start - i)).map fun d => Numeral.mk d (start - i)
  found.getD ⟨x.mantissa, x.exponent⟩

/-! ## Its text

The same digits can be written with a point among them or with an exponent; which one it is depends
on the size of the number. -/

/-- The numeral `d.ddd · 10 ^ e` is written positionally for `positionalFrom ≤ e ≤ positionalTo`. -/
structure Layout where
  positionalFrom : Int
  positionalTo : Int

/-- Positional notation from `0.00001` up to sixteen digits before the point. -/
def decimalLayout : Layout := ⟨-5, 15⟩

/-- The digits with a point, or with an exponent that always carries its sign. -/
def Numeral.text (form : Layout) (n : Numeral) : String :=
  let ds := Nat.toDigits 10 n.digits
  let e : Int := n.exponent + ds.length - 1
  if form.positionalFrom ≤ e ∧ e ≤ form.positionalTo then
    if 0 ≤ n.exponent then String.ofList (ds ++ List.replicate n.exponent.toNat '0' ++ ['.', '0'])
    else if 0 ≤ e then
      String.ofList (ds.take (e.toNat + 1) ++ '.' :: ds.drop (e.toNat + 1))
    else String.ofList ('0' :: '.' :: List.replicate ((-e).toNat - 1) '0' ++ ds)
  else
    let mantissa := match ds with
      | [] => []
      | [d] => [d]
      | d :: rest => d :: '.' :: rest
    let sign := if e < 0 then '-' else '+'
    String.ofList (mantissa ++ 'e' :: sign :: Nat.toDigits 10 e.natAbs)

/-- The text of a double: its shortest numeral, `0.0` for zero, and a sign in front. -/
def text (x : Binary64) : String :=
  let body := if x.isZero then "0.0" else x.shortest.text decimalLayout
  if x.negative then "-" ++ body else body

end Binary64
end RemoteModels
