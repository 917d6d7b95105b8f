import RemoteModels.Decimal.Shortest
import RemoteModels.Members

/-!
# JSON values

A document may write members in any order and numbers in many ways.  Two values are the same if
nothing but this is different, and two numbers of different kinds never are.

* `Json.Number` — the three kinds of number: natural below `2 ^ 64`, negative from `-2 ^ 63`, and
  double precision for everything else.
* `Json.Value` — values; the members of an object keep the order of the document.
* `Json.Value.same` — equality that ignores the order of members and tells `1` from `1.0`.
-/

set_option autoImplicit false

namespace RemoteModels
namespace Json

/-- A number: integers keep their exact value while they fit 64 bits. -/
inductive Number where
  | natural (n : UInt64)
  | negative (n : Int64)
  | real (x : Binary64)
deriving DecidableEq

namespace Number

/-- The number of an integer, when it fits 64 bits. -/
def ofInt? (i : Int) : Option Number :=
  if 0 ≤ i then
    if i < Int.pow 2 64 then some (.natural (UInt64.ofNat i.toNat)) else none
  else if -Int.pow 2 63 ≤ i then some (.negative (Int64.ofInt i)) else none

/-- The decimal text: integers digit by digit, doubles with their shortest numeral. -/
def text : Number → String
  | .natural n => String.ofList (Nat.toDigits 10 n.toNat)
  | .negative n => "-" ++ String.ofList (Nat.toDigits 10 n.toInt.natAbs)
  | .real x => x.text

/-- Equality of kind and value; the two zeros are equal. -/
def same : Number → Number → Bool
  | .natural a, .natural b => a == b
  | .negative a, .negative b => a == b
  | .real a, .real b => a.sameValue b
  | _, _ => false

end Number

/-- A JSON value. -/
inductive Value where
  | null
  | bool (b : Bool)
  | number (n : Number)
  | string (s : String)
  | array (items : List Value)
  | object (members : List (String × Value))

instance : Inhabited Value := ⟨.null⟩

/-- The members of an object. -/
abbrev Object := Members Value

namespace Value

def isNull : Value → Bool
  | .null => true
  | _ => false

def asObject? : Value → Option Object
  | .object m => some m
  | _ => none

mutual

/-- Equality up to the order of members. -/
def same : Value → Value → Bool
  | .null, .null => true
  | .bool a, .bool b => a == b
  | .number a, .number b => a.same b
  | .string a, .string b => a == b
  | .array a, .array b => sameItems a b
  | .object a, .object b => a.length == b.length && sameMembers a b
  | _, _ => false

/-- Item by item, in order. -/
def sameItems : List Value → List Value → Bool
  | [], [] => true
  | a :: as, b :: bs => same a b && sameItems as bs
  | _, _ => false

/-- Every member on the left has an equal one of its name on the right. -/
def sameMembers : List (String × Value) → List (String × Value) → Bool
  | [], _ => true
  | (k, v) :: rest, other =>
    (match Members.get? other k with
      | some w => same v w
      | none => false) && sameMembers rest other

end

end Value
end Json
end RemoteModels
