import RemoteModels.Text.Upper

/-!
# Lower case

The lower case of a letter, as one character: the letter whose upper case it is.  Where several
letters share an upper case, the one in the longest alphabet run counts.
-/

set_option autoImplicit false

namespace RemoteModels
namespace Text

/-- The runs that lead to a character. -/
def runsTo (n : Nat) : List UpperRun :=
  upperRuns.filter fun r =>
    let source : Int := n - r.distance
    r.first ≤ source && source ≤ r.last && (source - r.first) % r.step == 0

/-- The longer of two runs, the first if they are equally long. -/
def longerRun (a b : UpperRun) : UpperRun :=
  if a.last - a.first < b.last - b.first then b else a

/-- The lower case of a character. -/
def lowerChar (c : Char) : Char :=
  match runsTo c.toNat with
  | [] => c
  | r :: rest => Char.ofNat ((c.toNat : Int) - (rest.foldl longerRun r).distance).toNat

end Text
end RemoteModels
