/-!
# Sets of code points given by boundaries

A set of code points is written as an ascending list of boundaries: it starts outside, and
every boundary switches between outside and inside.
-/

namespace JavaDeps.Text

/-- The boundaries of a set of code points, in ascending order. -/
structure Ranges where
  bounds : Array Nat

namespace Ranges

/-- The boundaries at the given distances from one another, the first one from `start`. -/
def boundsFrom (start : Nat) : List Nat → List Nat
  | [] => []
  | gap :: rest => (start + gap) :: boundsFrom (start + gap) rest

/-- The numbers that a text stands for, `value` being what was read of the first one. The signs from
`]` on are the digits of a number in base 30, and one of the signs from `#` to `[` ends it: it has
the last digit, in base 57. -/
def readNumbers (value : Nat) : List UInt8 → List Nat
  | [] => []
  | sign :: rest =>
    if sign.toNat < 93 then (value * 57 + (sign.toNat - 35)) :: readNumbers 0 rest
    else readNumbers (value * 30 + (sign.toNat - 93)) rest

def numbers (lines : List String) : List Nat :=
  readNumbers 0 (lines.flatMap (·.toByteArray.data.toList))

/-- A set of code points by the distance of each boundary from the one before it. -/
def ofGaps (lines : List String) : Ranges := ⟨(boundsFrom 0 (numbers lines)).toArray⟩

/-- Number of boundaries that are at most `n`, searched between `lo` and `hi`. -/
def countUpTo (r : Ranges) (n : Nat) : Nat → Nat → Nat → Nat
  | 0, lo, _ => lo
  | fuel + 1, lo, hi =>
    if lo < hi then
      let mid := (lo + hi) / 2
      if r.bounds.getD mid 0 ≤ n then countUpTo r n fuel (mid + 1) hi
      else countUpTo r n fuel lo mid
    else lo

/-- A code point is inside when an odd number of boundaries is at most it. -/
def contains (r : Ranges) (n : Nat) : Bool :=
  r.countUpTo n r.bounds.size 0 r.bounds.size % 2 == 1

end Ranges

end JavaDeps.Text
