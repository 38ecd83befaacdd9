/-!
Classes of characters as tables of ranges.
-/

namespace Sideload

/-- Ranges of character numbers, both ends included, in ascending order. -/
abbrev RangeTable := List (Nat × Nat)

namespace RangeTable

/-- Whether a number lies in one of the ranges. The search ends at the first range above it. -/
def holds : RangeTable → Nat → Bool
  | [], _ => false
  | (lo, hi) :: rest, n => if n < lo then false else n ≤ hi || holds rest n

/-- Every range is in order and lies above those before it. -/
def isAscending : RangeTable → Bool
  | [] => true
  | [(lo, hi)] => lo ≤ hi
  | (lo, hi) :: (lo', hi') :: rest => lo ≤ hi && hi < lo' && isAscending ((lo', hi') :: rest)

def hasChar (t : RangeTable) (c : Char) : Bool := t.holds c.toNat

end RangeTable

end Sideload
