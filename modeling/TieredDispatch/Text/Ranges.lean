/-!
# Ranges of characters

Classes of characters that are given as tables of ranges of code points.
-/

namespace TieredDispatch

/-- Whether a character lies in one of the ranges of code points, ends included. -/
def inRanges (ranges : List (Nat × Nat)) (c : Char) : Bool :=
  ranges.any fun (low, high) => low ≤ c.toNat && c.toNat ≤ high

end TieredDispatch
