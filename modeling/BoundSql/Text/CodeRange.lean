/-!
# Ranges of code points

Properties of characters are listed as ranges of code points, both ends included.
-/

namespace BoundSql.Text

/-- Whether the code point lies in one of the ranges. -/
def inRanges (ranges : List (Nat × Nat)) (n : Nat) : Bool :=
  ranges.any fun (lo, hi) => decide (lo ≤ n) && decide (n ≤ hi)

end BoundSql.Text
