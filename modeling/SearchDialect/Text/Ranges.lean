/-!
# Sets of characters

A set of characters given by the ranges of their code points, ends included.
-/

namespace SearchDialect.Text

/-- Whether a code point lies in one of some ranges. -/
def inRanges (ranges : List (Nat × Nat)) (n : Nat) : Bool :=
  ranges.any fun r => r.1 ≤ n && n ≤ r.2

end SearchDialect.Text
