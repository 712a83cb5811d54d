/-!
# Sets of code points

A set of characters is given by the ranges of code points that make it up.
-/

namespace RhythmFilter.Text

/-- The code points from the first number to the second, both included. -/
abbrev CodeRange := Nat × Nat

def covers (ranges : List CodeRange) (n : Nat) : Bool :=
  ranges.any fun r => decide (r.1 ≤ n) && decide (n ≤ r.2)

end RhythmFilter.Text
