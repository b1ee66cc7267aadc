/-!
# Sets of characters

A property of characters is kept as the increasing list of the ranges of code points that have it.
-/

namespace TapeMachine.Text

/-- Ranges of code points, both ends included. -/
abbrev CodeRanges := List (Nat × Nat)

/-- Whether `c` lies in one of the ranges. -/
def CodeRanges.contains (ranges : CodeRanges) (c : Char) : Bool :=
  ranges.any fun (first, last) => first ≤ c.toNat && c.toNat ≤ last

end TapeMachine.Text
