/-!
# Character ranges

A property of characters is kept as a list of ranges of code points, both ends included
(`CodeRanges`).
-/

namespace LateBinding

/-- Ranges of code points, both ends included. -/
abbrev CodeRanges := Array (Nat × Nat)

/-- Whether a character lies in one of the ranges. -/
def CodeRanges.holds (ranges : CodeRanges) (c : Char) : Bool :=
  ranges.any fun r => r.1 ≤ c.toNat && c.toNat ≤ r.2

end LateBinding
