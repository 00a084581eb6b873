/-!
# Ranges of characters

A property of characters is held as its ranges of code points, both ends included.
-/

namespace ComponentSpec.Text

/-- A property of characters, as ranges of code points. -/
abbrev CharRanges := List (Nat × Nat)

def CharRanges.has (ranges : CharRanges) (c : Char) : Bool :=
  ranges.any fun r => r.1 ≤ c.toNat && c.toNat ≤ r.2

end ComponentSpec.Text
