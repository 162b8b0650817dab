/-!
# Ranges of characters

A class of characters given by the first and the last number of each run of its members.
-/

set_option autoImplicit false

namespace Infill

/-- Runs of characters, each by its first and its last number. -/
abbrev CharRanges := List (Nat × Nat)

/-- Whether a character is in one of the ranges. -/
def CharRanges.contains (ranges : CharRanges) (c : Char) : Bool :=
  ranges.any fun (first, last) => first ≤ c.toNat && c.toNat ≤ last

end Infill
