/-
Sets of characters given by ranges of code points, as in the tables of the
Unicode standard.
-/

namespace VmFleet.Text

/-- Code points from the first to the second number, both included. -/
abbrev CodeRanges := List (Nat × Nat)

namespace CodeRanges

def contains (ranges : CodeRanges) (c : Char) : Bool :=
  ranges.any fun (first, last) => first ≤ c.toNat && c.toNat ≤ last

end CodeRanges

end VmFleet.Text
