/-!
# Sets of characters as ranges of code points
-/

namespace Abacus.Text

def inRanges (ranges : List (Nat × Nat)) (c : Char) : Bool :=
  ranges.any fun (low, high) => low ≤ c.toNat && c.toNat ≤ high

end Abacus.Text
