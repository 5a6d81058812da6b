/-!
# Sets of characters

A property of characters is given by the closed ranges of code points that have it.
-/

namespace Flatfile.Text

def inRanges (ranges : List (Nat × Nat)) (c : Char) : Bool :=
  ranges.any fun (low, high) => low ≤ c.toNat && c.toNat ≤ high

end Flatfile.Text
