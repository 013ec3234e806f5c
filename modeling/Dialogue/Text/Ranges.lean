/-!
# Ranges of code points

A property of characters is given as a list of ranges, each by its first and last number.
-/

namespace Dialogue.Text

def inRanges (ranges : List (Nat × Nat)) (n : Nat) : Bool :=
  ranges.any fun r => r.1 ≤ n && n ≤ r.2

end Dialogue.Text
