/-!
# Ranges of code points

A class of characters is a list of ranges of code points, both ends included.
-/

namespace OutOfOrder.Text

def inRange (code low high : Nat) : Bool :=
  low ≤ code && code ≤ high

def inRanges (code : Nat) (ranges : List (Nat × Nat)) : Bool :=
  ranges.any fun (low, high) => inRange code low high

end OutOfOrder.Text
