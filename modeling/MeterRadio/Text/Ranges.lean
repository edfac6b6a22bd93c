/-
Module: MeterRadio.Text.Ranges
Purpose: Sets of characters as ranges of code points.
Main exports: Text.inRanges
-/

namespace MeterRadio.Text

/-- Whether a code point lies in one of the ranges, which include their ends. -/
def inRanges (ranges : Array (Nat × Nat)) (n : Nat) : Bool :=
  ranges.any fun range => range.1 ≤ n && n ≤ range.2

end MeterRadio.Text
