/-! # Ranges of code points

Classes of characters are written as lists of ranges. -/

namespace X86Length.Text

/-- Is a character in one of some ranges, each given by its first and last code point? -/
def isInRanges (ranges : List (Nat × Nat)) (c : Char) : Bool :=
  ranges.any fun range => decide (range.1 ≤ c.toNat) && decide (c.toNat ≤ range.2)

end X86Length.Text
