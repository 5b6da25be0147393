import X86Length.Text.CodeRange

/-! # Blanks

The characters with the Unicode property `White_Space`.  They separate bytes on the command line,
are trimmed off the parts of a log specification, and may be left out of a spaced pattern. -/

namespace X86Length.Text

/-- The ranges of code points with the property `White_Space`. -/
def blankRanges : List (Nat × Nat) :=
  [ (0x09, 0x0D), (0x20, 0x20), (0x85, 0x85), (0xA0, 0xA0), (0x1680, 0x1680), (0x2000, 0x200A),
    (0x2028, 0x2029), (0x202F, 0x202F), (0x205F, 0x205F), (0x3000, 0x3000) ]

/-- Is a character a blank? -/
def isBlank (c : Char) : Bool :=
  isInRanges blankRanges c

/-- A text without the blanks at its two ends. -/
def trimmed (text : List Char) : List Char :=
  ((text.dropWhile isBlank).reverse.dropWhile isBlank).reverse

end X86Length.Text
