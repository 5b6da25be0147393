/-! # Numbers of 64 bits

Sizes and offsets are natural numbers; where one comes from a text or from adding up a request it
is kept below `wordLimit`. -/

namespace X86Length

/-- The first number that does not fit in 64 bits. -/
def wordLimit : Nat := UInt64.size

/-- A number that does not fit in 64 bits becomes the greatest that does. -/
def saturate (n : Nat) : Nat :=
  min n (wordLimit - 1)

end X86Length
