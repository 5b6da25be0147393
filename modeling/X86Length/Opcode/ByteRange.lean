/-! # Ranges of byte values

The opcode maps and the sets of selector bytes are written as lists of ranges. -/

namespace X86Length.Opcode

/-- The byte values from `first` to `last`, both included. -/
structure ByteRange where
  first : UInt8
  last : UInt8 := first
  deriving DecidableEq, Repr

/-- Is a byte one of the range? -/
def ByteRange.contains (range : ByteRange) (byte : UInt8) : Bool :=
  range.first.toNat.ble byte.toNat && byte.toNat.ble range.last.toNat

/-- Is a byte in one of the ranges of a list? -/
def ByteRange.anyContains (ranges : List ByteRange) (byte : UInt8) : Bool :=
  ranges.any (·.contains byte)

theorem ByteRange.contains_iff (range : ByteRange) (byte : UInt8) :
    range.contains byte = true ↔ range.first ≤ byte ∧ byte ≤ range.last := by
  simp [ByteRange.contains, UInt8.le_iff_toNat_le]

/-- A statement about all bytes, settled value by value. -/
theorem forall_byte {p : UInt8 → Prop} (values : ∀ n < 256, p (UInt8.ofNat n)) :
    ∀ byte, p byte := by
  intro byte
  rw [← UInt8.ofNat_toNat (x := byte)]
  exact values byte.toNat byte.toNat_lt

end X86Length.Opcode
