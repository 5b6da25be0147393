import X86Length.Opcode.Map

/-! # The prefix phase

An instruction starts with any number of prefix bytes, in any order and with repetitions.  The
phase ends at the first byte that is none, or behind the `0F` escape, which selects the escaped
opcode map.  Three kinds of prefix change the length of what follows: the operand-size prefix, the
address-size prefix, and a REX prefix with its W bit.  Each counts wherever it stands in the run;
the others only take up a byte. -/

namespace X86Length

open Opcode (Category Encoding)

/-- What the prefix phase found. -/
structure Prefixes where
  -- How many prefix bytes there are in front of the escape or the opcode.
  legacy : Nat := 0
  escaped : Bool := false
  operand16 : Bool := false
  address16 : Bool := false
  rexW : Bool := false
  deriving DecidableEq, Repr

namespace Prefixes

/-- The escape to the second opcode map. -/
def escapeByte : UInt8 := 0x0F

/-- The operand-size prefix. -/
def operandSizeByte : UInt8 := 0x66

/-- The address-size prefix. -/
def addressSizeByte : UInt8 := 0x67

/-- Is a byte one of the eight REX prefixes with the W bit, `48` to `4F`? -/
def isRexWithW (byte : UInt8) : Bool :=
  byte &&& 0xF8 == 0x48

/-- Is a byte a prefix byte of the one-byte map, the escape included? -/
def isPrefixByte (byte : UInt8) : Bool :=
  (Encoding.ofOpcode false byte).category == .prefixByte

/-- One more prefix byte in front. -/
def push (byte : UInt8) (found : Prefixes) : Prefixes :=
  { found with
    legacy := found.legacy + 1
    operand16 := byte == operandSizeByte || found.operand16
    address16 := byte == addressSizeByte || found.address16
    rexW := isRexWithW byte || found.rexW }

/-- The prefixes at the start of a byte list. -/
def ofBytes : List UInt8 → Prefixes
  | [] => {}
  | byte :: rest =>
    if byte == escapeByte then { escaped := true }
    else if isPrefixByte byte then (ofBytes rest).push byte
    else {}

/-- How many bytes the phase takes, the escape included. -/
def count (found : Prefixes) : Nat :=
  found.legacy + found.escaped.toNat

/-- The number of bytes in an immediate of the operand size.  REX.W wins over the operand-size
    prefix, and makes eight bytes only of an opcode that allows it. -/
def wideImmediate (found : Prefixes) (imm64 : Bool) : Nat :=
  if found.rexW then (if imm64 then 8 else 4)
  else if found.operand16 then 2
  else 4

/-! ## Lemmas -/

@[simp] theorem count_push (byte : UInt8) (found : Prefixes) :
    (found.push byte).count = found.count + 1 := by
  simp [push, count, Nat.add_right_comm]

/-- The phase takes no more bytes than there are. -/
theorem count_ofBytes_le (bytes : List UInt8) : (ofBytes bytes).count ≤ bytes.length := by
  induction bytes with
  | nil => simp [ofBytes, count]
  | cons byte rest ih =>
    unfold ofBytes
    split
    · simp [count]
    · split
      · simpa using ih
      · simp [count]

end Prefixes

end X86Length
