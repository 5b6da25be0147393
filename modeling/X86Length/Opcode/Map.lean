import X86Length.Opcode.ByteRange
import X86Length.Opcode.Category

/-! # The opcode maps

There are two maps: the one-byte map, and the map of the opcodes behind the `0F` escape.  Each is
a list of rows, a row giving one encoding to a range of opcode bytes.  An opcode that no row
covers is invalid in the one-byte map, and takes a plain ModR/M byte in the escaped map.

The rows of a map do not overlap, so their order has no meaning; they are in the order of the
opcodes. -/

namespace X86Length.Opcode

/-- One row of an opcode map. -/
structure Row where
  opcodes : ByteRange
  encoding : Encoding
  deriving DecidableEq, Repr

/-- The row of a single opcode. -/
def Row.one (opcode : UInt8) (encoding : Encoding) : Row :=
  { opcodes := { first := opcode }, encoding }

/-- The row of a run of opcodes, both ends included. -/
def Row.run (first last : UInt8) (encoding : Encoding) : Row :=
  { opcodes := { first, last }, encoding }

open Category Row

/-! ## The one-byte map -/

/-- The rows of one line of arithmetic, eight opcodes wide: four forms with ModR/M, one with an
    immediate byte, one with an immediate of the operand size. -/
def arithmeticRows (line : UInt8) : List Row :=
  [run line (line + 3) modRM, one (line + 4) imm8, one (line + 5) immWide]

/-- The rows of the one-byte map. -/
def oneByteRows : List Row :=
  arithmeticRows 0x00 ++ arithmeticRows 0x08 ++ [one 0x0F prefixByte] ++
  arithmeticRows 0x10 ++ arithmeticRows 0x18 ++
  arithmeticRows 0x20 ++ [one 0x26 prefixByte] ++
  arithmeticRows 0x28 ++ [one 0x2E prefixByte] ++
  arithmeticRows 0x30 ++ [one 0x36 prefixByte] ++
  arithmeticRows 0x38 ++ [one 0x3E prefixByte] ++
  [ -- REX, then push and pop of a register
    run 0x40 0x4F prefixByte, run 0x50 0x5F noOperand,
    -- sign extension, segment and size overrides, push, multiply, string input and output
    one 0x63 modRM, run 0x64 0x67 prefixByte, one 0x68 immWide, one 0x69 modRMImmWide,
    one 0x6A imm8, one 0x6B modRMImm8, run 0x6C 0x6F noOperand,
    -- short conditional jumps
    run 0x70 0x7F imm8,
    -- arithmetic with an immediate, test, exchange, move, load address, pop
    one 0x80 modRMImm8, one 0x81 modRMImmWide, one 0x83 modRMImm8, run 0x84 0x8F modRM,
    -- exchange with the accumulator, sign extension, flags
    run 0x90 0x99 noOperand, run 0x9B 0x9F noOperand,
    -- accumulator and absolute offset, string operations, test
    one 0xA0 imm8, one 0xA1 immWide, one 0xA2 imm8, one 0xA3 immWide, run 0xA4 0xA7 noOperand,
    one 0xA8 imm8, one 0xA9 immWide, run 0xAA 0xAF noOperand,
    -- move of an immediate to a register
    run 0xB0 0xB7 imm8, run 0xB8 0xBF { category := immWide, imm64 := true },
    -- shifts, returns, move of an immediate, stack frames, interrupts
    run 0xC0 0xC1 modRMImm8, one 0xC2 imm16, one 0xC3 noOperand, one 0xC6 modRMImm8,
    one 0xC7 modRMImmWide, one 0xC8 imm16Imm8, one 0xC9 noOperand, one 0xCA imm16,
    run 0xCB 0xCC noOperand, one 0xCD imm8, run 0xCE 0xCF noOperand,
    -- shifts by one or by a register, table look-up, floating point
    run 0xD0 0xD3 modRM, one 0xD7 noOperand, run 0xD8 0xDF modRM,
    -- loops, ports, calls and jumps
    run 0xE0 0xE7 imm8, run 0xE8 0xE9 immWide, one 0xEB imm8, run 0xEC 0xEF noOperand,
    -- lock and repeat, halt, flags, the three groups of one-operand instructions
    one 0xF0 prefixByte, one 0xF1 noOperand, run 0xF2 0xF3 prefixByte, run 0xF4 0xF5 noOperand,
    one 0xF6 { category := modRM, bySelector := true }, one 0xF7 modRM, run 0xF8 0xFD noOperand,
    run 0xFE 0xFF modRM ]

/-! ## The escaped map -/

/-- The rows of the map behind the `0F` escape. -/
def escapedRows : List Row :=
  [ one 0x01 { category := noOperand, bySelector := true }, one 0x04 invalid,
    run 0x05 0x09 noOperand, one 0x0A invalid, one 0x0B noOperand, one 0x0C invalid,
    one 0x0D noOperand, run 0x0E 0x0F invalid, run 0x24 0x27 invalid,
    -- model-specific registers, counters, fast system calls; two more escapes
    run 0x30 0x35 noOperand, one 0x36 invalid, one 0x37 noOperand,
    one 0x38 { category := modRM, bySelector := true }, one 0x39 invalid,
    one 0x3A { category := modRM, bySelector := true }, run 0x3B 0x3F invalid,
    -- packed shuffles and shifts
    run 0x70 0x73 modRMImm8, one 0x77 noOperand, run 0x7A 0x7B invalid,
    -- long conditional jumps
    run 0x80 0x8F immWide,
    -- segment registers, processor identification, double shifts
    run 0xA0 0xA2 noOperand, one 0xA4 modRMImm8, run 0xA6 0xA7 invalid, run 0xA8 0xAA noOperand,
    one 0xAC modRMImm8,
    -- bit tests, packed compares and inserts, byte swaps
    one 0xBA modRMImm8, one 0xC2 modRMImm8, run 0xC4 0xC6 modRMImm8, run 0xC8 0xCF noOperand,
    one 0xFF invalid ]

/-! ## Look-up -/

/-- The encoding that rows give to an opcode, or `otherwise` if none covers it. -/
def encodingIn (rows : List Row) (otherwise : Encoding) (opcode : UInt8) : Encoding :=
  ((rows.find? (·.opcodes.contains opcode)).map (·.encoding)).getD otherwise

/-- What the map in force tells about an opcode byte; `escaped` says whether the `0F` escape
    stands in front of it. -/
def Encoding.ofOpcode (escaped : Bool) (opcode : UInt8) : Encoding :=
  if escaped then encodingIn escapedRows modRM opcode else encodingIn oneByteRows invalid opcode

end X86Length.Opcode
