/-! # The length of an instruction

An x86 instruction is a run of prefix bytes, an opcode of one to three bytes, an addressing
part (ModR/M byte, SIB byte and displacement) and an immediate.  `InstructionLength` says how
many bytes each of the four takes; `total` is the length of the whole instruction. -/

namespace X86Length

/-- How many bytes each part of one instruction takes. -/
structure InstructionLength where
  -- Legacy and REX prefix bytes.  The `0F` escape belongs to the opcode.
  prefixes : Nat
  opcode : Nat
  addressing : Nat
  -- Immediate bytes, relative branch targets and absolute offsets included.
  immediate : Nat
  deriving DecidableEq, Repr

/-- The length of the whole instruction. -/
def InstructionLength.total (length : InstructionLength) : Nat :=
  length.prefixes + length.opcode + length.addressing + length.immediate

end X86Length
