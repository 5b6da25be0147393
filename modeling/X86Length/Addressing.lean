/-! # The addressing part

The addressing part of an instruction is a ModR/M byte, perhaps a SIB byte, and a displacement.
`size32` measures it in the form of 32 and 64-bit addresses, `size16` in the form of 16-bit
addresses.

Where the bytes at hand end too early the answer is `.error needed`: no window shorter than
`needed` bytes can hold the addressing part.  It is the exact size once the deciding bytes are
present, and otherwise just enough to reach the missing deciding byte. -/

namespace X86Length

/-- The three fields of a ModR/M byte. -/
structure ModRM where
  -- The addressing mode; 3 stands for a register operand.
  mode : Fin 4
  -- A register, or an extension of the opcode.
  reg : Fin 8
  rm : Fin 8
  deriving DecidableEq, Repr

/-- The three fields of a SIB byte. -/
structure Sib where
  scale : Fin 4
  -- The index register; 4 stands for none.
  index : Fin 8
  base : Fin 8
  deriving DecidableEq, Repr

namespace ModRM

/-- The fields of a byte: two bits, three bits and three bits, from the top. -/
def ofByte (byte : UInt8) : ModRM where
  mode := Fin.ofNat 4 (byte.toNat / 64)
  reg := Fin.ofNat 8 (byte.toNat / 8)
  rm := Fin.ofNat 8 byte.toNat

/-- Is the operand a register? -/
def namesRegister (modRM : ModRM) : Bool :=
  modRM.mode == 3

/-- Does a SIB byte follow? -/
def hasSib (modRM : ModRM) : Bool :=
  modRM.mode != 3 && modRM.rm == 4

/-- The displacement of the 16-bit form.  Mode 0 has one only in place of a base register. -/
def displacement16 (modRM : ModRM) : Nat :=
  match modRM.mode with
  | 0 => if modRM.rm == 6 then 2 else 0
  | 1 => 1
  | 2 => 2
  | 3 => 0

/-- The displacement of the 32-bit form as far as the ModR/M byte tells.  Mode 0 has one only
    relative to the instruction pointer. -/
def displacement32 (modRM : ModRM) : Nat :=
  match modRM.mode with
  | 0 => if modRM.rm == 5 then 4 else 0
  | 1 => 1
  | 2 => 4
  | 3 => 0

end ModRM

namespace Sib

/-- The fields of a byte: two bits, three bits and three bits, from the top. -/
def ofByte (byte : UInt8) : Sib where
  scale := Fin.ofNat 4 (byte.toNat / 64)
  index := Fin.ofNat 8 (byte.toNat / 8)
  base := Fin.ofNat 8 byte.toNat

/-- The displacement that a SIB byte brings under mode 0: four bytes where it names neither a
    base nor an index register. -/
def displacement (sib : Sib) : Nat :=
  if sib.base == 5 && sib.index == 4 then 4 else 0

end Sib

namespace Addressing

/-- A known size, if the window holds that many bytes. -/
def fitting (window : List UInt8) (size : Nat) : Except Nat Nat :=
  if size ≤ window.length then .ok size else .error size

/-- The size of the addressing part at the start of a window, in the form of 32 and 64-bit
    addresses. -/
def size32 : List UInt8 → Except Nat Nat
  | [] => .error 1
  | byte :: rest =>
    let modRM := ModRM.ofByte byte
    if modRM.hasSib && modRM.mode == 0 then
      match rest with
      | [] => .error 2
      | sib :: _ => fitting (byte :: rest) (2 + (Sib.ofByte sib).displacement)
    else
      fitting (byte :: rest) (1 + modRM.hasSib.toNat + modRM.displacement32)

/-- The size of the addressing part at the start of a window, in the form of 16-bit addresses. -/
def size16 : List UInt8 → Except Nat Nat
  | [] => .error 1
  | byte :: rest => fitting (byte :: rest) (1 + (ModRM.ofByte byte).displacement16)

/-- The size of the addressing part, `address16` choosing the form. -/
def size (address16 : Bool) (window : List UInt8) : Except Nat Nat :=
  if address16 then size16 window else size32 window

end Addressing

end X86Length
