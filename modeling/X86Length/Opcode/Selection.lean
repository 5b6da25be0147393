import X86Length.Addressing
import X86Length.DecodeError
import X86Length.Opcode.Map

/-! # Opcodes that the next byte decides

For most opcodes the map tells all.  A few need the byte behind them, the selector: it may be an
extra opcode byte, or a ModR/M byte whose `reg` field tells whether an immediate follows.  A
`Selection` is what is settled about an opcode in the end. -/

namespace X86Length.Opcode

open Category

/-- What is settled about an opcode once its selector has been read. -/
structure Selection where
  encoding : Encoding
  -- How many bytes behind the opcode byte belong to the opcode: none or one.
  extra : Nat := 0
  deriving DecidableEq, Repr

/-! ## Sets of selectors -/

/-- The selectors behind `0F 01` that make an opcode of three bytes. -/
def systemSelectors : List ByteRange :=
  [⟨0xC1, 0xC4⟩, ⟨0xC8, 0xC9⟩, ⟨0xD0, 0xD1⟩, ⟨0xF8, 0xF9⟩]

/-- The selectors behind `0F 38`. -/
def plainSelectors : List ByteRange :=
  [⟨0x80, 0x81⟩, ⟨0xF0, 0xF1⟩]

/-- The selectors behind `0F 3A` whose instructions have an immediate byte. -/
def immediateSelectors : List ByteRange :=
  [⟨0x08, 0x0E⟩, ⟨0x14, 0x17⟩, ⟨0x20, 0x22⟩, ⟨0x42, 0x42⟩, ⟨0x60, 0x63⟩]

/-- The selectors behind `0F 3A` whose instructions have none. -/
def immediateFreeSelectors : List ByteRange :=
  [⟨0x0F, 0x0F⟩, ⟨0x40, 0x41⟩]

/-! ## Selection -/

/-- What a selector behind an escaped opcode selects. -/
def selectEscaped (opcode selector : UInt8) : Except Fault Selection :=
  if opcode == 0x01 then
    .ok { encoding := modRM, extra := (ByteRange.anyContains systemSelectors selector).toNat }
  else if opcode == 0x38 then
    if ByteRange.anyContains plainSelectors selector then
      .ok { encoding := modRM, extra := 1 }
    else
      .error (.unknownSubOpcode opcode selector)
  else if opcode == 0x3A then
    if ByteRange.anyContains immediateSelectors selector then
      .ok { encoding := modRMImm8, extra := 1 }
    else if ByteRange.anyContains immediateFreeSelectors selector then
      .ok { encoding := modRM, extra := 1 }
    else
      .error (.unknownSubOpcode opcode selector)
  else
    .error (.invalidOpcode opcode true)

/-- What a selector behind an opcode of the one-byte map selects: in the group `F6` the first two
    members are tests with an immediate byte. -/
def selectPlain (opcode selector : UInt8) : Except Fault Selection :=
  if opcode == 0xF6 then
    .ok { encoding := if (ModRM.ofByte selector).reg.val < 2 then modRMImm8 else modRM }
  else
    .error (.invalidOpcode opcode false)

/-- What the bytes behind an opcode select.  The selector has to be there, whatever the opcode. -/
def select (escaped : Bool) (opcode : UInt8) : List UInt8 → Except Fault Selection
  | [] => .error (.truncated 2 1)
  | selector :: _ =>
    if escaped then selectEscaped opcode selector else selectPlain opcode selector

/-- What is settled about an opcode, from the map in force and, where that is not enough, from the
    bytes behind. -/
def settle (escaped : Bool) (opcode : UInt8) (rest : List UInt8) : Except Fault Selection :=
  let encoding := Encoding.ofOpcode escaped opcode
  if encoding.bySelector then select escaped opcode rest else .ok { encoding }

end X86Length.Opcode
