import X86Length.InstructionLength
import X86Length.Opcode.Selection
import X86Length.Prefixes

/-! # Decoding one instruction

`decodeUnbounded` measures the instruction at the start of a byte list in three steps: the prefix
phase, the opcode with its selector, and the operands.  `decode` adds the limit of the
architecture: it looks at the first fifteen bytes only, and where an instruction would need more
than these it is not truncated but too long.

The main statement is that an instruction is never empty and lies within the bytes given
(`decode_ok_bounds`), so that a walk over a byte list makes progress and stays inside. -/

namespace X86Length

open Opcode

/-- The most bytes that an instruction may have. -/
def lengthLimit : Nat := 15

/-- The fewest bytes that an instruction may have. -/
def leastLength : Nat := 1

/-- Have all instructions one length? -/
def hasFixedLength : Bool := false

/-- The reason given where an instruction has no room within the limit. -/
def tooLong : String := "instruction longer than 15 bytes"

/-- The reason given where a prefix byte stands for an opcode. -/
def prefixInOpcodePosition : String := "prefix byte in opcode position"

/-! ## Behind the prefixes -/

/-- What follows the first opcode byte: the bytes of each part. -/
structure Operands where
  extra : Nat
  addressing : Nat
  immediate : Nat
  deriving DecidableEq, Repr

/-- The bytes of an opcode byte and its operands. -/
def Operands.size (operands : Operands) : Nat :=
  1 + operands.extra + operands.addressing + operands.immediate

/-- The length of a whole instruction from its prefixes and operands. -/
def Operands.behind (operands : Operands) (prefixes : Prefixes) : InstructionLength where
  prefixes := prefixes.legacy
  opcode := prefixes.escaped.toNat + 1 + operands.extra
  addressing := operands.addressing
  immediate := operands.immediate

/-- The size of the addressing part, which only the categories with ModR/M have. -/
def addressingSize (prefixes : Prefixes) (category : Category) (window : List UInt8) :
    Except Nat Nat :=
  if category.takesModRM then Addressing.size prefixes.address16 window else .ok 0

/-- The operands of a settled opcode, where `rest` are the bytes behind the opcode byte.  The
    counts of a truncation start at the opcode byte. -/
def measure (prefixes : Prefixes) (opcode : UInt8) (selection : Selection) (rest : List UInt8) :
    Except Fault Operands :=
  let category := selection.encoding.category
  if category = .invalid then
    .error (.invalidOpcode opcode prefixes.escaped)
  else if category = .prefixByte then
    .error (.invalidEncoding prefixInOpcodePosition)
  else
    let immediate := category.immediateSize (prefixes.wideImmediate selection.encoding.imm64)
    match addressingSize prefixes category (rest.drop selection.extra) with
    | .error needed =>
      .error (.truncated (1 + selection.extra + needed + immediate) (1 + rest.length))
    | .ok addressing =>
      let operands : Operands := { extra := selection.extra, addressing, immediate }
      if operands.size ≤ 1 + rest.length then .ok operands
      else .error (.truncated operands.size (1 + rest.length))

/-- The operands of the opcode at the start of the bytes behind the prefixes. -/
def decodeOperands (prefixes : Prefixes) : List UInt8 → Except Fault Operands
  | [] => .error (.truncated 1 0)
  | opcode :: rest =>
    match settle prefixes.escaped opcode rest with
    | .error fault => .error fault
    | .ok selection => measure prefixes opcode selection rest

/-! ## Whole instructions -/

/-- The instruction at the start of a byte list, of whatever length. -/
def decodeUnbounded (bytes : List UInt8) : Except Fault InstructionLength :=
  let prefixes := Prefixes.ofBytes bytes
  match decodeOperands prefixes (bytes.drop prefixes.count) with
  | .error fault => .error (fault.shift prefixes.count)
  | .ok operands => .ok (operands.behind prefixes)

/-- No instruction can take the bytes that this truncation asks for: it is too long. -/
def Fault.limited : Fault → Fault
  | .truncated needed available =>
    if lengthLimit < needed then .invalidEncoding tooLong else .truncated needed available
  | fault => fault

/-- The instruction at the start of a byte list. -/
def decode (bytes : List UInt8) : Except Fault InstructionLength :=
  match decodeUnbounded (bytes.take lengthLimit) with
  | .error fault => .error fault.limited
  | .ok length => .ok length

/-- The instruction at the start of a byte list that stands at an address. -/
def decodeAt (address : UInt64) (bytes : List UInt8) : Except DecodeError InstructionLength :=
  match decode bytes with
  | .error fault => .error { address, fault }
  | .ok length => .ok length

/-- What `sizeOrInvalid` answers where nothing decodes. -/
def invalidSize : Int := -1

/-- The size of the instruction at the start of a byte list as a single number. -/
def sizeOrInvalid (bytes : List UInt8) : Int :=
  match decode bytes with
  | .error _ => invalidSize
  | .ok length => length.total

/-! ## Bounds -/

theorem Operands.total_behind (operands : Operands) (prefixes : Prefixes) :
    (operands.behind prefixes).total = prefixes.count + operands.size := by
  simp only [Operands.behind, InstructionLength.total, Prefixes.count, Operands.size]
  omega

theorem Operands.size_pos (operands : Operands) : 0 < operands.size := by
  simp only [Operands.size]
  omega

/-- The operands that are found lie within the bytes given. -/
theorem size_le_of_measure {prefixes : Prefixes} {opcode : UInt8} {selection : Selection}
    {rest : List UInt8} {operands : Operands}
    (h : measure prefixes opcode selection rest = .ok operands) :
    operands.size ≤ 1 + rest.length := by
  unfold measure at h
  grind

theorem size_le_of_decodeOperands {prefixes : Prefixes} {bytes : List UInt8}
    {operands : Operands} (h : decodeOperands prefixes bytes = .ok operands) :
    operands.size ≤ bytes.length := by
  unfold decodeOperands at h
  split at h
  · cases h
  · split at h
    · cases h
    · have := size_le_of_measure h
      simp only [List.length_cons]
      omega

/-- An instruction that decodes without the limit is not empty and lies within the bytes given. -/
theorem decodeUnbounded_ok_bounds {bytes : List UInt8} {length : InstructionLength}
    (h : decodeUnbounded bytes = .ok length) :
    0 < length.total ∧ length.total ≤ bytes.length := by
  simp only [decodeUnbounded] at h
  split at h
  · cases h
  · rename_i operands hoperands
    cases h
    have hsize := size_le_of_decodeOperands hoperands
    have hpos := operands.size_pos
    rw [Operands.total_behind]
    rw [List.length_drop] at hsize
    omega

/-- An instruction that decodes is not empty, lies within the bytes given and within the limit. -/
theorem decode_ok_bounds {bytes : List UInt8} {length : InstructionLength}
    (h : decode bytes = .ok length) :
    0 < length.total ∧ length.total ≤ bytes.length ∧ length.total ≤ lengthLimit := by
  unfold decode at h
  split at h
  · cases h
  · rename_i found hfound
    cases h
    have hbounds := decodeUnbounded_ok_bounds hfound
    rw [List.length_take] at hbounds
    omega

end X86Length
