import X86Length.Text.Numeral

/-! # Why bytes do not decode

A `Fault` is the reason why the bytes at some place are no instruction.  It depends on these bytes
alone; a `DecodeError` adds the address at which they stand, and `message` is its text.

Only `Fault.truncated` asks for more bytes: every other fault is final. -/

namespace X86Length

/-- Why bytes are no instruction. -/
inductive Fault where
  -- No instruction has this opcode; `escaped` tells the map.
  | invalidOpcode (opcode : UInt8) (escaped : Bool)
  -- The byte behind a second escape selects no instruction.
  | unknownSubOpcode (opcode sub : UInt8)
  -- The bytes at hand end inside the instruction, which needs at least `needed` of them.
  | truncated (needed available : Nat)
  -- The bytes break a rule on instructions as a whole.
  | invalidEncoding (reason : String)
  deriving DecidableEq, Repr

/-- A fault and the address of the instruction that has it. -/
structure DecodeError where
  address : UInt64
  fault : Fault
  deriving DecidableEq, Repr

namespace Fault

/-- The fault as seen from `n` bytes further back: the counts of a truncation grow. -/
def shift (n : Nat) : Fault → Fault
  | truncated needed available => truncated (n + needed) (n + available)
  | fault => fault

/-- Could more bytes help? -/
def isTruncated : Fault → Bool
  | truncated .. => true
  | _ => false

@[simp] theorem shift_zero (fault : Fault) : fault.shift 0 = fault := by
  cases fault <;> simp [shift]

@[simp] theorem isTruncated_shift (n : Nat) (fault : Fault) :
    (fault.shift n).isTruncated = fault.isTruncated := by
  cases fault <;> rfl

end Fault

namespace DecodeError

/-- Could more bytes help? -/
def isTruncated (error : DecodeError) : Bool :=
  error.fault.isTruncated

/-- The text of an error. -/
def message (error : DecodeError) : String :=
  let place := Text.hexadecimal error.address.toNat
  match error.fault with
  | .invalidOpcode opcode escaped =>
    "invalid opcode at " ++ place ++ ": " ++ (if escaped then "0f " else "") ++ Text.hexByte opcode
  | .unknownSubOpcode opcode sub =>
    "unknown sub-opcode at " ++ place ++ ": 0f " ++ Text.hexByte opcode ++ " " ++ Text.hexByte sub
  | .truncated needed available =>
    "truncated instruction at " ++ place ++ ": need " ++ Text.decimal needed ++ " bytes, have " ++
      Text.decimal available
  | .invalidEncoding reason => "invalid encoding at " ++ place ++ ": " ++ reason

end DecodeError

end X86Length
