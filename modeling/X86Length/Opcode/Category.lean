/-! # What follows an opcode

Many instructions share one shape: what matters for the length is only whether a ModR/M byte
follows the opcode and how wide the immediate is.  `Category` names these shapes, and `Encoding`
adds the two facts about an opcode that its shape alone does not tell. -/

namespace X86Length.Opcode

/-- The shape of the bytes that follow an opcode byte. -/
inductive Category where
  -- No instruction has this opcode.
  | invalid
  -- A prefix byte, the `0F` escape included.
  | prefixByte
  | noOperand
  | modRM
  | modRMImm8
  -- ModR/M, then an immediate of the operand size.
  | modRMImmWide
  | imm8
  | immWide
  | imm16
  -- Two immediate bytes, then one more.
  | imm16Imm8
  deriving DecidableEq, Repr

namespace Category

/-- Every category, in the order of their declaration. -/
def all : List Category :=
  [invalid, prefixByte, noOperand, modRM, modRMImm8, modRMImmWide, imm8, immWide, imm16, imm16Imm8]

/-- The name that a category has in written data. -/
def name : Category → String
  | invalid => "Invalid"
  | prefixByte => "Prefix"
  | noOperand => "NoOperand"
  | modRM => "ModRm"
  | modRMImm8 => "ModRmImm8"
  | modRMImmWide => "ModRmImm16_32"
  | imm8 => "Imm8"
  | immWide => "Imm16_32"
  | imm16 => "Imm16"
  | imm16Imm8 => "Imm16Imm8"

/-- The category of a given name. -/
def ofName? (text : String) : Option Category :=
  all.find? (·.name == text)

/-- Does a ModR/M byte follow the opcode? -/
def takesModRM : Category → Bool
  | modRM | modRMImm8 | modRMImmWide => true
  | _ => false

/-- The number of immediate bytes, where `wide` bytes make an immediate of the operand size. -/
def immediateSize (wide : Nat) : Category → Nat
  | invalid | prefixByte | noOperand | modRM => 0
  | modRMImm8 | imm8 => 1
  | modRMImmWide | immWide => wide
  | imm16 => 2
  | imm16Imm8 => 3

theorem mem_all (category : Category) : category ∈ all := by
  cases category <;> decide

theorem ofName?_name (category : Category) : ofName? category.name = some category := by
  cases category <;> decide

end Category

/-- What an opcode map tells about one opcode byte. -/
structure Encoding where
  category : Category
  -- With REX.W the immediate of the operand size has eight bytes and not four.
  imm64 : Bool := false
  -- The byte after the opcode is needed to tell the shape.
  bySelector : Bool := false
  deriving DecidableEq, Repr

/-- A shape without further conditions. -/
instance : Coe Category Encoding where
  coe category := { category }

end X86Length.Opcode
