import X86Length.Opcode.Map

/-! # The opcode maps, line by line

Both maps written out from the first opcode to the last, the invalid ones included.  A line gives
one encoding to a run of opcodes, and the lines follow each other without gap or overlap
(`consecutive_mapLines`), so nothing is left to a default or to their order.  The tables in which
the decoder looks opcodes up say the same of every opcode (`ofOpcode_eq_iff`). -/

namespace X86Length.Opcode

open Category

/-- The opcodes from `first` to `last`, which share one encoding. -/
structure Line where
  first : Nat
  last : Nat
  encoding : Encoding
  deriving DecidableEq

/-- The map of the opcodes without an escape in front. -/
def oneByteLines : List Line :=
  [⟨0x00, 0x03, modRM⟩, ⟨0x04, 0x04, imm8⟩, ⟨0x05, 0x05, immWide⟩, ⟨0x06, 0x07, invalid⟩,
   ⟨0x08, 0x0B, modRM⟩, ⟨0x0C, 0x0C, imm8⟩, ⟨0x0D, 0x0D, immWide⟩, ⟨0x0E, 0x0E, invalid⟩,
   ⟨0x0F, 0x0F, prefixByte⟩,
   ⟨0x10, 0x13, modRM⟩, ⟨0x14, 0x14, imm8⟩, ⟨0x15, 0x15, immWide⟩, ⟨0x16, 0x17, invalid⟩,
   ⟨0x18, 0x1B, modRM⟩, ⟨0x1C, 0x1C, imm8⟩, ⟨0x1D, 0x1D, immWide⟩, ⟨0x1E, 0x1F, invalid⟩,
   ⟨0x20, 0x23, modRM⟩, ⟨0x24, 0x24, imm8⟩, ⟨0x25, 0x25, immWide⟩, ⟨0x26, 0x26, prefixByte⟩,
   ⟨0x27, 0x27, invalid⟩,
   ⟨0x28, 0x2B, modRM⟩, ⟨0x2C, 0x2C, imm8⟩, ⟨0x2D, 0x2D, immWide⟩, ⟨0x2E, 0x2E, prefixByte⟩,
   ⟨0x2F, 0x2F, invalid⟩,
   ⟨0x30, 0x33, modRM⟩, ⟨0x34, 0x34, imm8⟩, ⟨0x35, 0x35, immWide⟩, ⟨0x36, 0x36, prefixByte⟩,
   ⟨0x37, 0x37, invalid⟩,
   ⟨0x38, 0x3B, modRM⟩, ⟨0x3C, 0x3C, imm8⟩, ⟨0x3D, 0x3D, immWide⟩, ⟨0x3E, 0x3E, prefixByte⟩,
   ⟨0x3F, 0x3F, invalid⟩,
   ⟨0x40, 0x4F, prefixByte⟩, ⟨0x50, 0x5F, noOperand⟩,
   ⟨0x60, 0x62, invalid⟩, ⟨0x63, 0x63, modRM⟩, ⟨0x64, 0x67, prefixByte⟩, ⟨0x68, 0x68, immWide⟩,
   ⟨0x69, 0x69, modRMImmWide⟩, ⟨0x6A, 0x6A, imm8⟩, ⟨0x6B, 0x6B, modRMImm8⟩,
   ⟨0x6C, 0x6F, noOperand⟩,
   ⟨0x70, 0x7F, imm8⟩,
   ⟨0x80, 0x80, modRMImm8⟩, ⟨0x81, 0x81, modRMImmWide⟩, ⟨0x82, 0x82, invalid⟩,
   ⟨0x83, 0x83, modRMImm8⟩, ⟨0x84, 0x8F, modRM⟩,
   ⟨0x90, 0x99, noOperand⟩, ⟨0x9A, 0x9A, invalid⟩, ⟨0x9B, 0x9F, noOperand⟩,
   ⟨0xA0, 0xA0, imm8⟩, ⟨0xA1, 0xA1, immWide⟩, ⟨0xA2, 0xA2, imm8⟩, ⟨0xA3, 0xA3, immWide⟩,
   ⟨0xA4, 0xA7, noOperand⟩, ⟨0xA8, 0xA8, imm8⟩, ⟨0xA9, 0xA9, immWide⟩, ⟨0xAA, 0xAF, noOperand⟩,
   ⟨0xB0, 0xB7, imm8⟩, ⟨0xB8, 0xBF, { category := immWide, imm64 := true }⟩,
   ⟨0xC0, 0xC1, modRMImm8⟩, ⟨0xC2, 0xC2, imm16⟩, ⟨0xC3, 0xC3, noOperand⟩, ⟨0xC4, 0xC5, invalid⟩,
   ⟨0xC6, 0xC6, modRMImm8⟩, ⟨0xC7, 0xC7, modRMImmWide⟩, ⟨0xC8, 0xC8, imm16Imm8⟩,
   ⟨0xC9, 0xC9, noOperand⟩, ⟨0xCA, 0xCA, imm16⟩, ⟨0xCB, 0xCC, noOperand⟩, ⟨0xCD, 0xCD, imm8⟩,
   ⟨0xCE, 0xCF, noOperand⟩,
   ⟨0xD0, 0xD3, modRM⟩, ⟨0xD4, 0xD6, invalid⟩, ⟨0xD7, 0xD7, noOperand⟩, ⟨0xD8, 0xDF, modRM⟩,
   ⟨0xE0, 0xE7, imm8⟩, ⟨0xE8, 0xE9, immWide⟩, ⟨0xEA, 0xEA, invalid⟩, ⟨0xEB, 0xEB, imm8⟩,
   ⟨0xEC, 0xEF, noOperand⟩,
   ⟨0xF0, 0xF0, prefixByte⟩, ⟨0xF1, 0xF1, noOperand⟩, ⟨0xF2, 0xF3, prefixByte⟩,
   ⟨0xF4, 0xF5, noOperand⟩, ⟨0xF6, 0xF6, { category := modRM, bySelector := true }⟩,
   ⟨0xF7, 0xF7, modRM⟩, ⟨0xF8, 0xFD, noOperand⟩, ⟨0xFE, 0xFF, modRM⟩]

/-- The map of the opcodes behind the escape. -/
def escapedLines : List Line :=
  [⟨0x00, 0x00, modRM⟩, ⟨0x01, 0x01, { category := noOperand, bySelector := true }⟩,
   ⟨0x02, 0x03, modRM⟩, ⟨0x04, 0x04, invalid⟩, ⟨0x05, 0x09, noOperand⟩, ⟨0x0A, 0x0A, invalid⟩,
   ⟨0x0B, 0x0B, noOperand⟩, ⟨0x0C, 0x0C, invalid⟩, ⟨0x0D, 0x0D, noOperand⟩, ⟨0x0E, 0x0F, invalid⟩,
   ⟨0x10, 0x23, modRM⟩, ⟨0x24, 0x27, invalid⟩, ⟨0x28, 0x2F, modRM⟩,
   ⟨0x30, 0x35, noOperand⟩, ⟨0x36, 0x36, invalid⟩, ⟨0x37, 0x37, noOperand⟩,
   ⟨0x38, 0x38, { category := modRM, bySelector := true }⟩, ⟨0x39, 0x39, invalid⟩,
   ⟨0x3A, 0x3A, { category := modRM, bySelector := true }⟩, ⟨0x3B, 0x3F, invalid⟩,
   ⟨0x40, 0x6F, modRM⟩,
   ⟨0x70, 0x73, modRMImm8⟩, ⟨0x74, 0x76, modRM⟩, ⟨0x77, 0x77, noOperand⟩, ⟨0x78, 0x79, modRM⟩,
   ⟨0x7A, 0x7B, invalid⟩, ⟨0x7C, 0x7F, modRM⟩,
   ⟨0x80, 0x8F, immWide⟩, ⟨0x90, 0x9F, modRM⟩,
   ⟨0xA0, 0xA2, noOperand⟩, ⟨0xA3, 0xA3, modRM⟩, ⟨0xA4, 0xA4, modRMImm8⟩, ⟨0xA5, 0xA5, modRM⟩,
   ⟨0xA6, 0xA7, invalid⟩, ⟨0xA8, 0xAA, noOperand⟩, ⟨0xAB, 0xAB, modRM⟩, ⟨0xAC, 0xAC, modRMImm8⟩,
   ⟨0xAD, 0xB9, modRM⟩, ⟨0xBA, 0xBA, modRMImm8⟩, ⟨0xBB, 0xC1, modRM⟩,
   ⟨0xC2, 0xC2, modRMImm8⟩, ⟨0xC3, 0xC3, modRM⟩, ⟨0xC4, 0xC6, modRMImm8⟩, ⟨0xC7, 0xC7, modRM⟩,
   ⟨0xC8, 0xCF, noOperand⟩, ⟨0xD0, 0xFE, modRM⟩, ⟨0xFF, 0xFF, invalid⟩]

def mapLines (escaped : Bool) : List Line :=
  if escaped then escapedLines else oneByteLines

/-- A line of the map in force gives the encoding to the opcode. -/
def Listed (escaped : Bool) (opcode : UInt8) (encoding : Encoding) : Prop :=
  ∃ line ∈ mapLines escaped,
    line.first ≤ opcode.toNat ∧ opcode.toNat ≤ line.last ∧ line.encoding = encoding

/-! ## Every opcode has a line -/

/-- The lines take up the byte values from `start` on, each from where the one before it ends. -/
def Consecutive : Nat → List Line → Prop
  | start, [] => start = 256
  | start, line :: lines =>
    line.first = start ∧ line.first ≤ line.last ∧ Consecutive (line.last + 1) lines

instance decidableConsecutive : ∀ start lines, Decidable (Consecutive start lines)
  | start, [] => inferInstanceAs (Decidable (start = 256))
  | start, line :: lines =>
    have := decidableConsecutive (line.last + 1) lines
    inferInstanceAs (Decidable (line.first = start ∧ line.first ≤ line.last ∧
      Consecutive (line.last + 1) lines))

theorem consecutive_mapLines (escaped : Bool) : Consecutive 0 (mapLines escaped) := by
  cases escaped <;> decide +kernel

theorem exists_line {lines : List Line} {start value : Nat} (consecutive : Consecutive start lines)
    (reached : start ≤ value) (isByte : value < 256) :
    ∃ line ∈ lines, line.first ≤ value ∧ value ≤ line.last := by
  induction lines generalizing start with
  | nil =>
    have atEnd : start = 256 := consecutive
    omega
  | cons line lines ih =>
    obtain ⟨rfl, -, others⟩ := consecutive
    by_cases inside : value ≤ line.last
    · exact ⟨line, List.mem_cons_self, reached, inside⟩
    · obtain ⟨found, inLines, covers⟩ := ih others (by omega)
      exact ⟨found, List.mem_cons_of_mem line inLines, covers⟩

/-! ## The tables of the decoder -/

theorem ofOpcode_of_mem {escaped : Bool} : ∀ line ∈ mapLines escaped,
    ∀ n < line.last + 1 - line.first,
      Encoding.ofOpcode escaped (UInt8.ofNat (line.first + n)) = line.encoding := by
  cases escaped <;> decide +kernel

/-- The tables say of an opcode what its line says. -/
theorem ofOpcode_eq_iff {escaped : Bool} {opcode : UInt8} {encoding : Encoding} :
    Encoding.ofOpcode escaped opcode = encoding ↔ Listed escaped opcode encoding := by
  have agrees : ∀ line ∈ mapLines escaped, line.first ≤ opcode.toNat → opcode.toNat ≤ line.last →
      Encoding.ofOpcode escaped opcode = line.encoding := by
    intro line inMap first last
    have found := ofOpcode_of_mem line inMap (opcode.toNat - line.first) (by omega)
    rwa [Nat.add_sub_cancel' first, UInt8.ofNat_toNat] at found
  constructor
  · rintro rfl
    obtain ⟨line, inMap, first, last⟩ :=
      exists_line (consecutive_mapLines escaped) (Nat.zero_le _) opcode.toNat_lt
    exact ⟨line, inMap, first, last, (agrees line inMap first last).symm⟩
  · rintro ⟨line, inMap, first, last, rfl⟩
    exact agrees line inMap first last

/-- No flag goes with an invalid opcode. -/
theorem listed_invalid_iff {escaped : Bool} {opcode : UInt8} :
    Listed escaped opcode invalid ↔ (Encoding.ofOpcode escaped opcode).category = invalid := by
  constructor
  · intro listed
    rw [ofOpcode_eq_iff.mpr listed]
  · intro unmapped
    have onLine : Listed escaped opcode (Encoding.ofOpcode escaped opcode) :=
      ofOpcode_eq_iff.mp rfl
    obtain ⟨line, inMap, first, last, found⟩ := onLine
    have noFlags : ∀ line ∈ mapLines escaped, line.encoding.category = invalid →
        line.encoding = invalid := by
      cases escaped <;> decide
    rw [← found] at unmapped
    exact ⟨line, inMap, first, last, noFlags line inMap unmapped⟩

end X86Length.Opcode
