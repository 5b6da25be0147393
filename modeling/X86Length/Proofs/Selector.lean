import X86Length.Opcode.Selection

/-! # Selectors

An opcode that the map leaves open is settled by its selector, and by nothing behind it
(`settle_append`).  Where the selector is there the answer is final (`final_of_settle`), an extra
opcode byte is one of the bytes at hand (`extra_le_of_settle`), and a ModR/M byte follows whatever
was selected (`takesModRM_of_select`). -/

namespace X86Length.Opcode

theorem settle_by_selector {escaped : Bool} {opcode : UInt8}
    (bySelector : (Encoding.ofOpcode escaped opcode).bySelector = true) (rest : List UInt8) :
    settle escaped opcode rest = select escaped opcode rest := by
  simp [settle, bySelector]

theorem settle_by_map {escaped : Bool} {opcode : UInt8}
    (byMap : (Encoding.ofOpcode escaped opcode).bySelector = false) (rest : List UInt8) :
    settle escaped opcode rest = .ok { encoding := Encoding.ofOpcode escaped opcode } := by
  simp [settle, byMap]

theorem final_of_select_cons {escaped : Bool} {opcode selector : UInt8} {rest : List UInt8}
    {fault : Fault} (fails : select escaped opcode (selector :: rest) = .error fault) :
    fault.isTruncated = false := by
  simp only [select, selectEscaped, selectPlain] at fails
  grind [Fault.isTruncated]

theorem extra_le_of_select {escaped : Bool} {opcode : UInt8} {rest : List UInt8}
    {selection : Selection} (selected : select escaped opcode rest = .ok selection) :
    selection.extra ≤ rest.length := by
  cases rest with
  | nil => cases selected
  | cons selector rest =>
    simp only [select, selectEscaped, selectPlain] at selected
    grind [Bool.toNat_le]

theorem takesModRM_of_select {escaped : Bool} {opcode : UInt8} {rest : List UInt8}
    {selection : Selection} (selected : select escaped opcode rest = .ok selection) :
    selection.encoding.category.takesModRM = true := by
  cases rest with
  | nil => cases selected
  | cons selector rest =>
    simp only [select, selectEscaped, selectPlain] at selected
    grind [Category.takesModRM]

/-- Do the bytes behind an opcode settle it? -/
def Settles (escaped : Bool) (opcode : UInt8) (rest : List UInt8) : Prop :=
  (Encoding.ofOpcode escaped opcode).bySelector = true → rest ≠ []

instance (escaped : Bool) (opcode : UInt8) (rest : List UInt8) :
    Decidable (Settles escaped opcode rest) :=
  inferInstanceAs (Decidable (_ → _))

theorem Settles.append {escaped : Bool} {opcode : UInt8} {rest : List UInt8}
    (settles : Settles escaped opcode rest) (more : List UInt8) :
    Settles escaped opcode (rest ++ more) := by
  intro bySelector nothing
  exact settles bySelector (List.append_eq_nil_iff.mp nothing).1

theorem settle_append {escaped : Bool} {opcode : UInt8} {rest : List UInt8}
    (settles : Settles escaped opcode rest) (more : List UInt8) :
    settle escaped opcode (rest ++ more) = settle escaped opcode rest := by
  cases bySelector : (Encoding.ofOpcode escaped opcode).bySelector with
  | false => rw [settle_by_map bySelector, settle_by_map bySelector]
  | true =>
    rw [settle_by_selector bySelector, settle_by_selector bySelector]
    cases rest with
    | nil => exact absurd rfl (settles bySelector)
    | cons selector rest => rfl

theorem final_of_settle {escaped : Bool} {opcode : UInt8} {rest : List UInt8} {fault : Fault}
    (settles : Settles escaped opcode rest)
    (fails : settle escaped opcode rest = .error fault) : fault.isTruncated = false := by
  cases bySelector : (Encoding.ofOpcode escaped opcode).bySelector with
  | false =>
    rw [settle_by_map bySelector] at fails
    cases fails
  | true =>
    rw [settle_by_selector bySelector] at fails
    cases rest with
    | nil => exact absurd rfl (settles bySelector)
    | cons selector rest => exact final_of_select_cons fails

theorem extra_le_of_settle {escaped : Bool} {opcode : UInt8} {rest : List UInt8}
    {selection : Selection} (settled : settle escaped opcode rest = .ok selection) :
    selection.extra ≤ rest.length := by
  cases bySelector : (Encoding.ofOpcode escaped opcode).bySelector with
  | false =>
    rw [settle_by_map bySelector] at settled
    cases settled
    exact Nat.zero_le _
  | true =>
    rw [settle_by_selector bySelector] at settled
    exact extra_le_of_select settled

theorem settles_of_settle {escaped : Bool} {opcode : UInt8} {rest : List UInt8}
    {selection : Selection} (settled : settle escaped opcode rest = .ok selection) :
    Settles escaped opcode rest := by
  rintro bySelector rfl
  rw [settle_by_selector bySelector] at settled
  cases settled

theorem missing_of_not_settles {escaped : Bool} {opcode : UInt8} {rest : List UInt8}
    (unsettled : ¬ Settles escaped opcode rest) :
    (Encoding.ofOpcode escaped opcode).bySelector = true ∧ rest = [] := by
  simpa [Settles] using unsettled

/-! ## The opcodes that need a selector -/

/-- The opcodes that need a selector, with the maps they are in. -/
def openOpcodes : List (Bool × UInt8) :=
  [(false, 0xF6), (true, 0x01), (true, 0x38), (true, 0x3A)]

theorem bySelector_iff (escaped : Bool) (opcode : UInt8) :
    (Encoding.ofOpcode escaped opcode).bySelector = true ↔ (escaped, opcode) ∈ openOpcodes := by
  revert opcode
  cases escaped <;> apply forall_byte <;> decide +kernel

theorem bySelector_cases {escaped : Bool} {opcode : UInt8}
    (bySelector : (Encoding.ofOpcode escaped opcode).bySelector = true) :
    escaped = false ∧ opcode = 0xF6 ∨ escaped = true ∧ opcode = 0x01 ∨
      escaped = true ∧ opcode = 0x38 ∨ escaped = true ∧ opcode = 0x3A := by
  simpa [bySelector_iff, openOpcodes] using bySelector

/-- The opcodes behind the escape that escape once more. -/
def secondEscapes : List UInt8 := [0x38, 0x3A]

theorem bySelector_of_secondEscape {opcode : UInt8} (second : opcode ∈ secondEscapes) :
    (Encoding.ofOpcode true opcode).bySelector = true := by
  rw [bySelector_iff]
  obtain rfl | rfl : opcode = 0x38 ∨ opcode = 0x3A := by simpa [secondEscapes] using second
  · decide
  · decide

end X86Length.Opcode
