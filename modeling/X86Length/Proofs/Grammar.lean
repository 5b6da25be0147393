import X86Length.Proofs.Growth
import X86Length.Proofs.OpcodeMaps

/-! # The grammar of instructions

An `Instruction` is its bytes, part by part, together with the reasons why these parts make one:
prefixes, perhaps the escape, the opcode, an extra opcode byte, the addressing part and the
immediate.  Opcodes, selectors and prefixes are listed one by one, and the fields of ModR/M
and SIB bytes are read from their bits, so nothing rests on the tables of the decoder.  Decoding
accepts exactly the inputs that start with the bytes of an instruction within the limit, and answers
with the lengths of its parts.

Both directions go through the estimate: `instruction_of_estimate` cuts the bytes of a met estimate
into parts, and `estimate_instruction` finds the parts again, whatever follows them. -/

namespace X86Length

open Opcode Category

/-! ## Opcodes -/

/-- The selectors behind `0F 01` that belong to the opcode. -/
def systemBytes : List UInt8 :=
  [0xC1, 0xC2, 0xC3, 0xC4, 0xC8, 0xC9, 0xD0, 0xD1, 0xF8, 0xF9]

def plainBytes : List UInt8 :=
  [0x80, 0x81, 0xF0, 0xF1]

/-- The selectors behind `0F 3A` with an immediate byte. -/
def immediateBytes : List UInt8 :=
  [0x08, 0x09, 0x0A, 0x0B, 0x0C, 0x0D, 0x0E, 0x14, 0x15, 0x16, 0x17, 0x20, 0x21, 0x22, 0x42,
   0x60, 0x61, 0x62, 0x63]

/-- The selectors behind `0F 3A` without one. -/
def immediateFreeBytes : List UInt8 :=
  [0x0F, 0x40, 0x41]

/-- `Selects escaped opcode extra addressing encoding`: in front of the addressing part, the opcode
    with its extra bytes has the encoding.  In the two groups the addressing part is its own
    selector. -/
inductive Selects : Bool → UInt8 → List UInt8 → List UInt8 → Encoding → Prop where
  | map {escaped : Bool} {opcode : UInt8} {addressing : List UInt8} {encoding : Encoding}
      (listed : Listed escaped opcode encoding) (closed : encoding.bySelector = false) :
      Selects escaped opcode [] addressing encoding
  | test {byte : UInt8} {more : List UInt8}
      (reg : Addressing.middleBits byte = 0 ∨ Addressing.middleBits byte = 1) :
      Selects false 0xF6 [] (byte :: more) modRMImm8
  | unary {byte : UInt8} {more : List UInt8}
      (reg : ¬ (Addressing.middleBits byte = 0 ∨ Addressing.middleBits byte = 1)) :
      Selects false 0xF6 [] (byte :: more) modRM
  | system {selector : UInt8} {addressing : List UInt8} (listed : selector ∈ systemBytes) :
      Selects true 0x01 [selector] addressing modRM
  | systemGroup {byte : UInt8} {more : List UInt8} (unlisted : byte ∉ systemBytes) :
      Selects true 0x01 [] (byte :: more) modRM
  | plain {selector : UInt8} {addressing : List UInt8} (listed : selector ∈ plainBytes) :
      Selects true 0x38 [selector] addressing modRM
  | immediate {selector : UInt8} {addressing : List UInt8} (listed : selector ∈ immediateBytes) :
      Selects true 0x3A [selector] addressing modRMImm8
  | immediateFree {selector : UInt8} {addressing : List UInt8}
      (listed : selector ∈ immediateFreeBytes) :
      Selects true 0x3A [selector] addressing modRM

/-! ## Operands -/

/-- A complete addressing part behind prefixes: with the address-size prefix in the 16-bit form. -/
inductive AddressingPart (prefixes : List UInt8) : List UInt8 → Prop where
  | form16 {bytes : List UInt8} (override : 0x67 ∈ prefixes) (form : Addressing.Form16 bytes) :
      AddressingPart prefixes bytes
  | form32 {bytes : List UInt8} (default : 0x67 ∉ prefixes) (form : Addressing.Form32 bytes) :
      AddressingPart prefixes bytes

def wideSize (prefixes : List UInt8) (imm64 : Bool) : Nat :=
  if ∃ byte ∈ prefixes, 0x48 ≤ byte ∧ byte ≤ 0x4F then
    if imm64 then 8 else 4
  else if 0x66 ∈ prefixes then 2 else 4

/-- The addressing part and the immediate that a category asks for. -/
inductive OperandBytes (prefixes : List UInt8) (imm64 : Bool) :
    Category → List UInt8 → List UInt8 → Prop where
  | noOperand : OperandBytes prefixes imm64 noOperand [] []
  | modRM {addressing : List UInt8} (part : AddressingPart prefixes addressing) :
      OperandBytes prefixes imm64 modRM addressing []
  | modRMImm8 {addressing immediate : List UInt8} (part : AddressingPart prefixes addressing)
      (size : immediate.length = 1) : OperandBytes prefixes imm64 modRMImm8 addressing immediate
  | modRMImmWide {addressing immediate : List UInt8} (part : AddressingPart prefixes addressing)
      (size : immediate.length = wideSize prefixes imm64) :
      OperandBytes prefixes imm64 modRMImmWide addressing immediate
  | imm8 {immediate : List UInt8} (size : immediate.length = 1) :
      OperandBytes prefixes imm64 imm8 [] immediate
  | immWide {immediate : List UInt8} (size : immediate.length = wideSize prefixes imm64) :
      OperandBytes prefixes imm64 immWide [] immediate
  | imm16 {immediate : List UInt8} (size : immediate.length = 2) :
      OperandBytes prefixes imm64 imm16 [] immediate
  | imm16Imm8 {immediate : List UInt8} (size : immediate.length = 3) :
      OperandBytes prefixes imm64 imm16Imm8 [] immediate

/-! ## Instructions -/

/-- The bytes of one instruction, part by part. -/
structure Instruction where
  -- The prefixes, none of which is the escape.
  prefixes : List UInt8
  escaped : Bool
  opcode : UInt8
  extra : List UInt8
  addressing : List UInt8
  immediate : List UInt8
  -- The encoding that the opcode has here.
  encoding : Encoding
  isRun : IsRun prefixes
  isOpcode : escaped = false → opcode ≠ 0x0F ∧ opcode ∉ prefixBytes
  selects : Selects escaped opcode extra addressing encoding
  operands : OperandBytes prefixes encoding.imm64 encoding.category addressing immediate

namespace Instruction

def bytes (instruction : Instruction) : List UInt8 :=
  instruction.prefixes ++ (if instruction.escaped then [0x0F] else []) ++ [instruction.opcode] ++
    instruction.extra ++ instruction.addressing ++ instruction.immediate

/-- The lengths of its parts; the escape counts as part of the opcode. -/
def lengths (instruction : Instruction) : InstructionLength where
  prefixes := instruction.prefixes.length
  opcode := (if instruction.escaped then 2 else 1) + instruction.extra.length
  addressing := instruction.addressing.length
  immediate := instruction.immediate.length

theorem bytes_eq (instruction : Instruction) :
    instruction.bytes =
      instruction.prefixes ++ escapeBytes instruction.escaped ++ [instruction.opcode] ++
        instruction.extra ++ instruction.addressing ++ instruction.immediate := rfl

theorem lengths_eq (instruction : Instruction) :
    instruction.lengths =
      { prefixes := instruction.prefixes.length
        opcode := instruction.escaped.toNat + 1 + instruction.extra.length
        addressing := instruction.addressing.length
        immediate := instruction.immediate.length } := by
  cases escaped : instruction.escaped <;> simp [lengths, escaped]

theorem length_bytes (instruction : Instruction) :
    instruction.bytes.length = instruction.lengths.total := by
  simp only [bytes_eq, lengths_eq, InstructionLength.total, List.length_append,
    List.length_singleton, length_escapeBytes]
  omega

end Instruction

/-! ## Selection -/

theorem systemSelectors_iff (byte : UInt8) :
    ByteRange.anyContains systemSelectors byte = true ↔ byte ∈ systemBytes := by
  revert byte
  apply forall_byte
  decide +kernel

theorem plainSelectors_iff (byte : UInt8) :
    ByteRange.anyContains plainSelectors byte = true ↔ byte ∈ plainBytes := by
  revert byte
  apply forall_byte
  decide +kernel

theorem immediateSelectors_iff (byte : UInt8) :
    ByteRange.anyContains immediateSelectors byte = true ↔ byte ∈ immediateBytes := by
  revert byte
  apply forall_byte
  decide +kernel

theorem immediateFreeSelectors_iff (byte : UInt8) :
    ByteRange.anyContains immediateFreeSelectors byte = true ↔ byte ∈ immediateFreeBytes := by
  revert byte
  apply forall_byte
  decide +kernel

theorem immediateFree_unlisted {byte : UInt8} (listed : byte ∈ immediateFreeBytes) :
    byte ∉ immediateBytes := by
  obtain rfl | rfl | rfl : byte = 0x0F ∨ byte = 0x40 ∨ byte = 0x41 := by
    simpa [immediateFreeBytes] using listed
  all_goals decide

theorem reg_lt_two_iff (byte : UInt8) :
    (ModRM.ofByte byte).reg.val < 2 ↔
      Addressing.middleBits byte = 0 ∨ Addressing.middleBits byte = 1 := by
  rw [Addressing.modRM_ofByte]
  dsimp only
  omega

/-- The grammar's choice is the decoder's, whatever follows. -/
theorem settle_of_selects {escaped : Bool} {opcode : UInt8} {extra addressing : List UInt8}
    {encoding : Encoding} (selects : Selects escaped opcode extra addressing encoding)
    (more : List UInt8) :
    settle escaped opcode (extra ++ (addressing ++ more)) =
      .ok { encoding, extra := extra.length } := by
  cases selects with
  | map listed closed =>
    obtain rfl := ofOpcode_eq_iff.mpr listed
    exact settle_by_map closed _
  | test reg =>
    rw [settle_by_selector (by decide)]
    have test := (reg_lt_two_iff _).mpr reg
    simp only [List.nil_append, List.cons_append, select, selectPlain, if_pos test]
    rfl
  | unary reg =>
    rw [settle_by_selector (by decide)]
    have noTest := mt (reg_lt_two_iff _).mp reg
    simp only [List.nil_append, List.cons_append, select, selectPlain, if_neg noTest]
    rfl
  | system listed =>
    rw [settle_by_selector (by decide)]
    simp [select, selectEscaped, (systemSelectors_iff _).mpr listed]
  | systemGroup unlisted =>
    rw [← systemSelectors_iff, Bool.not_eq_true] at unlisted
    rw [settle_by_selector (by decide)]
    simp [select, selectEscaped, unlisted]
  | plain listed =>
    rw [settle_by_selector (by decide)]
    simp [select, selectEscaped, (plainSelectors_iff _).mpr listed]
  | immediate listed =>
    rw [settle_by_selector (by decide)]
    simp [select, selectEscaped, (immediateSelectors_iff _).mpr listed]
  | immediateFree listed =>
    have unlisted := immediateFree_unlisted listed
    rw [← immediateSelectors_iff, Bool.not_eq_true] at unlisted
    rw [settle_by_selector (by decide)]
    simp [select, selectEscaped, unlisted, (immediateFreeSelectors_iff _).mpr listed]

/-- A selector that is no extra byte starts the addressing part. -/
theorem selects_of_select_group {escaped : Bool} {opcode byte : UInt8} {behind : List UInt8}
    {encoding : Encoding}
    (selected : select escaped opcode (byte :: behind) = .ok { encoding, extra := 0 })
    (more : List UInt8) : Selects escaped opcode [] (byte :: more) encoding := by
  cases escaped with
  | false =>
    simp only [select, selectPlain, Bool.false_eq_true, if_false] at selected
    split at selected
    next group =>
      obtain rfl : opcode = 0xF6 := by simpa using group
      split at selected
      next test =>
        cases selected
        exact .test ((reg_lt_two_iff _).mp test)
      next noTest =>
        cases selected
        exact .unary (mt (reg_lt_two_iff _).mpr noTest)
    next => cases selected
  | true =>
    simp only [select, selectEscaped, if_true] at selected
    split at selected
    next system =>
      obtain rfl : opcode = 0x01 := by simpa using system
      cases listed : ByteRange.anyContains systemSelectors byte with
      | true => simp [listed] at selected
      | false =>
        rw [listed] at selected
        cases selected
        rw [← Bool.not_eq_true, systemSelectors_iff] at listed
        exact .systemGroup listed
    next =>
      -- Behind a second escape every selector is an extra byte.
      grind

/-- A selector that is an extra byte leaves the addressing part alone. -/
theorem selects_of_select_extra {escaped : Bool} {opcode selector : UInt8}
    {rest extra : List UInt8} {encoding : Encoding}
    (selected : select escaped opcode (selector :: rest) =
      .ok { encoding, extra := (selector :: extra).length })
    (addressing : List UInt8) : Selects escaped opcode (selector :: extra) addressing encoding := by
  cases escaped with
  | false =>
    simp only [select, selectPlain] at selected
    grind
  | true =>
    simp only [select, selectEscaped, if_true] at selected
    have single : extra.length = 0 := by grind [Bool.toNat_le]
    obtain rfl := List.length_eq_zero_iff.mp single
    split at selected
    next system =>
      obtain rfl : opcode = 0x01 := by simpa using system
      cases listed : ByteRange.anyContains systemSelectors selector with
      | true =>
        rw [listed] at selected
        cases selected
        exact .system ((systemSelectors_iff selector).mp listed)
      | false => simp [listed] at selected
    next =>
      split at selected
      next second =>
        obtain rfl : opcode = 0x38 := by simpa using second
        split at selected
        next listed =>
          cases selected
          exact .plain ((plainSelectors_iff selector).mp listed)
        next => cases selected
      next =>
        split at selected
        next second =>
          obtain rfl : opcode = 0x3A := by simpa using second
          split at selected
          next listed =>
            cases selected
            exact .immediate ((immediateSelectors_iff selector).mp listed)
          next =>
            split at selected
            next listed =>
              cases selected
              exact .immediateFree ((immediateFreeSelectors_iff selector).mp listed)
            next => cases selected
        next => cases selected

/-- The decoder's choice is the grammar's, if the addressing part is there that it may rest on. -/
theorem selects_of_settle {escaped : Bool} {opcode : UInt8} {extra addressing more : List UInt8}
    {encoding : Encoding}
    (settled : settle escaped opcode (extra ++ (addressing ++ more)) =
      .ok { encoding, extra := extra.length })
    (present : encoding.category.takesModRM = true → addressing ≠ []) :
    Selects escaped opcode extra addressing encoding := by
  cases bySelector : (Encoding.ofOpcode escaped opcode).bySelector with
  | false =>
    rw [settle_by_map bySelector, Except.ok.injEq, Selection.mk.injEq] at settled
    obtain ⟨rfl, noExtra⟩ := settled
    obtain rfl := List.length_eq_zero_iff.mp noExtra.symm
    exact .map (ofOpcode_eq_iff.mp rfl) bySelector
  | true =>
    rw [settle_by_selector bySelector] at settled
    obtain ⟨byte, behind, rfl⟩ :=
      List.exists_cons_of_ne_nil (present (takesModRM_of_select settled))
    cases extra with
    | nil => exact selects_of_select_group settled behind
    | cons selector extra => exact selects_of_select_extra settled (byte :: behind)

/-! ## Lengths of operands -/

open Prefixes in
theorem addressingPart_iff (run : List UInt8) (escaped : Bool) (bytes : List UInt8) :
    AddressingPart run bytes ↔
      Addressing.need (ofRun run escaped).address16 bytes = bytes.length := by
  rw [← Addressing.form_iff]
  have override := address16_ofRun run escaped
  cases found : (ofRun run escaped).address16 with
  | true =>
    have present : addressSizeByte ∈ run := override.mp found
    constructor
    · intro part
      cases part with
      | form16 _ form => exact form
      | form32 absent _ => exact absurd present absent
    · exact .form16 present
  | false =>
    have absent : addressSizeByte ∉ run := by
      intro present
      rw [override.mpr present] at found
      cases found
    constructor
    · intro part
      cases part with
      | form16 present _ => exact absurd present absent
      | form32 _ form => exact form
    · exact .form32 absent

theorem wideImmediate_ofRun (run : List UInt8) (escaped imm64 : Bool) :
    (Prefixes.ofRun run escaped).wideImmediate imm64 = wideSize run imm64 := by
  simp only [Prefixes.wideImmediate, wideSize, Prefixes.rexW_ofRun, Prefixes.operand16_ofRun]
  rfl

theorem operandBytes_iff (run : List UInt8) (escaped imm64 : Bool) (category : Category)
    (addressing immediate : List UInt8) :
    OperandBytes run imm64 category addressing immediate ↔
      category ≠ .invalid ∧ category ≠ .prefixByte ∧
      leastAddressing (Prefixes.ofRun run escaped) category addressing = addressing.length ∧
      immediate.length =
        category.immediateSize ((Prefixes.ofRun run escaped).wideImmediate imm64) := by
  rw [wideImmediate_ofRun]
  have part := addressingPart_iff run escaped addressing
  constructor
  · intro operands
    cases operands <;> simp_all [leastAddressing, takesModRM, immediateSize]
  · rintro ⟨valid, noPrefix, least, size⟩
    cases category <;>
      simp only [leastAddressing, takesModRM, immediateSize, Bool.false_eq_true, if_true, if_false,
        ← part, eq_comm (a := 0), List.length_eq_zero_iff] at least size
    case invalid => exact absurd rfl valid
    case prefixByte => exact absurd rfl noPrefix
    case noOperand =>
      subst least size
      exact .noOperand
    case modRM =>
      subst size
      exact .modRM least
    case modRMImm8 => exact .modRMImm8 least size
    case modRMImmWide => exact .modRMImmWide least size
    case imm8 =>
      subst least
      exact .imm8 size
    case immWide =>
      subst least
      exact .immWide size
    case imm16 =>
      subst least
      exact .imm16 size
    case imm16Imm8 =>
      subst least
      exact .imm16Imm8 size

theorem leastAddressing_of_append {prefixes : Prefixes} {category : Category}
    {addressing more : List UInt8}
    (size : addressing.length = leastAddressing prefixes category (addressing ++ more)) :
    leastAddressing prefixes category addressing = addressing.length := by
  have grows := leastAddressing_mono prefixes category addressing more
  rw [← size] at grows
  rw [size, leastAddressing_append grows more]

theorem exists_split {size : Nat} {bytes : List UInt8} (held : size ≤ bytes.length) :
    ∃ part rest, bytes = part ++ rest ∧ part.length = size :=
  ⟨bytes.take size, bytes.drop size, (List.take_append_drop size bytes).symm,
    List.length_take_of_le held⟩

/-! ## Instructions -/

/-- The estimate finds the parts of an instruction, whatever follows it. -/
theorem estimate_instruction (instruction : Instruction) (rest : List UInt8) :
    estimate (instruction.bytes ++ rest) = .ok instruction.lengths := by
  obtain ⟨run, escaped, opcode, extra, addressing, immediate, encoding, isRun, isOpcode, selects,
    operands⟩ := instruction
  have stops : StopsAt escaped (opcode :: (extra ++ (addressing ++ (immediate ++ rest)))) :=
    stopsAt_opcode_iff.mpr isOpcode
  -- Each part is settled by its own bytes, so the ones behind it do not matter.
  have settled := settle_of_selects selects (immediate ++ rest)
  rw [← Prefixes.escaped_ofRun run escaped] at settled
  obtain ⟨valid, noPrefix, least, size⟩ :=
    (operandBytes_iff run escaped encoding.imm64 encoding.category addressing immediate).mp operands
  have found : leastOperands (Prefixes.ofRun run escaped) { encoding, extra := extra.length }
      (extra ++ (addressing ++ (immediate ++ rest))) =
        ⟨extra.length, addressing.length, immediate.length⟩ := by
    simp only [leastOperands, List.drop_left, leastAddressing_append (Nat.le_of_eq least), least,
      size]
  have lead := estimate_lead isRun stops
  rw [estimateOperands_of_settle settled, estimateSettled_ok_iff.mpr ⟨valid, noPrefix, found⟩]
    at lead
  simpa [Instruction.bytes_eq, Instruction.lengths_eq, Prefixes.complete, Operands.behind]
    using lead

/-- The bytes of a met estimate are those of an instruction. -/
theorem instruction_of_estimate {bytes : List UInt8} {length : InstructionLength}
    (estimated : estimate bytes = .ok length) (met : length.total ≤ bytes.length) :
    ∃ (instruction : Instruction) (rest : List UInt8),
      bytes = instruction.bytes ++ rest ∧ instruction.lengths = length := by
  obtain ⟨run, escaped, behind, isRun, stops, rfl⟩ := exists_lead bytes
  rw [estimate_lead isRun stops] at estimated
  obtain ⟨operands, least, rfl⟩ := Prefixes.complete_ok estimated
  simp only [Operands.total_behind, Prefixes.count_ofRun, List.length_append,
    length_escapeBytes, Nat.add_le_add_iff_left] at met
  obtain ⟨opcode, rest, ⟨encoding, extraSize⟩, rfl, settled, least⟩ :=
    settle_of_estimateOperands least met
  obtain ⟨valid, noPrefix, rfl⟩ := estimateSettled_ok_iff.mp least
  -- The parts are cut off one after the other.
  obtain ⟨extra, window, rfl, rfl⟩ := exists_split (extra_le_of_settle settled)
  rw [Prefixes.escaped_ofRun] at settled
  simp only [leastOperands, List.drop_left, Operands.size, List.length_cons,
    List.length_append] at met
  obtain ⟨addressing, window, rfl, addressingSize⟩ :=
    exists_split (show leastAddressing (Prefixes.ofRun run escaped)
      encoding.category window ≤ window.length by omega)
  rw [← addressingSize, List.length_append] at met
  obtain ⟨immediate, rest, rfl, immediateSize⟩ :=
    exists_split (show encoding.category.immediateSize
      ((Prefixes.ofRun run escaped).wideImmediate encoding.imm64) ≤ window.length by omega)
  have operands : OperandBytes run encoding.imm64 encoding.category addressing immediate :=
    (operandBytes_iff run escaped _ _ _ _).mpr
      ⟨valid, noPrefix, leastAddressing_of_append addressingSize, immediateSize⟩
  -- A group rests on its ModR/M byte, which the need never leaves out.
  have present (takes : encoding.category.takesModRM = true) : addressing ≠ [] := by
    rintro rfl
    have := Addressing.need_pos (Prefixes.ofRun run escaped).address16 (immediate ++ rest)
    simp only [leastAddressing, takes, if_true, List.nil_append, List.length_nil]
      at addressingSize
    omega
  refine ⟨{ prefixes := run
            escaped
            opcode
            extra
            addressing
            immediate
            encoding
            isRun
            isOpcode := stopsAt_opcode_iff.mp stops
            selects := selects_of_settle settled present
            operands }, rest, ?_, ?_⟩
  · simp [Instruction.bytes_eq]
  · simp [Instruction.lengths_eq, Operands.behind, leastOperands, ← addressingSize,
      ← immediateSize]

/-- No bytes can be read as instructions in two ways. -/
theorem Instruction.lengths_eq_of_bytes_append {first second : Instruction}
    {rest more : List UInt8} (same : first.bytes ++ rest = second.bytes ++ more) :
    first.lengths = second.lengths := by
  have estimated := estimate_instruction first rest
  rw [same, estimate_instruction second more] at estimated
  exact (Except.ok.inj estimated).symm

/-- Decoding accepts exactly the inputs that start with an instruction of at most fifteen bytes, and
    answers with the lengths of its parts. -/
theorem decodeAt_ok_iff_instruction (address : UInt64) (bytes : List UInt8)
    (length : InstructionLength) :
    decodeAt address bytes = .ok length ↔
      ∃ (instruction : Instruction) (rest : List UInt8),
        bytes = instruction.bytes ++ rest ∧ instruction.lengths = length ∧
        instruction.bytes.length ≤ 15 := by
  rw [decodeAt_ok_iff, decode_ok_iff]
  constructor
  · rintro ⟨estimated, met, inLimit⟩
    obtain ⟨instruction, rest, split, rfl⟩ := instruction_of_estimate estimated met
    refine ⟨instruction, rest, split, rfl, ?_⟩
    rwa [instruction.length_bytes]
  · rintro ⟨instruction, rest, rfl, rfl, short⟩
    rw [instruction.length_bytes] at short
    refine ⟨estimate_instruction instruction rest, ?_, short⟩
    rw [List.length_append, instruction.length_bytes]
    exact Nat.le_add_right _ _

/-- With REX.W a load of a constant has eight bytes of it, but other immediates four. -/
example : decodeAt 0 [0x48, 0xB8, 1, 2, 3, 4, 5, 6, 7, 8] =
    .ok { prefixes := 1, opcode := 1, addressing := 0, immediate := 8 } := rfl

example : decodeAt 0 [0x48, 0x66, 0xC7, 0xC0, 1, 2, 3, 4] =
    .ok { prefixes := 2, opcode := 1, addressing := 1, immediate := 4 } := rfl

end X86Length
