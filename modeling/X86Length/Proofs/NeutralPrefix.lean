import X86Length.Proofs.Limit

/-! # One more prefix

Four of the prefix bytes tell the decoder something: the size overrides and REX with its W bit.  The
others, and the REX bytes without it, only take up room.  One of these in front of some bytes
leaves the estimate as it is but for its length (`estimate_cons_neutral`), and an input that dies
goes on dying at the same byte (`DeadEnd.cons`).  So the verdict stays as well, unless the one byte
is what the limit had left (`decodeAt_cons_neutral`). -/

namespace X86Length

/-- The prefix bytes that only take up a byte: segment overrides, REX without W, lock and repeat. -/
def neutralBytes : List UInt8 :=
  [0x26, 0x2E, 0x36, 0x3E, 0x40, 0x41, 0x42, 0x43, 0x44, 0x45, 0x46, 0x47, 0x64, 0x65, 0xF0, 0xF2,
   0xF3]

theorem mem_prefixBytes_of_neutral : ∀ byte ∈ neutralBytes, byte ∈ prefixBytes := by
  decide +kernel

/-! ## Estimates -/

/-- The same instruction with one more prefix. -/
def InstructionLength.lengthen (length : InstructionLength) : InstructionLength :=
  { length with prefixes := length.prefixes + 1 }

theorem InstructionLength.total_lengthen (length : InstructionLength) :
    length.lengthen.total = length.total + 1 := by
  simp only [lengthen, total]
  omega

theorem Prefixes.push_neutral {byte : UInt8} (neutral : byte ∈ neutralBytes) (found : Prefixes) :
    found.push byte = { found with legacy := found.legacy + 1 } := by
  have silent : ∀ byte ∈ neutralBytes, (byte == operandSizeByte) = false ∧
      (byte == addressSizeByte) = false ∧ isRexWithW byte = false := by
    decide +kernel
  obtain ⟨noOperandSize, noAddressSize, noRexW⟩ := silent byte neutral
  simp only [push, noOperandSize, noAddressSize, noRexW, Bool.false_or]

/-- What follows the prefixes does not depend on their number. -/
theorem estimateOperands_legacy (found : Prefixes) (n : Nat) (bytes : List UInt8) :
    estimateOperands { found with legacy := n } bytes = estimateOperands found bytes := by
  cases bytes <;> rfl

theorem estimate_cons_neutral {byte : UInt8} (neutral : byte ∈ neutralBytes)
    (bytes : List UInt8) :
    estimate (byte :: bytes) = (estimate bytes).map InstructionLength.lengthen := by
  have isPrefix := mem_prefixBytes_of_neutral byte neutral
  simp only [estimate, Prefixes.ofBytes_cons_of_mem isPrefix, Prefixes.count_push,
    List.drop_succ_cons]
  rw [Prefixes.push_neutral neutral, estimateOperands_legacy]
  cases least : estimateOperands (Prefixes.ofBytes bytes)
      (bytes.drop (Prefixes.ofBytes bytes).count) with
  | ok operands => rfl
  | error fault =>
    have final := final_of_estimateOperands least
    simp only [Prefixes.complete, shift_of_final final]
    rfl

theorem DeadEnd.cons {bytes : List UInt8} {place : Nat} {fault : Fault}
    (dead : DeadEnd bytes place fault) {byte : UInt8} (isPrefix : byte ∈ prefixBytes) :
    DeadEnd (byte :: bytes) (place + 1) fault := by
  cases dead with
  | @opcode run rest escaped opcode isRun isOpcode unmapped =>
    rw [Nat.add_right_comm]
    exact .opcode (isRun_cons.mpr ⟨isPrefix, isRun⟩) isOpcode unmapped
  | @selector run rest opcode selector isRun unlisted =>
    rw [Nat.add_right_comm]
    exact .selector (isRun_cons.mpr ⟨isPrefix, isRun⟩) unlisted

/-! ## Verdicts -/

theorem decode_cons_of_estimate {byte : UInt8} (neutral : byte ∈ neutralBytes)
    {bytes : List UInt8} {least : InstructionLength} (estimated : estimate bytes = .ok least) :
    decode (byte :: bytes) =
      if least.total < lengthLimit then
        within InstructionLength.total (bytes.length + 1) (.ok least.lengthen)
      else .error (.invalidEncoding tooLong) := by
  have lengthened : estimate (byte :: bytes) = .ok least.lengthen := by
    rw [estimate_cons_neutral neutral, estimated]
    rfl
  rw [decode_of_estimate lengthened, decodeUnbounded_eq, lengthened, List.length_cons,
    InstructionLength.total_lengthen]
  rfl

theorem decodeAt_of_limited {bytes : List UInt8} {inLimit : Prop} [Decidable inLimit]
    {verdict : Except Fault InstructionLength}
    (limited : decode bytes = if inLimit then verdict else .error (.invalidEncoding tooLong))
    (address : UInt64) :
    decodeAt address bytes =
      if inLimit then verdict.mapError (DecodeError.mk address)
      else .error (overlongAt address) := by
  rw [decodeAt_eq_mapError, limited]
  split <;> rfl

/-- One more neutral prefix shifts a verdict by one byte.  An instruction and the bytes that a
    truncation asks for grow by it; where they fill the limit already, and where the deciding byte
    of a dead end is the last one within it, the instruction becomes too long. -/
theorem decodeAt_cons_neutral {byte : UInt8} (neutral : byte ∈ neutralBytes) (address : UInt64)
    (bytes : List UInt8) :
    match decodeAt address bytes with
    | .ok length =>
      decodeAt address (byte :: bytes) =
        if length.total < lengthLimit then .ok length.lengthen else .error (overlongAt address)
    | .error { fault := .truncated needed available, .. } =>
      decodeAt address (byte :: bytes) = .error
        (if needed < lengthLimit then { address, fault := .truncated (needed + 1) (available + 1) }
        else overlongAt address)
    | .error { fault := .invalidEncoding reason, .. } =>
      reason = tooLong ∧ decodeAt address (byte :: bytes) = .error (overlongAt address)
    | .error error =>
      ∃ place < lengthLimit, DeadEnd bytes place error.fault ∧
        decodeAt address (byte :: bytes) = .error
          (if place + 1 < lengthLimit then error else overlongAt address) := by
  cases estimated : estimate bytes with
  | ok least =>
    have before := decodeAt_of_limited (decode_of_estimate estimated) address
    have behind := decodeAt_of_limited (decode_cons_of_estimate neutral estimated) address
    rw [decodeUnbounded_eq, estimated] at before
    simp only [within, InstructionLength.total_lengthen, Nat.add_le_add_iff_right] at before behind
    by_cases inLimit : least.total ≤ lengthLimit
    · by_cases met : least.total ≤ bytes.length
      · rw [if_pos inLimit, if_pos met] at before
        rw [if_pos met] at behind
        rw [before, behind]
        rfl
      · rw [if_pos inLimit, if_neg met] at before
        rw [if_neg met] at behind
        rw [before, behind]
        exact (apply_ite Except.error _ _ _).symm
    · have beyond : ¬ least.total < lengthLimit := fun less => inLimit (Nat.le_of_lt less)
      rw [if_neg inLimit] at before
      rw [if_neg beyond] at behind
      rw [before, behind]
      exact ⟨rfl, rfl⟩
  | error fault =>
    obtain ⟨place, dead⟩ := estimate_error_iff.mp estimated
    have deadBehind := dead.cons (mem_prefixBytes_of_neutral byte neutral)
    have before := decodeAt_of_limited (decode_of_deadEnd dead) address
    have behind := decodeAt_of_limited (decode_of_deadEnd deadBehind) address
    by_cases inLimit : place < lengthLimit
    · rw [if_pos inLimit] at before
      rw [before, behind]
      cases dead with
      | opcode isRun isOpcode unmapped =>
        exact ⟨_, inLimit, .opcode isRun isOpcode unmapped, (apply_ite Except.error _ _ _).symm⟩
      | selector isRun unlisted =>
        exact ⟨_, inLimit, .selector isRun unlisted, (apply_ite Except.error _ _ _).symm⟩
    · have beyond : ¬ place + 1 < lengthLimit := fun less => inLimit (Nat.lt_of_succ_lt less)
      rw [if_neg inLimit] at before
      rw [if_neg beyond] at behind
      rw [before, behind]
      exact ⟨rfl, rfl⟩

/-- At the limit one more prefix is one too many: for an instruction of fifteen bytes that has only
    begun, and for a selector that is the fifteenth byte. -/
theorem decodeAt_cons_neutral_at_limit :
    0x2E ∈ neutralBytes ∧
      decodeAt 0x10 (List.replicate 10 0x2E ++ [0xB8]) =
        .error { address := 0x10, fault := .truncated 15 11 } ∧
      decodeAt 0x10 (0x2E :: List.replicate 10 0x2E ++ [0xB8]) = .error (overlongAt 0x10) ∧
      decodeAt 0x10 (List.replicate 12 0x2E ++ [0x0F, 0x38, 0x00]) =
        .error { address := 0x10, fault := .unknownSubOpcode 0x38 0x00 } ∧
      decodeAt 0x10 (0x2E :: List.replicate 12 0x2E ++ [0x0F, 0x38, 0x00]) =
        .error (overlongAt 0x10) := by
  have neutral : 0x2E ∈ neutralBytes := by decide
  have begun : decodeAt 0x10 (List.replicate 10 0x2E ++ [0xB8]) =
      .error { address := 0x10, fault := .truncated 15 11 } := rfl
  have unlisted : decodeAt 0x10 (List.replicate 12 0x2E ++ [0x0F, 0x38, 0x00]) =
      .error { address := 0x10, fault := .unknownSubOpcode 0x38 0x00 } := rfl
  have lengthened := decodeAt_cons_neutral neutral 0x10 (List.replicate 10 0x2E ++ [0xB8])
  rw [begun] at lengthened
  have pushedOut :=
    decodeAt_cons_neutral neutral 0x10 (List.replicate 12 0x2E ++ [0x0F, 0x38, 0x00])
  rw [unlisted] at pushedOut
  obtain ⟨place, -, dead, pushedOut⟩ := pushedOut
  obtain rfl : place = 14 := dead.place_of_unknownSubOpcode
  exact ⟨neutral, begun, lengthened, unlisted, pushedOut⟩

end X86Length
