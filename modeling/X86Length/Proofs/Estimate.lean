import X86Length.Proofs.AddressingForms
import X86Length.Proofs.PrefixRun
import X86Length.Proofs.Selector

/-! # The least instruction that some bytes allow

Decoding is two things at once: finding out how long the instruction has to be as far as its bytes
tell, and comparing that with the bytes at hand.  `estimate` is the first of these alone.  It
faults only for good, and where it names an instruction this is the shortest one possible;
`decode_eq` and `decodeUnbounded_eq` put the comparison back. -/

namespace X86Length

open Opcode

/-! ## The least operands -/

def leastAddressing (prefixes : Prefixes) (category : Category) (window : List UInt8) : Nat :=
  if category.takesModRM then Addressing.need prefixes.address16 window else 0

/-- The least operands of a settled opcode. -/
def leastOperands (prefixes : Prefixes) (selection : Selection) (rest : List UInt8) :
    Operands where
  extra := selection.extra
  addressing :=
    leastAddressing prefixes selection.encoding.category (rest.drop selection.extra)
  immediate :=
    selection.encoding.category.immediateSize (prefixes.wideImmediate selection.encoding.imm64)

/-- The least operands of a settled opcode, if it is one. -/
def estimateSettled (prefixes : Prefixes) (opcode : UInt8) (selection : Selection)
    (rest : List UInt8) : Except Fault Operands :=
  if selection.encoding.category = .invalid then
    .error (.invalidOpcode opcode prefixes.escaped)
  else if selection.encoding.category = .prefixByte then
    .error (.invalidEncoding prefixInOpcodePosition)
  else
    .ok (leastOperands prefixes selection rest)

/-- The least operands of the opcode at the start of the bytes behind the prefixes.  An opcode is
    one byte at least, and a selector that is missing is a ModR/M byte at least. -/
def estimateOperands (prefixes : Prefixes) : List UInt8 → Except Fault Operands
  | [] => .ok { extra := 0, addressing := 0, immediate := 0 }
  | opcode :: rest =>
    if Settles prefixes.escaped opcode rest then
      match settle prefixes.escaped opcode rest with
      | .error fault => .error fault
      | .ok selection => estimateSettled prefixes opcode selection rest
    else
      .ok { extra := 0, addressing := 1, immediate := 0 }

/-- An estimate, compared with the bytes at hand. -/
def within {α : Type} (size : α → Nat) (held : Nat) : Except Fault α → Except Fault α
  | .error fault => .error fault
  | .ok least =>
    if size least ≤ held then .ok least else .error (.truncated (size least) held)

theorem addressingSize_eq (prefixes : Prefixes) (category : Category) (window : List UInt8) :
    addressingSize prefixes category window =
      Addressing.fitting window (leastAddressing prefixes category window) := by
  unfold addressingSize leastAddressing
  split
  · exact Addressing.size_eq _ _
  · simp [Addressing.fitting]

theorem estimateOperands_of_settles {prefixes : Prefixes} {opcode : UInt8} {rest : List UInt8}
    (settles : Settles prefixes.escaped opcode rest) :
    estimateOperands prefixes (opcode :: rest) =
      match settle prefixes.escaped opcode rest with
      | .error fault => .error fault
      | .ok selection => estimateSettled prefixes opcode selection rest := by
  simp only [estimateOperands, if_pos settles]

theorem estimateOperands_of_missing {prefixes : Prefixes} {opcode : UInt8}
    (bySelector : (Encoding.ofOpcode prefixes.escaped opcode).bySelector = true) :
    estimateOperands prefixes [opcode] = .ok { extra := 0, addressing := 1, immediate := 0 } := by
  simp [estimateOperands, Settles, bySelector]

theorem estimateOperands_of_settle {prefixes : Prefixes} {opcode : UInt8} {rest : List UInt8}
    {selection : Selection} (settled : settle prefixes.escaped opcode rest = .ok selection) :
    estimateOperands prefixes (opcode :: rest) =
      estimateSettled prefixes opcode selection rest := by
  rw [estimateOperands_of_settles (settles_of_settle settled), settled]

theorem estimateSettled_ok_iff {prefixes : Prefixes} {opcode : UInt8} {selection : Selection}
    {rest : List UInt8} {operands : Operands} :
    estimateSettled prefixes opcode selection rest = .ok operands ↔
      selection.encoding.category ≠ .invalid ∧ selection.encoding.category ≠ .prefixByte ∧
      leastOperands prefixes selection rest = operands := by
  unfold estimateSettled
  split
  next invalid => simp [invalid]
  next valid =>
    split
    next prefixByte => simp [prefixByte]
    next noPrefix => simp [valid, noPrefix]

theorem settle_of_estimateOperands {prefixes : Prefixes} {bytes : List UInt8}
    {operands : Operands} (estimated : estimateOperands prefixes bytes = .ok operands)
    (met : operands.size ≤ bytes.length) :
    ∃ opcode rest selection, bytes = opcode :: rest ∧
      settle prefixes.escaped opcode rest = .ok selection ∧
      estimateSettled prefixes opcode selection rest = .ok operands := by
  cases bytes with
  | nil => exact absurd operands.size_pos (Nat.not_lt.mpr met)
  | cons opcode rest =>
    by_cases settles : Settles prefixes.escaped opcode rest
    · rw [estimateOperands_of_settles settles] at estimated
      cases settled : settle prefixes.escaped opcode rest with
      | error fault => simp [settled] at estimated
      | ok selection =>
        rw [settled] at estimated
        exact ⟨opcode, rest, selection, rfl, settled, estimated⟩
    · obtain ⟨bySelector, rfl⟩ := missing_of_not_settles settles
      rw [estimateOperands_of_missing bySelector] at estimated
      cases estimated
      simp [Operands.size] at met

theorem measure_eq {selection : Selection} {rest : List UInt8}
    (present : selection.extra ≤ rest.length) (prefixes : Prefixes) (opcode : UInt8) :
    measure prefixes opcode selection rest =
      within Operands.size (1 + rest.length) (estimateSettled prefixes opcode selection rest) := by
  by_cases invalid : selection.encoding.category = .invalid
  · simp [measure, estimateSettled, within, invalid]
  by_cases prefixByte : selection.encoding.category = .prefixByte
  · simp [measure, estimateSettled, within, prefixByte]
  simp only [measure, estimateSettled, if_neg invalid, if_neg prefixByte, addressingSize_eq,
    Addressing.fitting, List.length_drop, within, leastOperands]
  generalize
    leastAddressing prefixes selection.encoding.category (rest.drop selection.extra) = least
  -- An addressing part that does not fit leaves no room for the instruction either.
  by_cases fits : least ≤ rest.length - selection.extra
  · simp only [if_pos fits]
  · rw [if_neg fits, if_neg]
    · rfl
    · simp only [Operands.size]
      omega

theorem decodeOperands_eq (prefixes : Prefixes) (bytes : List UInt8) :
    decodeOperands prefixes bytes =
      within Operands.size bytes.length (estimateOperands prefixes bytes) := by
  cases bytes with
  | nil => rfl
  | cons opcode rest =>
    by_cases settles : Settles prefixes.escaped opcode rest
    · rw [estimateOperands_of_settles settles]
      simp only [decodeOperands]
      cases settled : settle prefixes.escaped opcode rest with
      | error fault => rfl
      | ok selection =>
        simp only [measure_eq (extra_le_of_settle settled), List.length_cons, Nat.add_comm]
    · -- Without its selector the opcode is truncated by the one byte of the estimate.
      obtain ⟨bySelector, rfl⟩ := missing_of_not_settles settles
      rw [estimateOperands_of_missing bySelector]
      simp only [decodeOperands, settle_by_selector bySelector]
      rfl

/-! ## Whole instructions -/

/-- The least instruction that the bytes allow. -/
def estimate (bytes : List UInt8) : Except Fault InstructionLength :=
  let prefixes := Prefixes.ofBytes bytes
  prefixes.complete (estimateOperands prefixes (bytes.drop prefixes.count))

/-- An estimate compared with the bytes at hand, and with the limit where they do not suffice. -/
def verdict (held : Nat) : Except Fault InstructionLength → Except Fault InstructionLength
  | .error fault => .error fault
  | .ok least =>
    if least.total ≤ held then .ok least
    else if lengthLimit < least.total then .error (.invalidEncoding tooLong)
    else .error (.truncated least.total held)

theorem estimate_lead {run rest : List UInt8} {escaped : Bool} (isRun : IsRun run)
    (stops : StopsAt escaped rest) :
    estimate (run ++ escapeBytes escaped ++ rest) =
      (Prefixes.ofRun run escaped).complete
        (estimateOperands (Prefixes.ofRun run escaped) rest) := by
  simp only [estimate, ofBytes_lead isRun stops, drop_lead]

theorem Prefixes.complete_within (found : Prefixes) (held : Nat)
    (least : Except Fault Operands) :
    found.complete (within Operands.size held least) =
      within InstructionLength.total (found.count + held) (found.complete least) := by
  cases least with
  | error fault => rfl
  | ok operands =>
    simp only [within, Prefixes.complete, Operands.total_behind, Nat.add_le_add_iff_left]
    by_cases met : operands.size ≤ held
    · simp only [if_pos met]
    · simp only [if_neg met, Fault.shift]

theorem decodeUnbounded_eq (bytes : List UInt8) :
    decodeUnbounded bytes = within InstructionLength.total bytes.length (estimate bytes) := by
  obtain ⟨run, escaped, rest, isRun, stops, rfl⟩ := exists_lead bytes
  rw [decodeUnbounded_lead isRun stops, estimate_lead isRun stops, decodeOperands_eq,
    Prefixes.complete_within]
  simp [Nat.add_assoc]

theorem decodeUnbounded_ok_iff {bytes : List UInt8} {length : InstructionLength} :
    decodeUnbounded bytes = .ok length ↔
      estimate bytes = .ok length ∧ length.total ≤ bytes.length := by
  rw [decodeUnbounded_eq]
  cases estimate bytes with
  | error fault => simp [within]
  | ok least =>
    simp only [within]
    split <;> grind

/-! ## Estimates fault for good -/

theorem final_of_estimateOperands {prefixes : Prefixes} {bytes : List UInt8} {fault : Fault}
    (fails : estimateOperands prefixes bytes = .error fault) : fault.isTruncated = false := by
  cases bytes with
  | nil => cases fails
  | cons opcode rest =>
    by_cases settles : Settles prefixes.escaped opcode rest
    · rw [estimateOperands_of_settles settles] at fails
      cases settled : settle prefixes.escaped opcode rest with
      | error found =>
        rw [settled] at fails
        cases fails
        exact final_of_settle settles settled
      | ok selection =>
        simp only [settled, estimateSettled] at fails
        split at fails
        · cases fails
          rfl
        · split at fails
          · cases fails
            rfl
          · cases fails
    · obtain ⟨bySelector, rfl⟩ := missing_of_not_settles settles
      rw [estimateOperands_of_missing bySelector] at fails
      cases fails

theorem final_of_estimate {bytes : List UInt8} {fault : Fault}
    (fails : estimate bytes = .error fault) : fault.isTruncated = false := by
  simp only [estimate] at fails
  cases least : estimateOperands (Prefixes.ofBytes bytes)
      (bytes.drop (Prefixes.ofBytes bytes).count) with
  | error found =>
    rw [least] at fails
    cases fails
    rw [Fault.isTruncated_shift]
    exact final_of_estimateOperands least
  | ok operands =>
    rw [least] at fails
    cases fails

theorem shift_of_final {fault : Fault} (final : fault.isTruncated = false) (n : Nat) :
    fault.shift n = fault := by
  cases fault with
  | truncated needed available => cases final
  | _ => rfl

theorem limited_of_final {fault : Fault} (final : fault.isTruncated = false) :
    fault.limited = fault := by
  cases fault with
  | truncated needed available => cases final
  | _ => rfl

/-- Decoding compares the estimate for its window with the bytes at hand and with the limit. -/
theorem decode_eq (bytes : List UInt8) :
    decode bytes = verdict (bytes.take lengthLimit).length (estimate (bytes.take lengthLimit)) := by
  simp only [decode, decodeUnbounded_eq]
  cases least : estimate (bytes.take lengthLimit) with
  | error fault => simp only [within, verdict, limited_of_final (final_of_estimate least)]
  | ok length =>
    simp only [within, verdict]
    by_cases met : length.total ≤ (bytes.take lengthLimit).length
    · simp only [if_pos met]
    · simp only [if_neg met, Fault.limited]
      split <;> rfl

end X86Length
