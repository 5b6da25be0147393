import X86Length.Proofs.DeadEnds

/-! # The limit

A verdict without the limit rests on the first bytes only: those of the instruction, those that a
truncation asks for, or those up to the byte at which the input dies.  The limit leaves it alone
where they are within the limit, and makes the instruction too long where they are not. -/

namespace X86Length

theorem overlong_or_decided (bytes : List UInt8) :
    decode bytes = .error (.invalidEncoding tooLong) ∨
      (∃ least, estimate bytes = .ok least ∧ least.total ≤ lengthLimit) ∨
      ∃ place fault, DeadEnd bytes place fault ∧ place < lengthLimit := by
  cases verdict : decode bytes with
  | ok length =>
    obtain ⟨estimated, -, inLimit⟩ := decode_ok_iff.mp verdict
    exact .inr (.inl ⟨length, estimated, inLimit⟩)
  | error fault =>
    by_cases overlong : fault = .invalidEncoding tooLong
    · exact .inl (congrArg _ overlong)
    · cases truncation : fault.isTruncated with
      | false =>
        obtain ⟨place, dead, inLimit⟩ := deadEnd_of_decode verdict truncation overlong
        exact .inr (.inr ⟨place, fault, dead, inLimit⟩)
      | true =>
        cases fault with
        | truncated needed available =>
          obtain ⟨least, estimated, rfl, -, -, inLimit⟩ := decode_truncated_iff.mp verdict
          exact .inr (.inl ⟨least, estimated, inLimit⟩)
        | _ => cases truncation

/-- With an estimate the limit acts on the bytes that the instruction needs. -/
theorem decode_of_estimate {bytes : List UInt8} {least : InstructionLength}
    (estimated : estimate bytes = .ok least) :
    decode bytes =
      if least.total ≤ lengthLimit then decodeUnbounded bytes
      else .error (.invalidEncoding tooLong) := by
  by_cases inLimit : least.total ≤ lengthLimit
  · rw [if_pos inLimit, decodeUnbounded_eq, estimated]
    by_cases met : least.total ≤ bytes.length
    · simp only [within, if_pos met]
      exact decode_ok_iff.mpr ⟨estimated, met, inLimit⟩
    · simp only [within, if_neg met]
      exact decode_truncated_iff.mpr
        ⟨least, estimated, rfl, rfl, Nat.lt_of_not_le met, inLimit⟩
  · rw [if_neg inLimit]
    rcases overlong_or_decided bytes with
      overlong | ⟨other, again, short⟩ | ⟨place, fault, dead, -⟩
    · exact overlong
    · rw [estimated] at again
      cases again
      exact absurd short inLimit
    · rw [estimate_error_iff.mpr ⟨place, dead⟩] at estimated
      cases estimated

theorem decode_of_deadEnd {bytes : List UInt8} {place : Nat} {fault : Fault}
    (dead : DeadEnd bytes place fault) :
    decode bytes =
      if place < lengthLimit then .error fault else .error (.invalidEncoding tooLong) := by
  have fails := estimate_error_iff.mpr ⟨place, dead⟩
  by_cases inLimit : place < lengthLimit
  · rw [if_pos inLimit, decode_eq, estimate_error_iff.mpr ⟨place, dead.take inLimit⟩]
    rfl
  · rw [if_neg inLimit]
    -- Within the limit nothing else decides: an input dies at one place only.
    rcases overlong_or_decided bytes with
      overlong | ⟨least, estimated, -⟩ | ⟨other, found, again, near⟩
    · exact overlong
    · rw [estimated] at fails
      cases fails
    · rw [estimate_error_iff.mpr ⟨other, again⟩] at fails
      cases fails
      rw [dead.place_unique again] at inLimit
      exact absurd near inLimit

/-! ## At an address -/

theorem decodeAt_eq_mapError (address : UInt64) (bytes : List UInt8) :
    decodeAt address bytes = (decode bytes).mapError fun fault => { address, fault } := by
  unfold decodeAt
  cases decode bytes <;> rfl

def overlongAt (address : UInt64) : DecodeError where
  address
  fault := .invalidEncoding tooLong

/-- Decoding is decoding without the limit, restricted to it: a verdict stands if the instruction,
    the bytes asked for or the deciding byte are within the limit, and otherwise the instruction is
    too long.  No other verdict is possible without the limit. -/
theorem decodeAt_eq_restriction (address : UInt64) (bytes : List UInt8) :
    match decodeUnbounded bytes with
    | .ok length =>
      decodeAt address bytes =
        if length.total ≤ lengthLimit then .ok length else .error (overlongAt address)
    | .error (.invalidOpcode opcode escaped) =>
      ∃ place, DeadEnd bytes place (.invalidOpcode opcode escaped) ∧
        decodeAt address bytes = .error
          (if place < lengthLimit then { address, fault := .invalidOpcode opcode escaped }
          else overlongAt address)
    | .error (.unknownSubOpcode opcode sub) =>
      ∃ place, DeadEnd bytes place (.unknownSubOpcode opcode sub) ∧
        decodeAt address bytes = .error
          (if place < lengthLimit then { address, fault := .unknownSubOpcode opcode sub }
          else overlongAt address)
    | .error (.truncated needed available) =>
      decodeAt address bytes = .error
        (if needed ≤ lengthLimit then { address, fault := .truncated needed available }
        else overlongAt address)
    | .error (.invalidEncoding _) => False := by
  cases estimated : estimate bytes with
  | ok least =>
    have limited := decode_of_estimate estimated
    rw [decodeUnbounded_eq, estimated] at limited ⊢
    by_cases met : least.total ≤ bytes.length
    · simp only [within, if_pos met] at limited ⊢
      rw [decodeAt_eq_mapError, limited]
      split <;> rfl
    · simp only [within, if_neg met] at limited ⊢
      rw [decodeAt_eq_mapError, limited]
      split <;> rfl
  | error fault =>
    obtain ⟨place, dead⟩ := estimate_error_iff.mp estimated
    have limited := decode_of_deadEnd dead
    rw [decodeUnbounded_eq, estimated, decodeAt_eq_mapError, limited]
    cases fault with
    | invalidOpcode opcode escaped =>
      refine ⟨place, dead, ?_⟩
      split <;> rfl
    | unknownSubOpcode opcode sub =>
      refine ⟨place, dead, ?_⟩
      split <;> rfl
    | truncated needed available => cases dead
    | invalidEncoding reason => cases dead

/-- The selector that decides is the fifteenth byte behind twelve prefixes, and one too far behind
    thirteen. -/
example : decodeAt 0 (List.replicate 12 0x2E ++ [0x0F, 0x38, 0x00]) =
      .error { address := 0, fault := .unknownSubOpcode 0x38 0x00 } ∧
    decodeAt 0 (List.replicate 13 0x2E ++ [0x0F, 0x38, 0x00]) = .error (overlongAt 0) :=
  ⟨rfl, rfl⟩

end X86Length
