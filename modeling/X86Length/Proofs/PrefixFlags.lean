import X86Length.Proofs.Limit

/-! # What a run of prefixes tells

The decoder learns three things from the bytes of a run: whether an operand-size prefix is among
them, an address-size prefix, and a REX prefix with its W bit.  The address-size prefix governs the
addressing part (`SameAddressing`), the other two govern the immediate (`SameImmediates`), and
beside these flags only the length of the run counts.  So the order of the prefixes and their
repetition are irrelevant, to errors as well as to instructions (`decodeAt_run_congr`). -/

namespace X86Length

open Opcode

/-! ## Runs that tell the same -/

/-- Two runs give the addressing part the same form. -/
def SameAddressing (run other : List UInt8) : Prop :=
  0x67 ∈ run ↔ 0x67 ∈ other

/-- Two runs give an immediate of the operand size the same width. -/
structure SameImmediates (run other : List UInt8) : Prop where
  operandSize : 0x66 ∈ run ↔ 0x66 ∈ other
  rexW : (∃ byte ∈ run, 0x48 ≤ byte ∧ byte ≤ 0x4F) ↔ ∃ byte ∈ other, 0x48 ≤ byte ∧ byte ≤ 0x4F

theorem SameAddressing.append {run other : List UInt8} (same : SameAddressing run other)
    (more : List UInt8) : SameAddressing (run ++ more) (other ++ more) := by
  rw [SameAddressing, List.mem_append, List.mem_append]
  exact or_congr_left same

theorem SameImmediates.append {run other : List UInt8} (same : SameImmediates run other)
    (more : List UInt8) : SameImmediates (run ++ more) (other ++ more) where
  operandSize := by
    rw [List.mem_append, List.mem_append]
    exact or_congr_left same.operandSize
  rexW := by
    simp only [List.mem_append, or_and_right, exists_or]
    exact or_congr_left same.rexW

namespace Prefixes

variable {run other : List UInt8} (escaped : Bool)

theorem address16_ofRun_congr (same : SameAddressing run other) :
    (ofRun run escaped).address16 = (ofRun other escaped).address16 := by
  rw [Bool.eq_iff_iff, address16_ofRun, address16_ofRun]
  exact same

theorem operand16_ofRun_congr (same : SameImmediates run other) :
    (ofRun run escaped).operand16 = (ofRun other escaped).operand16 := by
  rw [Bool.eq_iff_iff, operand16_ofRun, operand16_ofRun]
  exact same.operandSize

theorem rexW_ofRun_congr (same : SameImmediates run other) :
    (ofRun run escaped).rexW = (ofRun other escaped).rexW := by
  rw [Bool.eq_iff_iff, rexW_ofRun, rexW_ofRun]
  exact same.rexW

theorem wideImmediate_ofRun_congr (same : SameImmediates run other) (imm64 : Bool) :
    (ofRun run escaped).wideImmediate imm64 = (ofRun other escaped).wideImmediate imm64 := by
  rw [wideImmediate, wideImmediate, operand16_ofRun_congr escaped same,
    rexW_ofRun_congr escaped same]

theorem ofRun_congr (sameLength : run.length = other.length)
    (sameAddressing : SameAddressing run other) (sameImmediates : SameImmediates run other) :
    ofRun run escaped = ofRun other escaped := by
  have legacy : (ofRun run escaped).legacy = (ofRun other escaped).legacy := by
    rw [legacy_ofRun, legacy_ofRun, sameLength]
  have isEscaped : (ofRun run escaped).escaped = (ofRun other escaped).escaped := by
    rw [escaped_ofRun, escaped_ofRun]
  have operand16 := operand16_ofRun_congr escaped sameImmediates
  have address16 := address16_ofRun_congr escaped sameAddressing
  have rexW := rexW_ofRun_congr escaped sameImmediates
  generalize ofRun run escaped = found at *
  generalize ofRun other escaped = others at *
  cases found
  cases others
  simp_all

end Prefixes

/-! ## Equal lengths -/

/-- A verdict depends on the prefixes, the estimate and the number of bytes. -/
theorem decode_congr {bytes other : List UInt8} (sameLength : bytes.length = other.length)
    (samePrefixes : Prefixes.ofBytes bytes = Prefixes.ofBytes other)
    (sameEstimate : estimate bytes = estimate other) : decode bytes = decode other := by
  cases estimated : estimate other with
  | ok least =>
    rw [estimated] at sameEstimate
    rw [decode_of_estimate sameEstimate, decode_of_estimate estimated, decodeUnbounded_eq,
      decodeUnbounded_eq, sameEstimate, estimated, sameLength]
  | error fault =>
    rw [estimated] at sameEstimate
    obtain ⟨place, dead⟩ := estimate_error_iff.mp sameEstimate
    obtain ⟨place', dead'⟩ := estimate_error_iff.mp estimated
    have samePlace : place = place' := by
      cases fault with
      | invalidOpcode opcode escaped =>
        rw [dead.place_of_invalidOpcode, dead'.place_of_invalidOpcode, samePrefixes]
      | unknownSubOpcode opcode sub =>
        rw [dead.place_of_unknownSubOpcode, dead'.place_of_unknownSubOpcode, samePrefixes]
      | truncated needed available => cases dead
      | invalidEncoding reason => cases dead
    rw [decode_of_deadEnd dead, decode_of_deadEnd dead', samePlace]

/-- The prefixes at the start of the tail belong to the run, whatever the run is. -/
theorem exists_tail_lead (tail : List UInt8) :
    ∃ more escaped rest, ∀ run, IsRun run →
      Prefixes.ofBytes (run ++ tail) = Prefixes.ofRun (run ++ more) escaped ∧
      estimate (run ++ tail) = (Prefixes.ofRun (run ++ more) escaped).complete
        (estimateOperands (Prefixes.ofRun (run ++ more) escaped) rest) := by
  obtain ⟨more, escaped, rest, isMore, stops, rfl⟩ := exists_lead tail
  refine ⟨more, escaped, rest, ?_⟩
  intro run isRun
  have whole := isRun.append isMore
  rw [← List.append_assoc, ← List.append_assoc]
  exact ⟨ofBytes_lead whole stops, estimate_lead whole stops⟩

theorem decode_run_congr {run other : List UInt8} (isRun : IsRun run) (isOther : IsRun other)
    (sameLength : run.length = other.length) (sameAddressing : SameAddressing run other)
    (sameImmediates : SameImmediates run other) (tail : List UInt8) :
    decode (run ++ tail) = decode (other ++ tail) := by
  obtain ⟨more, escaped, rest, lead⟩ := exists_tail_lead tail
  obtain ⟨prefixes, estimated⟩ := lead run isRun
  obtain ⟨prefixes', estimated'⟩ := lead other isOther
  have same : Prefixes.ofRun (run ++ more) escaped = Prefixes.ofRun (other ++ more) escaped :=
    Prefixes.ofRun_congr escaped (by simp [sameLength]) (sameAddressing.append more)
      (sameImmediates.append more)
  apply decode_congr
  · simp [sameLength]
  · rw [prefixes, prefixes', same]
  · rw [estimated, estimated', same]

/-! ## One field each -/

/-- Behind two runs with or without the escape the same opcode is found, and each part of its
    operands depends on one kind of flag. -/
theorem estimateOperands_fields {found other : Prefixes} (sameMap : found.escaped = other.escaped)
    {bytes : List UInt8} {least least' : Operands}
    (estimated : estimateOperands found bytes = .ok least)
    (estimated' : estimateOperands other bytes = .ok least') :
    least.extra = least'.extra ∧
    (found.address16 = other.address16 → least.addressing = least'.addressing) ∧
    ((∀ imm64, found.wideImmediate imm64 = other.wideImmediate imm64) →
      least.immediate = least'.immediate) := by
  cases bytes with
  | nil =>
    cases estimated
    cases estimated'
    exact ⟨rfl, fun _ => rfl, fun _ => rfl⟩
  | cons opcode rest =>
    by_cases settles : Settles found.escaped opcode rest
    · rw [estimateOperands_of_settles settles] at estimated
      rw [estimateOperands_of_settles (sameMap ▸ settles), ← sameMap] at estimated'
      cases settled : settle found.escaped opcode rest with
      | error fault =>
        rw [settled] at estimated
        cases estimated
      | ok selection =>
        rw [settled] at estimated estimated'
        obtain ⟨-, -, rfl⟩ := estimateSettled_ok_iff.mp estimated
        obtain ⟨-, -, rfl⟩ := estimateSettled_ok_iff.mp estimated'
        refine ⟨rfl, ?_, ?_⟩
        · intro sameForm
          simp only [leastOperands, leastAddressing, sameForm]
        · intro sameWidth
          simp only [leastOperands, sameWidth]
    · obtain ⟨bySelector, rfl⟩ := missing_of_not_settles settles
      rw [estimateOperands_of_missing bySelector] at estimated
      rw [estimateOperands_of_missing (sameMap ▸ bySelector)] at estimated'
      cases estimated
      cases estimated'
      exact ⟨rfl, fun _ => rfl, fun _ => rfl⟩

theorem decode_run_fields {run other : List UInt8} (isRun : IsRun run) (isOther : IsRun other)
    {tail : List UInt8} {length length' : InstructionLength}
    (decoded : decode (run ++ tail) = .ok length)
    (decoded' : decode (other ++ tail) = .ok length') :
    length.prefixes + other.length = length'.prefixes + run.length ∧
    length.opcode = length'.opcode ∧
    (SameAddressing run other → length.addressing = length'.addressing) ∧
    (SameImmediates run other → length.immediate = length'.immediate) := by
  obtain ⟨more, escaped, rest, lead⟩ := exists_tail_lead tail
  have estimated := (decode_ok_iff.mp decoded).1
  have estimated' := (decode_ok_iff.mp decoded').1
  rw [(lead run isRun).2] at estimated
  rw [(lead other isOther).2] at estimated'
  obtain ⟨least, inside, rfl⟩ := Prefixes.complete_ok estimated
  obtain ⟨least', inside', rfl⟩ := Prefixes.complete_ok estimated'
  obtain ⟨extra, addressing, immediate⟩ := estimateOperands_fields (by simp) inside inside'
  simp only [Operands.behind, Prefixes.legacy_ofRun, Prefixes.escaped_ofRun, List.length_append]
  refine ⟨by omega, by rw [extra], ?_, ?_⟩
  · intro same
    exact addressing (Prefixes.address16_ofRun_congr escaped (same.append more))
  · intro same
    exact immediate (Prefixes.wideImmediate_ofRun_congr escaped (same.append more))

/-! ## At an address -/

/-- A run of prefixes acts through its length and its flags alone.  Two runs of one length that
    agree on the flags give the same verdict in front of any tail, be that an instruction or an
    error.  Of two instructions behind any two runs, the prefixes differ as the runs do, the opcodes
    have the same size, and the addressing parts and the immediates have if the runs agree on the
    flags that govern them. -/
theorem decodeAt_run_congr {run other : List UInt8} (isRun : IsRun run) (isOther : IsRun other)
    (tail : List UInt8) (address : UInt64) :
    (run.length = other.length → SameAddressing run other → SameImmediates run other →
      decodeAt address (run ++ tail) = decodeAt address (other ++ tail)) ∧
    ∀ length length',
      decodeAt address (run ++ tail) = .ok length →
      decodeAt address (other ++ tail) = .ok length' →
      length.prefixes + other.length = length'.prefixes + run.length ∧
      length.opcode = length'.opcode ∧
      (SameAddressing run other → length.addressing = length'.addressing) ∧
      (SameImmediates run other → length.immediate = length'.immediate) := by
  constructor
  · intro sameLength sameAddressing sameImmediates
    apply decodeAt_congr
    exact decode_run_congr isRun isOther sameLength sameAddressing sameImmediates tail
  · intro length length' decoded decoded'
    exact decode_run_fields isRun isOther (decodeAt_ok_iff.mp decoded) (decodeAt_ok_iff.mp decoded')

/-- REX.W takes effect in front of an operand-size prefix as well, and a second one of these
    changes nothing: eight bytes are missing of the immediate.  An address-size prefix makes a
    displacement of two bytes and leaves the immediate alone. -/
theorem decodeAt_run_congr_move :
    IsRun [0x48, 0x66, 0x2E] ∧ IsRun [0x66, 0x4F, 0x66] ∧
      decodeAt 0 ([0x48, 0x66, 0x2E] ++ [0xB8]) =
        .error { address := 0, fault := .truncated 12 4 } ∧
      decodeAt 0 ([0x66, 0x4F, 0x66] ++ [0xB8]) =
        .error { address := 0, fault := .truncated 12 4 } ∧
      IsRun [0x2E, 0x67] ∧ IsRun [] ∧
      decodeAt 0 ([0x2E, 0x67] ++ [0x66, 0xC7, 0x06, 1, 2, 3, 4]) = .ok ⟨3, 1, 3, 2⟩ ∧
      ∀ length, decodeAt 0 ([] ++ [0x66, 0xC7, 0x06, 1, 2, 3, 4]) = .ok length →
        3 = length.prefixes + 2 ∧ length.opcode = 1 ∧ length.immediate = 2 := by
  have mixed : IsRun [0x48, 0x66, 0x2E] := by
    unfold IsRun
    decide +kernel
  have twice : IsRun [0x66, 0x4F, 0x66] := by
    unfold IsRun
    decide +kernel
  have short : IsRun [0x2E, 0x67] := by
    unfold IsRun
    decide +kernel
  have sameAddressing : SameAddressing [0x48, 0x66, 0x2E] [0x66, 0x4F, 0x66] := by
    unfold SameAddressing
    decide
  have wide : decodeAt 0 ([0x48, 0x66, 0x2E] ++ [0xB8]) =
      .error { address := 0, fault := .truncated 12 4 } := rfl
  have same := (decodeAt_run_congr mixed twice [0xB8] 0).1 rfl sameAddressing
    ⟨by decide, by decide⟩
  have moved : decodeAt 0 ([0x2E, 0x67] ++ [0x66, 0xC7, 0x06, 1, 2, 3, 4]) = .ok ⟨3, 1, 3, 2⟩ := rfl
  refine ⟨mixed, twice, wide, same ▸ wide, short, isRun_nil, moved, ?_⟩
  intro length decoded
  obtain ⟨prefixes, opcode, -, immediate⟩ :=
    (decodeAt_run_congr short isRun_nil [0x66, 0xC7, 0x06, 1, 2, 3, 4] 0).2 _ length moved decoded
  exact ⟨prefixes, opcode.symm, (immediate ⟨by decide, by decide⟩).symm⟩

end X86Length
