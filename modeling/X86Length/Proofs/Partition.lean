import Mathlib.Algebra.GroupWithZero.Nat
import X86Length.Proofs.Growth
import X86Length.Sweep

/-! # How a sweep divides code

A sweep goes over the code in leaps: over an instruction where one starts, and over a single byte
where none does.  Each leap lands behind its start and inside the code (`leap_pos`, `leap_le`), so
the steps divide the code among them without a gap or an overlap, and each of them is what decoding
finds at its place (`sweep_partition`). -/

namespace X86Length

/-! ## One step -/

/-- How many bytes a result takes: those of what was found, or a single one. -/
def stride {ε α : Type} (size : α → Nat) : Except ε α → Nat
  | .ok found => size found
  | .error _ => 1

/-- How far the first step of a sweep goes. -/
def leap (bytes : List UInt8) : Nat :=
  stride InstructionLength.total (decode bytes)

def stepAt (offset : Nat) (bytes : List UInt8) : SweepStep where
  offset
  bytes := bytes.take (leap bytes)
  found := decode bytes

theorem leap_pos (bytes : List UInt8) : 0 < leap bytes := by
  unfold leap
  cases decoded : decode bytes with
  | ok length => exact (decode_ok_bounds decoded).1
  | error fault => exact Nat.one_pos

theorem leap_le {bytes : List UInt8} (nonempty : bytes ≠ []) : leap bytes ≤ bytes.length := by
  unfold leap
  cases decoded : decode bytes with
  | ok length => exact (decode_ok_bounds decoded).2.1
  | error fault => exact List.length_pos_iff.mpr nonempty

/-- Whatever it finds, a sweep takes one step and goes on behind it. -/
theorem sweepSteps_eq {bytes : List UInt8} (nonempty : bytes ≠ []) (offset : Nat) :
    sweepSteps offset bytes =
      stepAt offset bytes :: sweepSteps (offset + leap bytes) (bytes.drop (leap bytes)) := by
  obtain ⟨byte, rest, rfl⟩ := List.exists_cons_of_ne_nil nonempty
  cases decoded : decode (byte :: rest) with
  | ok length =>
    rw [sweepSteps_of_ok decoded]
    simp only [stepAt, leap, decoded, stride]
  | error fault =>
    rw [sweepSteps_of_error decoded]
    simp only [stepAt, leap, decoded, stride, List.take_succ_cons, List.take_zero,
      List.drop_succ_cons, List.drop_zero]

@[elab_as_elim]
theorem sweep_induction {motive : List UInt8 → Prop} (nil : motive [])
    (step : ∀ bytes, bytes ≠ [] → motive (bytes.drop (leap bytes)) → motive bytes)
    (bytes : List UInt8) : motive bytes := by
  by_cases empty : bytes = []
  · rw [empty]
    exact nil
  · exact step bytes empty (sweep_induction nil step _)
termination_by bytes.length
decreasing_by
  have := leap_pos bytes
  have := leap_le empty
  rw [List.length_drop]
  omega

/-! ## All steps -/

def SweepStep.size (step : SweepStep) : Nat :=
  stride InstructionLength.total step.found

theorem size_stepAt (offset : Nat) (bytes : List UInt8) : (stepAt offset bytes).size = leap bytes :=
  rfl

theorem sum_size_sweepSteps (offset : Nat) (bytes : List UInt8) :
    ((sweepSteps offset bytes).map SweepStep.size).sum = bytes.length := by
  induction bytes using sweep_induction generalizing offset with
  | nil => simp
  | step bytes nonempty ih =>
    have := leap_le nonempty
    rw [sweepSteps_eq nonempty, List.map_cons, List.sum_cons, size_stepAt, ih, List.length_drop]
    omega

/-- Every step is the first one of a sweep that starts behind the steps before it. -/
theorem sweepSteps_getElem? {offset j : Nat} {bytes : List UInt8} {step : SweepStep}
    (found : (sweepSteps offset bytes)[j]? = some step) :
    step = stepAt (offset + (((sweepSteps offset bytes).take j).map SweepStep.size).sum)
      (bytes.drop (((sweepSteps offset bytes).take j).map SweepStep.size).sum) := by
  induction bytes using sweep_induction generalizing offset j with
  | nil => simp at found
  | step bytes nonempty ih =>
    rw [sweepSteps_eq nonempty] at found ⊢
    cases j with
    | zero =>
      simp only [List.getElem?_cons_zero, Option.some.injEq] at found
      simp [← found]
    | succ j =>
      rw [List.getElem?_cons_succ] at found
      rw [ih found, List.take_succ_cons, List.map_cons, List.sum_cons, size_stepAt, List.drop_drop,
        Nat.add_assoc]

/-! ## Results -/

/-- How many bytes the results in front of one take. -/
def startOf (results : List (Except DecodeError Boundary)) (j : Nat) : Nat :=
  ((results.take j).map (stride Boundary.size)).sum

theorem stride_result (start : UInt64) (step : SweepStep) :
    stride Boundary.size (step.result start) = step.size := by
  unfold SweepStep.result SweepStep.size
  cases step.found <;> rfl

theorem startOf_sweep (start : UInt64) (bytes : List UInt8) (j : Nat) :
    startOf (sweep start bytes) j = (((sweepSteps 0 bytes).take j).map SweepStep.size).sum := by
  simp only [startOf, sweep, ← List.map_take, List.map_map]
  congr 2
  funext step
  exact stride_result start step

theorem startOf_length (start : UInt64) (bytes : List UInt8) :
    startOf (sweep start bytes) (sweep start bytes).length = bytes.length := by
  rw [startOf_sweep, sweep, List.length_map, List.take_length, sum_size_sweepSteps]

theorem result_stepAt (start : UInt64) (offset : Nat) (bytes : List UInt8) :
    (stepAt offset bytes).result start =
      (decodeAt (start + UInt64.ofNat offset) bytes).map
        (Boundary.mk (start + UInt64.ofNat offset) offset) := by
  simp only [SweepStep.result, SweepStep.address, stepAt, decodeAt]
  cases decode bytes <;> rfl

theorem address_of_decodeAt {α : Type} {address : UInt64} {bytes : List UInt8}
    {f : InstructionLength → α} {error : DecodeError}
    (fails : (decodeAt address bytes).map f = .error error) : error.address = address := by
  unfold decodeAt at fails
  cases decoded : decode bytes <;> rw [decoded] at fails <;> cases fails
  rfl

/-- The results of a sweep divide the code: the bytes they take add up to the code, and each of
    them is what decoding finds behind those before it, at the address there, which wraps around. -/
theorem sweep_partition (start : UInt64) (bytes : List UInt8) :
    startOf (sweep start bytes) (sweep start bytes).length = bytes.length ∧
    ∀ j result, (sweep start bytes)[j]? = some result →
      ∃ address : UInt64,
        address.toNat = (start.toNat + startOf (sweep start bytes) j) % 2 ^ 64 ∧
        result = (decodeAt address (bytes.drop (startOf (sweep start bytes) j))).map
          (Boundary.mk address (startOf (sweep start bytes) j)) ∧
        ∀ error, result = .error error → error.address = address := by
  refine ⟨startOf_length start bytes, ?_⟩
  intro j result found
  obtain ⟨step, foundStep, rfl⟩ :
      ∃ step, (sweepSteps 0 bytes)[j]? = some step ∧ step.result start = result := by
    simpa [sweep] using found
  have first := sweepSteps_getElem? foundStep
  rw [← startOf_sweep start, Nat.zero_add] at first
  refine ⟨start + UInt64.ofNat (startOf (sweep start bytes) j), ?_, ?_, ?_⟩
  · simp
  · rw [first, result_stepAt]
  · intro error fails
    rw [first, result_stepAt] at fails
    exact address_of_decodeAt fails

/-- The second step of a sweep that starts at the last address stands at address zero. -/
theorem sweep_partition_wraps :
    (sweep 0xFFFFFFFFFFFFFFFF [0x90, 0x06, 0x55])[1]? =
        some (.error { address := 0, fault := .invalidOpcode 0x06 false }) ∧
      ∃ address : UInt64,
        address.toNat = ((0xFFFFFFFFFFFFFFFF : UInt64).toNat +
          startOf (sweep 0xFFFFFFFFFFFFFFFF [0x90, 0x06, 0x55]) 1) % 2 ^ 64 ∧
        .error { address := 0, fault := .invalidOpcode 0x06 false } =
          (decodeAt address ([0x90, 0x06, 0x55].drop
            (startOf (sweep 0xFFFFFFFFFFFFFFFF [0x90, 0x06, 0x55]) 1))).map
              (Boundary.mk address (startOf (sweep 0xFFFFFFFFFFFFFFFF [0x90, 0x06, 0x55]) 1)) ∧
        0 = address := by
  have found : (sweep 0xFFFFFFFFFFFFFFFF [0x90, 0x06, 0x55])[1]? =
      some (.error { address := 0, fault := .invalidOpcode 0x06 false }) := by
    have nop : decode [0x90, 0x06, 0x55] = .ok ⟨0, 1, 0, 0⟩ := rfl
    have invalid : decode [0x06, 0x55] = .error (.invalidOpcode 0x06 false) := rfl
    rw [sweep, sweepSteps_of_ok nop]
    simp [InstructionLength.total, sweepSteps_of_error invalid, SweepStep.result,
      SweepStep.address]
  obtain ⟨address, place, same, named⟩ := (sweep_partition 0xFFFFFFFFFFFFFFFF _).2 1 _ found
  exact ⟨found, address, place, same, named _ rfl⟩

end X86Length
