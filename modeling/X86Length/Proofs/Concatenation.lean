import X86Length.Proofs.Incremental

/-! # Code put together from instructions

Bytes that decode to their own length are a whole instruction.  Whatever stands behind it, decoding
finds it again, because a success is final (`WholeInstruction.decode_append`).  So a sweep over
instructions in a row takes one step for each of them and goes on behind the last
(`sweepSteps_code`), and code is put together from instructions in one way only (`codeOf_inj`). -/

namespace X86Length

/-! ## One instruction -/

/-- Bytes that are an instruction from the first to the last. -/
structure WholeInstruction where
  bytes : List UInt8
  length : InstructionLength
  decodes : decode bytes = .ok length
  whole : length.total = bytes.length

theorem decode_take_total {bytes : List UInt8} {length : InstructionLength}
    (decoded : decode bytes = .ok length) : decode (bytes.take length.total) = .ok length := by
  by_cases final : Final (decode (bytes.take length.total))
  · have whole := decode_append final (bytes.drop length.total)
    rw [List.take_append_drop, decoded] at whole
    exact whole.symm
  · -- A truncation would ask for more bytes than the instruction has.
    obtain ⟨needed, available, truncated⟩ := truncated_of_not_final final
    obtain ⟨-, -, -, -, unmet, -⟩ := decode_truncated_iff.mp truncated
    have resumes := decode_append_of_truncated truncated (bytes.drop length.total)
    have inside := (decode_ok_bounds decoded).2.1
    rw [List.take_append_drop, decoded] at resumes
    rw [List.length_take_of_le inside] at unmet
    cases resumes with
    | decoded reached => exact absurd unmet (Nat.not_lt.mpr reached)

namespace WholeInstruction

/-- The instruction at the start of bytes that decode. -/
def first {bytes : List UInt8} {length : InstructionLength} (decoded : decode bytes = .ok length) :
    WholeInstruction where
  bytes := bytes.take length.total
  length
  decodes := decode_take_total decoded
  whole := (List.length_take_of_le (decode_ok_bounds decoded).2.1).symm

theorem decode_append (instruction : WholeInstruction) (more : List UInt8) :
    decode (instruction.bytes ++ more) = .ok instruction.length := by
  have final : Final (decode instruction.bytes) := by
    rw [instruction.decodes]
    exact final_ok instruction.length
  rw [X86Length.decode_append final, instruction.decodes]

theorem length_pos (instruction : WholeInstruction) : 0 < instruction.bytes.length := by
  rw [← instruction.whole]
  exact (decode_ok_bounds instruction.decodes).1

theorem length_le (instruction : WholeInstruction) : instruction.bytes.length ≤ lengthLimit := by
  rw [← instruction.whole]
  exact (decode_ok_bounds instruction.decodes).2.2

theorem bytes_inj {first second : WholeInstruction} (same : first.bytes = second.bytes) :
    first = second := by
  obtain ⟨bytes, length, decodes, whole⟩ := first
  obtain ⟨_, other, decodesOther, _⟩ := second
  cases same
  rw [decodes] at decodesOther
  cases decodesOther
  rfl

end WholeInstruction

/-! ## Instructions in a row -/

/-- The code that instructions in a row make. -/
def codeOf (instructions : List WholeInstruction) : List UInt8 :=
  instructions.flatMap WholeInstruction.bytes

@[simp] theorem codeOf_nil : codeOf [] = [] := rfl

@[simp] theorem codeOf_cons (instruction : WholeInstruction)
    (instructions : List WholeInstruction) :
    codeOf (instruction :: instructions) = instruction.bytes ++ codeOf instructions := rfl

@[simp] theorem codeOf_append (instructions others : List WholeInstruction) :
    codeOf (instructions ++ others) = codeOf instructions ++ codeOf others := by
  simp [codeOf]

/-- Where one of some instructions in a row starts. -/
def placeOf (instructions : List WholeInstruction) (j : Nat) : Nat :=
  (codeOf (instructions.take j)).length

@[simp] theorem placeOf_zero (instructions : List WholeInstruction) :
    placeOf instructions 0 = 0 := by
  simp [placeOf]

@[simp] theorem placeOf_cons_succ (instruction : WholeInstruction)
    (instructions : List WholeInstruction) (j : Nat) :
    placeOf (instruction :: instructions) (j + 1) =
      instruction.bytes.length + placeOf instructions j := by
  simp [placeOf]

@[simp] theorem placeOf_length (instructions : List WholeInstruction) :
    placeOf instructions instructions.length = (codeOf instructions).length := by
  simp [placeOf]

/-- The steps of a sweep over instructions in a row. -/
def stepsOf (offset : Nat) (instructions : List WholeInstruction) : List SweepStep :=
  instructions.mapIdx fun j instruction =>
    { offset := offset + placeOf instructions j
      bytes := instruction.bytes
      found := .ok instruction.length }

theorem stepsOf_cons (offset : Nat) (instruction : WholeInstruction)
    (instructions : List WholeInstruction) :
    stepsOf offset (instruction :: instructions) =
      { offset, bytes := instruction.bytes, found := .ok instruction.length } ::
        stepsOf (offset + instruction.bytes.length) instructions := by
  simp [stepsOf, List.mapIdx_cons, Nat.add_assoc]

theorem sweepSteps_code (offset : Nat) (instructions : List WholeInstruction)
    (tail : List UInt8) :
    sweepSteps offset (codeOf instructions ++ tail) =
      stepsOf offset instructions ++ sweepSteps (offset + (codeOf instructions).length) tail := by
  induction instructions generalizing offset with
  | nil => simp [stepsOf]
  | cons instruction instructions ih =>
    rw [codeOf_cons, List.append_assoc, sweepSteps_of_ok (instruction.decode_append _),
      instruction.whole, List.take_left, List.drop_left, ih, stepsOf_cons, List.cons_append,
      List.length_append, Nat.add_assoc]

theorem bytes_stepsOf (offset : Nat) (instructions : List WholeInstruction) :
    (stepsOf offset instructions).map SweepStep.bytes =
      instructions.map WholeInstruction.bytes := by
  induction instructions generalizing offset with
  | nil => rfl
  | cons instruction instructions ih =>
    rw [stepsOf_cons, List.map_cons, List.map_cons, ih]

/-- A sweep gives back the instructions that code was put together from. -/
theorem codeOf_inj {instructions others : List WholeInstruction}
    (same : codeOf instructions = codeOf others) : instructions = others := by
  have steps (instructions : List WholeInstruction) :
      (sweepSteps 0 (codeOf instructions)).map SweepStep.bytes =
        instructions.map WholeInstruction.bytes := by
    have swept := sweepSteps_code 0 instructions []
    rw [List.append_nil, sweepSteps_nil, List.append_nil] at swept
    rw [swept, bytes_stepsOf]
  have bytes : instructions.map WholeInstruction.bytes = others.map WholeInstruction.bytes := by
    rw [← steps, same, steps]
  exact (List.map_inj_right fun _ _ => WholeInstruction.bytes_inj).mp bytes

/-! ## Results -/

/-- What a sweep finds of instructions in a row, in code that stands at an address. -/
def boundariesOf (start : UInt64) (instructions : List WholeInstruction) : List Boundary :=
  instructions.mapIdx fun j instruction =>
    { address := start + UInt64.ofNat (placeOf instructions j)
      offset := placeOf instructions j
      length := instruction.length }

theorem result_stepsOf (start : UInt64) (instructions : List WholeInstruction) :
    (stepsOf 0 instructions).map (·.result start) = (boundariesOf start instructions).map .ok := by
  apply List.ext_getElem
  · simp [stepsOf, boundariesOf]
  · intro j _ _
    simp [stepsOf, boundariesOf, SweepStep.result, SweepStep.address]

theorem sweep_code (start : UInt64) (instructions : List WholeInstruction) (tail : List UInt8) :
    sweep start (codeOf instructions ++ tail) =
      (boundariesOf start instructions).map .ok ++
        (sweep (start + UInt64.ofNat (codeOf instructions).length) tail).map
          (shiftResult (codeOf instructions).length) := by
  rw [sweep, sweepSteps_code, Nat.zero_add, List.map_append, result_stepsOf, results_sweepSteps]

/-- A sweep undoes the concatenation of instructions: it finds each of them at its place, whatever
    follows, and goes on behind the last as a sweep of its own.  So no two lists of instructions
    make the same code. -/
theorem sweep_undoes_concatenation (start : UInt64) (instructions : List WholeInstruction)
    (tail : List UInt8) :
    sweep start (codeOf instructions ++ tail) =
        (boundariesOf start instructions).map .ok ++
          (sweep (start + UInt64.ofNat (codeOf instructions).length) tail).map
            (shiftResult (codeOf instructions).length) ∧
      ∀ others, codeOf others = codeOf instructions → others = instructions :=
  ⟨sweep_code start instructions tail, fun _ same => codeOf_inj same⟩

/-- The two instructions that open a stack frame, the first at the last address, in front of a byte
    that starts none. -/
theorem sweep_frame_entry :
    sweep 0xFFFFFFFFFFFFFFFF [0x55, 0x48, 0x89, 0xE5, 0x06] =
      [.ok { address := 0xFFFFFFFFFFFFFFFF, offset := 0, length := ⟨0, 1, 0, 0⟩ },
        .ok { address := 0, offset := 1, length := ⟨1, 1, 1, 0⟩ },
        .error { address := 3, fault := .invalidOpcode 0x06 false }] ∧
      ∀ others, codeOf others = [0x55, 0x48, 0x89, 0xE5] →
        others.map (·.bytes) = [[0x55], [0x48, 0x89, 0xE5]] := by
  obtain ⟨swept, unique⟩ := sweep_undoes_concatenation 0xFFFFFFFFFFFFFFFF
    [⟨[0x55], ⟨0, 1, 0, 0⟩, rfl, rfl⟩, ⟨[0x48, 0x89, 0xE5], ⟨1, 1, 1, 0⟩, rfl, rfl⟩] [0x06]
  have invalid : decode [0x06] = .error (.invalidOpcode 0x06 false) := rfl
  have behind : sweep 3 [0x06] =
      [.error { address := 3, fault := .invalidOpcode 0x06 false }] := by
    rw [sweep, sweepSteps_of_error invalid, sweepSteps_nil]
    rfl
  constructor
  · refine swept.trans ?_
    show _ ++ (sweep 3 [0x06]).map (shiftResult 4) = _
    rw [behind]
    rfl
  · intro others same
    rw [unique others same]
    rfl

end X86Length
