import X86Length.Decode

/-! # Walking over code

Three walks over a byte list start at its first byte and go from instruction to instruction.

* `sweep` goes to the end: where nothing decodes it records the error, skips one byte and tries
  again.
* `leadingStarts` lists the offsets of the leading instructions and stops at the first error or at a
  given offset.
* `spanningLength` adds up whole leading instructions until they span a required number of bytes.
-/

namespace X86Length

/-- One instruction found in some code. -/
structure Boundary where
  address : UInt64
  -- Its distance from the start of the code.
  offset : Nat
  length : InstructionLength
  deriving DecidableEq, Repr

/-- The size of the instruction. -/
def Boundary.size (boundary : Boundary) : Nat :=
  boundary.length.total

/-! ## The sweep -/

/-- One step of a sweep: a place and what was found there. -/
structure SweepStep where
  offset : Nat
  -- The bytes that the step takes: an instruction, or a single byte that starts none.
  bytes : List UInt8
  found : Except Fault InstructionLength

/-- The steps of a sweep over the rest of some code that starts at an offset. -/
def sweepSteps (offset : Nat) (bytes : List UInt8) : List SweepStep :=
  match bytes with
  | [] => []
  | byte :: rest =>
    match _h : decode (byte :: rest) with
    | .ok length =>
      { offset, bytes := (byte :: rest).take length.total, found := .ok length } ::
        sweepSteps (offset + length.total) ((byte :: rest).drop length.total)
    | .error fault =>
      { offset, bytes := [byte], found := .error fault } :: sweepSteps (offset + 1) rest
termination_by bytes.length
decreasing_by
  · have := decode_ok_bounds _h
    simp only [List.length_drop, List.length_cons]
    omega
  · simp

@[simp] theorem sweepSteps_nil (offset : Nat) : sweepSteps offset [] = [] := by
  rw [sweepSteps]

/-- A sweep takes an instruction as one step and goes on behind it. -/
theorem sweepSteps_of_ok {bytes : List UInt8} {length : InstructionLength}
    (h : decode bytes = .ok length) (offset : Nat) :
    sweepSteps offset bytes =
      { offset, bytes := bytes.take length.total, found := .ok length } ::
        sweepSteps (offset + length.total) (bytes.drop length.total) := by
  match bytes, h with
  | [], h => cases h
  | byte :: rest, h =>
    rw [sweepSteps]
    split
    · rename_i found hfound
      rw [h] at hfound
      cases hfound
      rfl
    · rename_i fault hfault
      rw [h] at hfault
      cases hfault

/-- A sweep takes a byte that starts no instruction as one step and goes on behind it. -/
theorem sweepSteps_of_error {byte : UInt8} {rest : List UInt8} {fault : Fault}
    (h : decode (byte :: rest) = .error fault) (offset : Nat) :
    sweepSteps offset (byte :: rest) =
      { offset, bytes := [byte], found := .error fault } :: sweepSteps (offset + 1) rest := by
  rw [sweepSteps]
  split
  · rename_i length hlength
    rw [h] at hlength
    cases hlength
  · rename_i found hfound
    rw [h] at hfound
    cases hfound
    rfl

/-- The address of a step in code that stands at an address.  Addresses wrap around. -/
def SweepStep.address (start : UInt64) (step : SweepStep) : UInt64 :=
  start + UInt64.ofNat step.offset

/-- What a step found, as seen in code that stands at an address. -/
def SweepStep.result (start : UInt64) (step : SweepStep) : Except DecodeError Boundary :=
  let address := step.address start
  match step.found with
  | .ok length => .ok { address, offset := step.offset, length }
  | .error fault => .error { address, fault }

/-- Every instruction and every error of code that stands at an address. -/
def sweep (start : UInt64) (bytes : List UInt8) : List (Except DecodeError Boundary) :=
  (sweepSteps 0 bytes).map (·.result start)

/-! ## The leading instructions -/

/-- The offsets, from `offset` on and below `limit`, at which the leading instructions start. -/
def leadingStartsFrom (limit offset : Nat) (bytes : List UInt8) : List Nat :=
  match bytes with
  | [] => []
  | byte :: rest =>
    if offset < limit then
      match _h : decode (byte :: rest) with
      | .ok length =>
        offset :: leadingStartsFrom limit (offset + length.total) ((byte :: rest).drop length.total)
      | .error _ => []
    else []
termination_by bytes.length
decreasing_by
  have := decode_ok_bounds _h
  simp only [List.length_drop, List.length_cons]
  omega

@[simp] theorem leadingStartsFrom_nil (limit offset : Nat) :
    leadingStartsFrom limit offset [] = [] := by
  rw [leadingStartsFrom]

theorem leadingStartsFrom_of_le {limit offset : Nat} (h : limit ≤ offset) (bytes : List UInt8) :
    leadingStartsFrom limit offset bytes = [] := by
  cases bytes with
  | nil => exact leadingStartsFrom_nil limit offset
  | cons byte rest =>
    rw [leadingStartsFrom, if_neg]
    omega

theorem leadingStartsFrom_of_ok {bytes : List UInt8} {length : InstructionLength}
    (h : decode bytes = .ok length) {limit offset : Nat} (hlt : offset < limit) :
    leadingStartsFrom limit offset bytes =
      offset :: leadingStartsFrom limit (offset + length.total) (bytes.drop length.total) := by
  match bytes, h with
  | [], h => cases h
  | byte :: rest, h =>
    rw [leadingStartsFrom, if_pos hlt]
    split
    · rename_i found hfound
      rw [h] at hfound
      cases hfound
      rfl
    · rename_i fault hfault
      rw [h] at hfault
      cases hfault

theorem leadingStartsFrom_of_error {bytes : List UInt8} {fault : Fault}
    (h : decode bytes = .error fault) (limit offset : Nat) :
    leadingStartsFrom limit offset bytes = [] := by
  match bytes, h with
  | [], _ => exact leadingStartsFrom_nil limit offset
  | byte :: rest, h =>
    rw [leadingStartsFrom]
    split
    · split
      · rename_i length hlength
        rw [h] at hlength
        cases hlength
      · rfl
    · rfl

/-- The offsets below `limit` at which the leading instructions of a byte list start. -/
def leadingStarts (limit : Nat) (bytes : List UInt8) : List Nat :=
  leadingStartsFrom limit 0 bytes

/-- The end of the first instruction, from `offset` on, that reaches `required`. -/
def spanningLengthFrom (required offset : Nat) (bytes : List UInt8) : Except DecodeError Nat :=
  if offset < required then
    match _h : decode bytes with
    | .ok length =>
      spanningLengthFrom required (offset + length.total) (bytes.drop length.total)
    | .error fault => .error { address := UInt64.ofNat offset, fault }
  else .ok offset
termination_by required - offset
decreasing_by
  have := decode_ok_bounds _h
  omega

theorem spanningLengthFrom_of_le {required offset : Nat} (h : required ≤ offset)
    (bytes : List UInt8) : spanningLengthFrom required offset bytes = .ok offset := by
  rw [spanningLengthFrom, if_neg]
  omega

theorem spanningLengthFrom_of_ok {bytes : List UInt8} {length : InstructionLength}
    (h : decode bytes = .ok length) {required offset : Nat} (hlt : offset < required) :
    spanningLengthFrom required offset bytes =
      spanningLengthFrom required (offset + length.total) (bytes.drop length.total) := by
  rw [spanningLengthFrom, if_pos hlt]
  split
  · rename_i found hfound
    rw [h] at hfound
    cases hfound
    rfl
  · rename_i fault hfault
    rw [h] at hfault
    cases hfault

theorem spanningLengthFrom_of_error {bytes : List UInt8} {fault : Fault}
    (h : decode bytes = .error fault) {required offset : Nat} (hlt : offset < required) :
    spanningLengthFrom required offset bytes =
      .error { address := UInt64.ofNat offset, fault } := by
  rw [spanningLengthFrom, if_pos hlt]
  split
  · rename_i length hlength
    rw [h] at hlength
    cases hlength
  · rename_i found hfound
    rw [h] at hfound
    cases hfound
    rfl

/-- The size of the fewest leading instructions that span `required` bytes, or the first error on
    the way, whose address is its offset. -/
def spanningLength (required : Nat) (bytes : List UInt8) : Except DecodeError Nat :=
  spanningLengthFrom required 0 bytes

end X86Length
