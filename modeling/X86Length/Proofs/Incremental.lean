import X86Length.Proofs.Partition

/-! # Sweeping code piece by piece

More code behind the code at hand changes no result in front of the first truncation, because every
other verdict is final.  A sweep can therefore be taken up again where the first truncation stands
(`sweep_append`), and this is close to the end (`resumeAt_near_end`).  A reader that gets the code
in chunks carries over a few bytes from one to the next, and what it has swept is always the sweep
of the code so far, less that of the bytes carried over (`ChunkedSweep.Covers`). -/

namespace X86Length

/-! ## Moving a sweep -/

def SweepStep.shift (n : Nat) (step : SweepStep) : SweepStep :=
  { step with offset := n + step.offset }

def Boundary.shift (n : Nat) (boundary : Boundary) : Boundary :=
  { boundary with offset := n + boundary.offset }

/-- The same result in code that starts some bytes earlier.  An error has no offset. -/
def shiftResult (n : Nat) : Except DecodeError Boundary → Except DecodeError Boundary :=
  Except.map (Boundary.shift n)

theorem shiftResult_zero : shiftResult 0 = id := by
  funext result
  cases result <;> simp [shiftResult, Except.map, Boundary.shift]

theorem shiftResult_comp (m n : Nat) : shiftResult m ∘ shiftResult n = shiftResult (m + n) := by
  funext result
  cases result <;> simp [shiftResult, Except.map, Boundary.shift, Nat.add_assoc]

theorem sweepSteps_add (n offset : Nat) (bytes : List UInt8) :
    sweepSteps (n + offset) bytes = (sweepSteps offset bytes).map (SweepStep.shift n) := by
  induction bytes using sweep_induction generalizing offset with
  | nil => simp
  | step bytes nonempty ih =>
    rw [sweepSteps_eq nonempty, sweepSteps_eq nonempty, List.map_cons, ← ih, Nat.add_assoc]
    rfl

theorem result_shift (start : UInt64) (n : Nat) (step : SweepStep) :
    (step.shift n).result start = shiftResult n (step.result (start + UInt64.ofNat n)) := by
  have address : (step.shift n).address start = step.address (start + UInt64.ofNat n) := by
    simp only [SweepStep.address, SweepStep.shift, UInt64.ofNat_add, UInt64.add_assoc]
  simp only [SweepStep.result, address]
  simp only [SweepStep.shift]
  cases step.found <;> rfl

theorem results_sweepSteps (start : UInt64) (n : Nat) (bytes : List UInt8) :
    (sweepSteps n bytes).map (·.result start) =
      (sweep (start + UInt64.ofNat n) bytes).map (shiftResult n) := by
  have moved := sweepSteps_add n 0 bytes
  rw [Nat.add_zero] at moved
  rw [moved, sweep, List.map_map, List.map_map]
  apply List.map_congr_left
  intro step _
  exact result_shift start n step

/-! ## Truncations -/

/-- Did the bytes end inside an instruction? -/
def isTruncation {ε α : Type} (isTruncated : ε → Bool) : Except ε α → Bool
  | .ok _ => false
  | .error error => isTruncated error

theorem final_iff {α : Type} {verdict : Except Fault α} :
    Final verdict ↔ isTruncation Fault.isTruncated verdict = false := by
  cases verdict with
  | ok found => simp [isTruncation, final_ok]
  | error fault => simp [Final, isTruncation]

def SweepStep.isSettled (step : SweepStep) : Bool :=
  !isTruncation Fault.isTruncated step.found

/-- The steps of a sweep in front of the first truncation. -/
def settledSteps (offset : Nat) (bytes : List UInt8) : List SweepStep :=
  (sweepSteps offset bytes).takeWhile SweepStep.isSettled

def settledSize (offset : Nat) (bytes : List UInt8) : Nat :=
  ((settledSteps offset bytes).map SweepStep.size).sum

theorem settledSteps_of_final {bytes : List UInt8} (nonempty : bytes ≠ [])
    (final : Final (decode bytes)) (offset : Nat) :
    settledSteps offset bytes =
      stepAt offset bytes :: settledSteps (offset + leap bytes) (bytes.drop (leap bytes)) := by
  have settled : (stepAt offset bytes).isSettled = true := by
    simpa [SweepStep.isSettled, stepAt] using final_iff.mp final
  rw [settledSteps, sweepSteps_eq nonempty, List.takeWhile_cons, if_pos settled, settledSteps]

theorem settledSize_of_final {bytes : List UInt8} (nonempty : bytes ≠ [])
    (final : Final (decode bytes)) (offset : Nat) :
    settledSize offset bytes =
      leap bytes + settledSize (offset + leap bytes) (bytes.drop (leap bytes)) := by
  rw [settledSize, settledSteps_of_final nonempty final, List.map_cons, List.sum_cons, size_stepAt,
    settledSize]

theorem settledSteps_of_not_final {bytes : List UInt8} (nonempty : bytes ≠ [])
    (truncated : ¬ Final (decode bytes)) (offset : Nat) : settledSteps offset bytes = [] := by
  have unsettled : ¬ (stepAt offset bytes).isSettled = true := by
    simpa [SweepStep.isSettled, stepAt, final_iff] using truncated
  rw [settledSteps, sweepSteps_eq nonempty, List.takeWhile_cons, if_neg unsettled]

/-! ## More code -/

theorem leap_append {bytes : List UInt8} (final : Final (decode bytes)) (more : List UInt8) :
    leap (bytes ++ more) = leap bytes := by
  rw [leap, decode_append final, leap]

theorem stepAt_append {bytes : List UInt8} (nonempty : bytes ≠ [])
    (final : Final (decode bytes)) (offset : Nat) (more : List UInt8) :
    stepAt offset (bytes ++ more) = stepAt offset bytes := by
  simp only [stepAt, leap_append final, decode_append final,
    List.take_append_of_le_length (leap_le nonempty)]

theorem sweepSteps_append (offset : Nat) (bytes more : List UInt8) :
    sweepSteps offset (bytes ++ more) =
      settledSteps offset bytes ++
        sweepSteps (offset + settledSize offset bytes)
          ((bytes ++ more).drop (settledSize offset bytes)) := by
  induction bytes using sweep_induction generalizing offset with
  | nil => simp [settledSize, settledSteps]
  | step bytes nonempty ih =>
    -- A final step is taken again with more code behind it.  The first truncation ends both sides.
    by_cases final : Final (decode bytes)
    · have grown : bytes ++ more ≠ [] := List.append_ne_nil_of_left_ne_nil nonempty more
      rw [sweepSteps_eq grown, stepAt_append nonempty final, leap_append final,
        List.drop_append_of_le_length (leap_le nonempty), ih, settledSteps_of_final nonempty final,
        settledSize_of_final nonempty final, List.cons_append, Nat.add_assoc, ← List.drop_drop,
        List.drop_append_of_le_length (leap_le nonempty)]
    · simp [settledSize, settledSteps_of_not_final nonempty final]

/-- The first truncation has fewer bytes than the limit behind it. -/
theorem settledSize_near_end (offset : Nat) (bytes : List UInt8) :
    settledSize offset bytes ≤ bytes.length ∧ bytes.length - settledSize offset bytes ≤ 14 := by
  induction bytes using sweep_induction generalizing offset with
  | nil => simp [settledSize, settledSteps]
  | step bytes nonempty ih =>
    by_cases final : Final (decode bytes)
    · have behind := ih (offset + leap bytes)
      have := leap_le nonempty
      rw [settledSize_of_final nonempty final]
      rw [List.length_drop] at behind
      omega
    · obtain ⟨needed, available, truncated⟩ := truncated_of_not_final final
      obtain ⟨least, -, -, -, unmet, inLimit⟩ := decode_truncated_iff.mp truncated
      simp only [settledSize, settledSteps_of_not_final nonempty final, List.map_nil,
        List.sum_nil, lengthLimit] at inLimit ⊢
      omega

/-! ## Results -/

/-- The results in front of the first truncation. -/
def settledResults (start : UInt64) (bytes : List UInt8) : List (Except DecodeError Boundary) :=
  (sweep start bytes).takeWhile fun result => !isTruncation DecodeError.isTruncated result

/-- Where the first truncation stands, or the end of the code if there is none. -/
def resumeAt (start : UInt64) (bytes : List UInt8) : Nat :=
  match (sweep start bytes).findIdx? (isTruncation DecodeError.isTruncated) with
  | some j => startOf (sweep start bytes) j
  | none => bytes.length

theorem isTruncation_result (start : UInt64) (step : SweepStep) :
    isTruncation DecodeError.isTruncated (step.result start) =
      isTruncation Fault.isTruncated step.found := by
  unfold SweepStep.result
  cases step.found <;> rfl

theorem settledResults_eq (start : UInt64) (bytes : List UInt8) :
    settledResults start bytes = (settledSteps 0 bytes).map (·.result start) := by
  rw [settledResults, sweep, List.takeWhile_map, settledSteps]
  congr 2
  funext step
  exact congrArg _ (isTruncation_result start step)

theorem resumeAt_eq (start : UInt64) (bytes : List UInt8) :
    resumeAt start bytes = settledSize 0 bytes := by
  have settled : ((settledResults start bytes).map (stride Boundary.size)).sum =
      settledSize 0 bytes := by
    rw [settledResults_eq, List.map_map, settledSize]
    congr 2
    funext step
    exact stride_result start step
  rw [← settled, settledResults, List.takeWhile_eq_take_findIdx_not]
  simp only [Bool.not_not]
  unfold resumeAt
  split
  next j first =>
    rw [(List.findIdx?_eq_some_iff_findIdx_eq.mp first).2]
    rfl
  next none =>
    rw [List.findIdx?_eq_none_iff_findIdx_eq.mp none]
    exact (startOf_length start bytes).symm

theorem resumeAt_near_end (start : UInt64) (bytes : List UInt8) :
    resumeAt start bytes ≤ bytes.length ∧ bytes.length - resumeAt start bytes ≤ 14 := by
  rw [resumeAt_eq]
  exact settledSize_near_end 0 bytes

/-- With more code behind it, a sweep repeats its results up to the first truncation and goes on
    from there as a sweep of its own. -/
theorem sweep_append (start : UInt64) (bytes more : List UInt8) :
    sweep start (bytes ++ more) =
      settledResults start bytes ++
        (sweep (start + UInt64.ofNat (resumeAt start bytes))
            ((bytes ++ more).drop (resumeAt start bytes))).map
          (shiftResult (resumeAt start bytes)) := by
  rw [resumeAt_eq]
  calc sweep start (bytes ++ more)
      = (settledSteps 0 bytes ++ sweepSteps (settledSize 0 bytes)
          ((bytes ++ more).drop (settledSize 0 bytes))).map (·.result start) := by
        rw [sweep, sweepSteps_append, Nat.zero_add]
    _ = _ := by rw [List.map_append, ← settledResults_eq, results_sweepSteps]

/-! ## Chunks -/

/-- A sweep of code that arrives in chunks. -/
structure ChunkedSweep where
  settled : List (Except DecodeError Boundary) := []
  -- The bytes from the first truncation on, and their distance from the start of the code.
  carry : List UInt8 := []
  offset : Nat := 0

/-- Sweep what was carried over with a chunk behind it, and carry over what is not settled. -/
def ChunkedSweep.feed (start : UInt64) (state : ChunkedSweep) (chunk : List UInt8) :
    ChunkedSweep :=
  let address := start + UInt64.ofNat state.offset
  let bytes := state.carry ++ chunk
  { settled := state.settled ++ (settledResults address bytes).map (shiftResult state.offset)
    carry := bytes.drop (resumeAt address bytes)
    offset := state.offset + resumeAt address bytes }

/-- What has been swept in chunks and what a sweep of the carry adds to it are the sweep of all the
    code, whatever follows. -/
structure ChunkedSweep.Covers (start : UInt64) (code : List UInt8) (state : ChunkedSweep) :
    Prop where
  short : state.carry.length ≤ 14
  whole : ∀ more, sweep start (code ++ more) =
    state.settled ++ (sweep (start + UInt64.ofNat state.offset) (state.carry ++ more)).map
      (shiftResult state.offset)

theorem ChunkedSweep.covers_nothing (start : UInt64) : Covers start [] {} where
  short := Nat.zero_le _
  whole more := by simp [shiftResult_zero]

theorem ChunkedSweep.Covers.feed {start : UInt64} {code : List UInt8} {state : ChunkedSweep}
    (covers : state.Covers start code) (chunk : List UInt8) :
    (state.feed start chunk).Covers start (code ++ chunk) := by
  obtain ⟨inside, near⟩ :=
    resumeAt_near_end (start + UInt64.ofNat state.offset) (state.carry ++ chunk)
  constructor
  · simpa [ChunkedSweep.feed] using near
  · intro more
    simp only [ChunkedSweep.feed]
    rw [List.append_assoc code, covers.whole, ← List.append_assoc state.carry, sweep_append,
      List.map_append, List.map_map, shiftResult_comp, List.drop_append_of_le_length inside,
      UInt64.ofNat_add, ← UInt64.add_assoc, List.append_assoc state.settled]

theorem ChunkedSweep.Covers.foldl_feed {start : UInt64} {code : List UInt8} {state : ChunkedSweep}
    (covers : state.Covers start code) (chunks : List (List UInt8)) :
    (chunks.foldl (ChunkedSweep.feed start) state).Covers start (code ++ chunks.flatten) := by
  induction chunks generalizing code state with
  | nil => simpa using covers
  | cons chunk chunks ih =>
    rw [List.foldl_cons, List.flatten_cons, ← List.append_assoc]
    exact ih (covers.feed chunk)

/-- A sweep is incremental.  More code behind the code at hand leaves the results in front of the
    first truncation as they are, and the sweep goes on from there, at most fourteen bytes before
    the end.  So code that arrives in chunks is swept with fourteen bytes carried over at most. -/
theorem sweep_incremental (start : UInt64) :
    (∀ bytes more,
      resumeAt start bytes ≤ bytes.length ∧ bytes.length - resumeAt start bytes ≤ 14 ∧
      sweep start (bytes ++ more) =
        settledResults start bytes ++
          (sweep (start + UInt64.ofNat (resumeAt start bytes))
              ((bytes ++ more).drop (resumeAt start bytes))).map
            (shiftResult (resumeAt start bytes))) ∧
    ∀ chunks : List (List UInt8),
      (chunks.foldl (ChunkedSweep.feed start) {}).Covers start chunks.flatten := by
  constructor
  · intro bytes more
    obtain ⟨inside, near⟩ := resumeAt_near_end start bytes
    exact ⟨inside, near, sweep_append start bytes more⟩
  · intro chunks
    have covers := (ChunkedSweep.covers_nothing start).foldl_feed chunks
    rwa [List.nil_append] at covers

/-- The last byte of a move comes with a second piece.  The sweep is taken up again at the move, and
    the bytes of the move so far are what is carried over. -/
theorem sweep_incremental_split_move :
    resumeAt 0x1000 [0x55, 0x48, 0x89] = 1 ∧
      (ChunkedSweep.feed 0x1000 {} [0x55, 0x48, 0x89]).carry = [0x48, 0x89] ∧
      settledResults 0x1000 [0x55, 0x48, 0x89] =
        [.ok { address := 0x1000, offset := 0, length := ⟨0, 1, 0, 0⟩ }] ∧
      sweep 0x1000 [0x55, 0x48, 0x89, 0xE5] =
        [.ok { address := 0x1000, offset := 0, length := ⟨0, 1, 0, 0⟩ },
          .ok { address := 0x1001, offset := 1, length := ⟨1, 1, 1, 0⟩ }] := by
  have push : decode [0x55, 0x48, 0x89] = .ok ⟨0, 1, 0, 0⟩ := rfl
  have cut : decode [0x48, 0x89] = .error (.truncated 3 2) := rfl
  have last : decode [0x89] = .error (.truncated 2 1) := rfl
  have move : decode [0x48, 0x89, 0xE5] = .ok ⟨1, 1, 1, 0⟩ := rfl
  have swept : sweep 0x1000 [0x55, 0x48, 0x89] =
      [.ok { address := 0x1000, offset := 0, length := ⟨0, 1, 0, 0⟩ },
        .error { address := 0x1001, fault := .truncated 3 2 },
        .error { address := 0x1002, fault := .truncated 2 1 }] := by
    rw [sweep, sweepSteps_of_ok push]
    simp [InstructionLength.total, sweepSteps_of_error cut, sweepSteps_of_error last,
      SweepStep.result, SweepStep.address]
  have behind : sweep 0x1001 [0x48, 0x89, 0xE5] =
      [.ok { address := 0x1001, offset := 0, length := ⟨1, 1, 1, 0⟩ }] := by
    rw [sweep, sweepSteps_of_ok move]
    simp [InstructionLength.total, SweepStep.result, SweepStep.address]
  have resume : resumeAt 0x1000 [0x55, 0x48, 0x89] = 1 := by
    rw [resumeAt, swept]
    rfl
  have settled : settledResults 0x1000 [0x55, 0x48, 0x89] =
      [.ok { address := 0x1000, offset := 0, length := ⟨0, 1, 0, 0⟩ }] := by
    rw [settledResults, swept]
    rfl
  obtain ⟨-, -, whole⟩ := (sweep_incremental 0x1000).1 [0x55, 0x48, 0x89] [0xE5]
  refine ⟨resume, ?_, settled, ?_⟩
  · simp [ChunkedSweep.feed, resume]
  · rw [resume, settled] at whole
    simpa [behind, shiftResult, Except.map, Boundary.shift] using whole

end X86Length
