import X86Length.CommandLine.Report
import X86Length.Proofs.Partition
import X86Length.Proofs.SpacedHex

/-! # Listing a part of a file

A step of a sweep sees a full window of the bytes in front of it at most, and goes no further.  So
`count` full windows hold all that `count` steps can see (`sweepSteps_take`), and the part of a file
that is read for `count` instructions lists as the whole rest of the file would
(`fileRows_eq_take`). -/

namespace X86Length

/-! ## Windows -/

theorem decode_take_of_le {n : Nat} (window : lengthLimit ≤ n) (bytes : List UInt8) :
    decode (bytes.take n) = decode bytes := by
  rw [decode, List.take_take, Nat.min_eq_left window, decode]

theorem leap_take_of_le {n : Nat} (window : lengthLimit ≤ n) (bytes : List UInt8) :
    leap (bytes.take n) = leap bytes := by
  rw [leap, decode_take_of_le window, leap]

theorem leap_le_limit (bytes : List UInt8) : leap bytes ≤ lengthLimit := by
  unfold leap
  cases decoded : decode bytes with
  | ok length => exact (decode_ok_bounds decoded).2.2
  | error fault => exact (by decide : 1 ≤ lengthLimit)

theorem stepAt_take_of_le {n : Nat} (window : lengthLimit ≤ n) (offset : Nat)
    (bytes : List UInt8) : stepAt offset (bytes.take n) = stepAt offset bytes := by
  have inWindow : leap bytes ≤ n := Nat.le_trans (leap_le_limit bytes) window
  simp only [stepAt, decode_take_of_le window, leap_take_of_le window, List.take_take,
    Nat.min_eq_left inWindow]

/-- The first steps of a sweep see a full window each. -/
theorem sweepSteps_take {count n : Nat} (windows : count * lengthLimit ≤ n) (offset : Nat)
    (bytes : List UInt8) :
    (sweepSteps offset (bytes.take n)).take count = (sweepSteps offset bytes).take count := by
  induction count generalizing n offset bytes with
  | zero => rw [List.take_zero, List.take_zero]
  | succ count ih =>
    by_cases nonempty : bytes = []
    · rw [nonempty, List.take_nil]
    · have window : lengthLimit ≤ n := by
        rw [Nat.succ_mul] at windows
        omega
      have cut : bytes.take n ≠ [] := by
        simp only [ne_eq, List.take_eq_nil_iff, nonempty, or_false]
        exact Nat.ne_of_gt (Nat.lt_of_lt_of_le (by decide) window)
      have behind : count * lengthLimit ≤ n - leap bytes := by
        have := leap_le_limit bytes
        rw [Nat.succ_mul] at windows
        omega
      rw [sweepSteps_eq cut, sweepSteps_eq nonempty, stepAt_take_of_le window,
        leap_take_of_le window, List.drop_take, List.take_succ_cons, List.take_succ_cons, ih behind]

/-! ## Places of steps -/

theorem length_sweepSteps_le (offset : Nat) (bytes : List UInt8) :
    (sweepSteps offset bytes).length ≤ bytes.length := by
  induction bytes using sweep_induction generalizing offset with
  | nil => simp
  | step bytes nonempty ih =>
    have := ih (offset + leap bytes)
    have := leap_pos bytes
    have := leap_le nonempty
    rw [List.length_drop] at *
    rw [sweepSteps_eq nonempty, List.length_cons]
    omega

theorem offset_lt_of_mem_sweepSteps {offset : Nat} {bytes : List UInt8} :
    ∀ step ∈ sweepSteps offset bytes, step.offset < offset + bytes.length := by
  induction bytes using sweep_induction generalizing offset with
  | nil => simp
  | step bytes nonempty ih =>
    have := leap_pos bytes
    have := leap_le nonempty
    rw [sweepSteps_eq nonempty, List.forall_mem_cons]
    constructor
    · show offset < offset + bytes.length
      omega
    · intro step later
      have := ih step later
      rw [List.length_drop] at this
      omega

/-! ## Listings -/

theorem listing_of_length_le {limit : Nat} {code : List UInt8} (enough : code.length ≤ limit)
    (base : UInt64) : listing base limit code = (sweepSteps 0 code).map (Row.ofStep base) := by
  rw [listing, List.take_of_length_le]
  exact Nat.le_trans (length_sweepSteps_le 0 code) enough

/-- The same error at a place some distance behind. -/
def DecodeError.rebase (distance : UInt64) (error : DecodeError) : DecodeError :=
  { error with address := error.address + distance }

/-- The same row in code that stands some distance behind. -/
def Row.rebase (distance : UInt64) (row : Row) : Row :=
  { row with
    address := row.address + distance
    found := row.found.mapError (DecodeError.rebase distance) }

theorem Row.rebase_ofStep (distance : UInt64) (step : SweepStep) :
    (Row.ofStep 0 step).rebase distance = Row.ofStep distance step := by
  have address : step.address 0 + distance = step.address distance := by
    simp only [SweepStep.address, UInt64.zero_add, UInt64.add_comm]
  have found : (step.found.mapError (DecodeError.mk (step.address 0))).mapError
      (DecodeError.rebase distance) =
        step.found.mapError (DecodeError.mk (step.address distance)) := by
    rw [← address]
    cases step.found <;> rfl
  rw [Row.rebase, Row.ofStep, Row.ofStep, address, found]

end X86Length

namespace X86Length.CommandLine

theorem sweepSteps_extract {data : List UInt8} {start : Nat} (small : data.length < wordLimit)
    (inside : start ≤ data.length) (count : Nat) :
    (sweepSteps 0 (extract data start count)).take count =
      (sweepSteps 0 (data.drop start)).take count := by
  rw [extract]
  by_cases whole : (data.drop start).length ≤ extractEnd data.length start count - start
  · rw [List.take_of_length_le whole]
  · -- The end is neither that of the file nor a saturated sum, which would reach that.
    apply sweepSteps_take
    rw [List.length_drop] at whole
    simp only [extractEnd, saturate] at whole ⊢
    omega

/-- The rows that are printed for bytes on the command line. -/
def hexRows (code : List UInt8) : List Row :=
  listing 0 code.length code

theorem result_reportHex {texts : List String} {code : List UInt8}
    (given : HexBytes.read texts = .ok code) (json : Bool) :
    (reportHex json texts).result = .ok (printedRows json (hexRows code)) := by
  rw [reportHex, given]
  rfl

theorem result_reportFile {data : List UInt8} {offset count : Nat}
    (inside : offset ≤ data.length) (counted : 1 ≤ count) (json : Bool) (path : String) :
    (reportFile json path offset count (.ok data)).result =
      .ok (printedRows json (fileRows data offset count)) := by
  simp only [reportFile]
  rw [if_neg (by omega), if_neg (by omega)]

/-- A file is listed from a part of it as it would be from its whole rest.  The rows are those that
    the command line prints for the bytes of the rest, if there are any, moved to where they stand
    in the file; no address wraps around. -/
theorem fileRows_eq_take (data : List UInt8) (offset count : Nat)
    (small : data.length < wordLimit) (inside : offset ≤ data.length) (counted : 1 ≤ count) :
    (∀ limit ≥ (data.drop offset).length, fileRows data offset count =
      (listing (UInt64.ofNat offset) limit (data.drop offset)).take count) ∧
    fileRows data offset count =
      ((hexRows (data.drop offset)).take count).map (Row.rebase (UInt64.ofNat offset)) ∧
    (∀ row ∈ fileRows data offset count, row.address.toNat = offset + row.offset) ∧
    (data.drop offset ≠ [] → ∃ texts, HexBytes.read texts = .ok (data.drop offset)) ∧
    ∀ json,
      (∀ path, (reportFile json path offset count (.ok data)).result =
        .ok (printedRows json (fileRows data offset count))) ∧
      ∀ texts, HexBytes.read texts = .ok (data.drop offset) →
        (reportHex json texts).result =
          .ok (printedRows json (hexRows (data.drop offset))) := by
  have rows : fileRows data offset count =
      ((sweepSteps 0 (data.drop offset)).take count).map (Row.ofStep (UInt64.ofNat offset)) := by
    rw [fileRows, listing, sweepSteps_extract small inside]
  refine ⟨?_, ?_, ?_, ?_, ?_⟩
  · intro limit enough
    rw [rows, listing_of_length_le enough, List.map_take]
  · rw [rows, hexRows, listing_of_length_le (Nat.le_refl _), ← List.map_take, List.map_map]
    apply List.map_congr_left
    intro step _
    exact (Row.rebase_ofStep (UInt64.ofNat offset) step).symm
  · intro row listed
    rw [rows] at listed
    obtain ⟨step, inFront, rfl⟩ := List.mem_map.mp listed
    have inRest := offset_lt_of_mem_sweepSteps step (List.mem_of_mem_take inFront)
    rw [List.length_drop, Nat.zero_add] at inRest
    simp only [wordLimit, UInt64.size] at small
    simp only [Row.ofStep, SweepStep.address, UInt64.toNat_add, UInt64.toNat_ofNat']
    omega
  · intro nonempty
    have piece : [data.drop offset].flatten ≠ [] := by rwa [List.flatten_singleton]
    have given := HexBytes.read_spacedHex piece
    rw [List.flatten_singleton] at given
    exact ⟨_, given⟩
  · intro json
    exact ⟨result_reportFile inside counted json, fun _ given => result_reportHex given json⟩

/-- Fourteen prefixes and their instruction fill the part of a file that is read for a single row,
    and the byte behind them is not looked at. -/
theorem fileRows_eq_take_window :
    HexBytes.read ["2e2e2e2e2e2e2e2e2e2e2e2e2e2e", "90 06"] =
        .ok (List.replicate 14 0x2E ++ [0x90, 0x06]) ∧
      (reportFile false "a.bin" 1 1 (.ok (0xC3 :: List.replicate 14 0x2E ++ [0x90, 0x06]))).result =
        .ok (printedRows false
          (((hexRows (List.replicate 14 0x2E ++ [0x90, 0x06])).take 1).map (Row.rebase 1))) ∧
      (reportHex false ["2e2e2e2e2e2e2e2e2e2e2e2e2e2e", "90 06"]).result =
        .ok (printedRows false (hexRows (List.replicate 14 0x2E ++ [0x90, 0x06]))) := by
  have given : HexBytes.read ["2e2e2e2e2e2e2e2e2e2e2e2e2e2e", "90 06"] =
      .ok (List.replicate 14 0x2E ++ [0x90, 0x06]) := by rfl
  obtain ⟨-, same, -, -, printed⟩ :=
    fileRows_eq_take (0xC3 :: List.replicate 14 0x2E ++ [0x90, 0x06]) 1 1
      (by decide) (by decide) (by decide)
  refine ⟨given, ?_, (printed false).2 _ given⟩
  rw [(printed false).1, same]
  rfl

end X86Length.CommandLine
