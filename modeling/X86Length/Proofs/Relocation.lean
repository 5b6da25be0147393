import X86Length.Proofs.GuardedListing

/-! # Moving code to another address

Nothing in decoding looks at an address.  An address is a label that goes with the code: it is
passed on from the start of the code to each place, to each error and to the text of the error, and
two runs over the same code at two addresses differ in these labels alone.

The step that carries the address along is compared with itself at another address first, and then
the loop (`Guarded.sweepFrom_add`); sweeps, listings and sizes follow (`addresses_are_labels`). -/

namespace X86Length

/-! ## Results and rows -/

/-- The same boundary in code that stands some distance behind. -/
def Boundary.rebase (distance : UInt64) (boundary : Boundary) : Boundary :=
  { boundary with address := boundary.address + distance }

def rebaseResult (distance : UInt64) :
    Except DecodeError Boundary → Except DecodeError Boundary
  | .ok boundary => .ok (boundary.rebase distance)
  | .error error => .error (error.rebase distance)

theorem SweepStep.address_add (start distance : UInt64) (step : SweepStep) :
    step.address (start + distance) = step.address start + distance := by
  simp only [SweepStep.address, UInt64.add_assoc, UInt64.add_comm distance]

theorem rebaseResult_result (start distance : UInt64) (step : SweepStep) :
    rebaseResult distance (step.result start) = step.result (start + distance) := by
  simp only [SweepStep.result, SweepStep.address_add]
  cases step.found <;> rfl

theorem sweep_add (start distance : UInt64) (bytes : List UInt8) :
    sweep (start + distance) bytes = (sweep start bytes).map (rebaseResult distance) := by
  rw [sweep, sweep, List.map_map]
  apply List.map_congr_left
  intro step _
  exact (rebaseResult_result start distance step).symm

theorem Row.rebase_rebase (near far : UInt64) (row : Row) :
    (row.rebase near).rebase far = row.rebase (near + far) := by
  simp only [Row.rebase, UInt64.add_assoc]
  cases row.found <;>
    simp only [Guarded.mapError_ok, Guarded.mapError_error, DecodeError.rebase, UInt64.add_assoc]

theorem listing_add (start distance : UInt64) (limit : Nat) (code : List UInt8) :
    listing (start + distance) limit code =
      (listing start limit code).map (Row.rebase distance) := by
  rw [listing, listing, List.map_map]
  apply List.map_congr_left
  intro step _
  rw [Function.comp_apply, ← Row.rebase_ofStep (start + distance), ← Row.rebase_ofStep start,
    Row.rebase_rebase]

/-! ## Guarded runs -/

namespace Guarded

def Halt.rebase (distance : UInt64) : Halt → Halt
  | .breach why => .breach why
  | .error found => .error (found.rebase distance)

theorem decodeLength_add (address distance : UInt64) (bytes : List UInt8) :
    decodeLength (address + distance) bytes =
      (decodeLength address bytes).mapError (Halt.rebase distance) := by
  rw [decodeLength_eq, decodeLength_eq, decodeAt, decodeAt]
  cases decode bytes <;> rfl

theorem advance_add (address distance : UInt64) (offset : Nat)
    (verdict : Except Halt InstructionLength) :
    advance (address + distance) offset (verdict.mapError (Halt.rebase distance)) =
      (advance address offset verdict).map (Prod.map (rebaseResult distance) id) := by
  match verdict with
  | .ok length =>
    show (total length >>= fun size => sum offset size >>= _) =
      (total length >>= fun size => sum offset size >>= _).map _
    cases total length with
    | error halt => rfl
    | ok size =>
      show (sum offset size >>= _) = (sum offset size >>= _).map _
      cases sum offset size <;> rfl
  | .error (.error error) =>
    show (sum offset 1 >>= _) = (sum offset 1 >>= _).map _
    cases sum offset 1 <;> rfl
  | .error (.breach why) => rfl

theorem sweepStep_add (start distance : UInt64) (code : List UInt8) (offset : Nat) :
    sweepStep (start + distance) code offset =
      (sweepStep start code offset).map (Prod.map (rebaseResult distance) id) := by
  have address : start + distance + UInt64.ofNat offset =
      start + UInt64.ofNat offset + distance := by
    rw [UInt64.add_assoc, UInt64.add_comm distance, UInt64.add_assoc]
  simp only [sweepStep, address]
  cases sliceFrom code offset with
  | error halt => rfl
  | ok rest =>
    show advance _ offset (decodeLength (start + UInt64.ofNat offset + distance) rest) = _
    rw [decodeLength_add]
    exact advance_add _ distance offset _

theorem sweepFrom_add (start distance : UInt64) (code : List UInt8) (offset : Nat) :
    sweepFrom (start + distance) code offset =
      (sweepFrom start code offset).map (List.map (rebaseResult distance)) := by
  by_cases inside : offset < code.length
  · rw [sweepFrom_of_lt inside, sweepFrom_of_lt inside, sweepStep_add]
    cases taken : sweepStep start code offset with
    | error halt => rfl
    | ok step =>
      obtain ⟨result, next⟩ := step
      have forward := lt_of_sweepStep inside taken
      show (sweepFrom (start + distance) code next).map _ =
        ((sweepFrom start code next).map _).map _
      rw [sweepFrom_add start distance code next]
      cases sweepFrom start code next <;> rfl
  · rw [sweepFrom_of_le (by omega), sweepFrom_of_le (by omega)]
    rfl
termination_by code.length - offset
decreasing_by omega

end Guarded

/-! ## Texts and sizes -/

/-- The text of an error is the same at every address, but for the address itself. -/
theorem exists_message (fault : Fault) :
    ∃ before behind, ∀ address, (DecodeError.mk address fault).message =
      before ++ Text.hexadecimal address.toNat ++ behind := by
  cases fault with
  | invalidOpcode opcode escaped =>
    refine ⟨"invalid opcode at ",
      ": " ++ (if escaped then "0f " else "") ++ Text.hexByte opcode, ?_⟩
    intro address
    simp only [DecodeError.message, String.append_assoc]
  | unknownSubOpcode opcode sub =>
    refine ⟨"unknown sub-opcode at ",
      ": 0f " ++ Text.hexByte opcode ++ " " ++ Text.hexByte sub, ?_⟩
    intro address
    simp only [DecodeError.message, String.append_assoc]
  | truncated needed available =>
    refine ⟨"truncated instruction at ",
      ": need " ++ Text.decimal needed ++ " bytes, have " ++ Text.decimal available, ?_⟩
    intro address
    simp only [DecodeError.message, String.append_assoc]
  | invalidEncoding reason =>
    refine ⟨"invalid encoding at ", ": " ++ reason, ?_⟩
    intro address
    simp only [DecodeError.message, String.append_assoc]

theorem sizeOrInvalid_eq_decodeAt (address : UInt64) (bytes : List UInt8) :
    sizeOrInvalid bytes =
      match decodeAt address bytes with
      | .ok length => (length.total : Int)
      | .error _ => -1 := by
  rw [sizeOrInvalid, decodeAt]
  cases decode bytes <;> rfl

theorem sizeOrInvalid_eq_neg_one_iff (address : UInt64) (bytes : List UInt8) :
    sizeOrInvalid bytes = -1 ↔ ∃ error, decodeAt address bytes = .error error := by
  rw [sizeOrInvalid_eq_decodeAt address]
  cases decodeAt address bytes with
  | ok length =>
    -- A size has a sign of its own.
    have signed : (length.total : Int) ≠ -1 := by omega
    simp [signed]
  | error error => simp

/-- Addresses are labels.  From one start to another, the results of a sweep, the rows of a listing
    and the verdicts on single instructions keep all but their addresses, which move as the start
    does and wrap around; an address stands in the text of an error only once, between parts that
    do not depend on it.  The size of an instruction is its total at every address, and minus one
    if and only if nothing decodes at one address or another. -/
theorem addresses_are_labels (start other : UInt64) (bytes : List UInt8) :
    sweep other bytes = (sweep start bytes).map (rebaseResult (other - start)) ∧
    (∀ limit, listing other limit bytes =
      (listing start limit bytes).map (Row.rebase (other - start))) ∧
    Guarded.decodeLength other bytes =
      (Guarded.decodeLength start bytes).mapError (Guarded.Halt.rebase (other - start)) ∧
    Guarded.sweepFrom other bytes 0 =
      (Guarded.sweepFrom start bytes 0).map (List.map (rebaseResult (other - start))) ∧
    (∀ fault, ∃ before behind, ∀ address, (DecodeError.mk address fault).message =
      before ++ Text.hexadecimal address.toNat ++ behind) ∧
    ∀ address,
      (sizeOrInvalid bytes =
        match decodeAt address bytes with
        | .ok length => (length.total : Int)
        | .error _ => -1) ∧
      (sizeOrInvalid bytes = -1 ↔ ∃ error, decodeAt address bytes = .error error) := by
  have moved : start + (other - start) = other := by
    rw [UInt64.add_comm, UInt64.sub_add_cancel]
  refine ⟨?_, ?_, ?_, ?_, exists_message, ?_⟩
  · rw [← sweep_add, moved]
  · intro limit
    rw [← listing_add, moved]
  · rw [← Guarded.decodeLength_add, moved]
  · rw [← Guarded.sweepFrom_add, moved]
  · intro address
    exact ⟨sizeOrInvalid_eq_decodeAt address bytes, sizeOrInvalid_eq_neg_one_iff address bytes⟩

end X86Length
