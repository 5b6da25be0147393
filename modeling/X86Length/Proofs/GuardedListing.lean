import X86Length.Proofs.Extract
import X86Length.Proofs.GuardedDecoder

/-! # Listings under guard

A listing is made from the results of a sweep.  A boundary tells its offset in the code, but an
error tells an address only: the offset is what the address is past the base, and the difference
wraps around as the sum did from which the address came.  Then the bytes of the row are cut out of
the code.

The sweep and the cuts are guarded here, and none of the guards ever holds up a listing
(`entries_total`). -/

namespace X86Length.Guarded

/-! ## The sweep -/

/-- The result at an offset where decoding ends in a verdict, and the offset behind it. -/
def advance (address : UInt64) (offset : Nat) :
    Except Halt InstructionLength → Except Halt (Except DecodeError Boundary × Nat)
  | .ok length => do
    let size ← total length
    let next ← sum offset size
    .ok (.ok { address, offset, length }, next)
  | .error (.error error) => do
    let next ← sum offset 1
    .ok (.error error, next)
  | .error (.breach breach) => .error (.breach breach)

def sweepStep (start : UInt64) (code : List UInt8) (offset : Nat) :
    Except Halt (Except DecodeError Boundary × Nat) := do
  let rest ← sliceFrom code offset
  let address := start + UInt64.ofNat offset
  advance address offset (decodeLength address rest)

/-- A step of the sweep is a leap, if that does not lead too far. -/
theorem sweepStep_eq_map {code : List UInt8} {offset : Nat} (inside : offset ≤ code.length)
    (start : UInt64) :
    sweepStep start code offset =
      (sum offset (leap (code.drop offset))).map fun next =>
        ((stepAt offset (code.drop offset)).result start, next) := by
  rw [sweepStep, sliceFrom_of_le inside, ok_bind]
  dsimp only
  rw [decodeLength_eq, decodeAt, leap]
  simp only [SweepStep.result, stepAt]
  cases decoded : decode (code.drop offset) with
  | ok length =>
    show (total length >>= fun size => sum offset size >>= _) = _
    rw [total_of_decode decoded, ok_bind]
    show (sum offset length.total >>= _) = (sum offset length.total).map _
    cases sum offset length.total <;> rfl
  | error fault =>
    show (sum offset 1 >>= _) = (sum offset 1).map _
    cases sum offset 1 <;> rfl

theorem leap_drop_le {code : List UInt8} {offset : Nat} (inside : offset < code.length) :
    offset + leap (code.drop offset) ≤ code.length := by
  have nonempty : code.drop offset ≠ [] := by simpa using inside
  have stays := leap_le nonempty
  rw [List.length_drop] at stays
  omega

theorem sweepStep_eq {code : List UInt8} {offset : Nat} (small : code.length < wordLimit)
    (inside : offset < code.length) (start : UInt64) :
    sweepStep start code offset =
      .ok ((stepAt offset (code.drop offset)).result start,
        offset + leap (code.drop offset)) := by
  have stays := leap_drop_le inside
  rw [sweepStep_eq_map (Nat.le_of_lt inside), sum_of_lt (by omega)]
  rfl

/-- A sweep goes forward, so it comes to an end. -/
theorem lt_of_sweepStep {start : UInt64} {code : List UInt8} {offset next : Nat}
    {result : Except DecodeError Boundary} (inside : offset < code.length)
    (taken : sweepStep start code offset = .ok (result, next)) : offset < next := by
  have forward := leap_pos (code.drop offset)
  rw [sweepStep_eq_map (Nat.le_of_lt inside), sum] at taken
  split at taken <;> cases taken
  omega

def sweepFrom (start : UInt64) (code : List UInt8) (offset : Nat) :
    Except Halt (List (Except DecodeError Boundary)) :=
  if _inside : offset < code.length then
    match _taken : sweepStep start code offset with
    | .ok (result, next) => (sweepFrom start code next).map (result :: ·)
    | .error halt => .error halt
  else .ok []
termination_by code.length - offset
decreasing_by
  have := lt_of_sweepStep _inside _taken
  omega

theorem sweepFrom_of_lt {code : List UInt8} {offset : Nat} (inside : offset < code.length)
    (start : UInt64) :
    sweepFrom start code offset =
      match sweepStep start code offset with
      | .ok (result, next) => (sweepFrom start code next).map (result :: ·)
      | .error halt => .error halt := by
  rw [sweepFrom, dif_pos inside]
  split <;> simp_all only

theorem sweepFrom_of_le {code : List UInt8} {offset : Nat} (atEnd : code.length ≤ offset)
    (start : UInt64) : sweepFrom start code offset = .ok [] := by
  rw [sweepFrom, dif_neg (by omega)]

theorem sweepFrom_eq {code : List UInt8} (small : code.length < wordLimit) (start : UInt64)
    (offset : Nat) :
    sweepFrom start code offset =
      .ok ((sweepSteps offset (code.drop offset)).map (·.result start)) := by
  by_cases inside : offset < code.length
  · have nonempty : code.drop offset ≠ [] := by simpa using inside
    have forward := leap_pos (code.drop offset)
    rw [sweepFrom_of_lt inside, sweepStep_eq small inside, sweepSteps_eq nonempty]
    dsimp only
    rw [sweepFrom_eq small start, List.drop_drop]
    rfl
  · rw [sweepFrom_of_le (by omega), List.drop_of_length_le (by omega), sweepSteps_nil]
    rfl
termination_by code.length - offset
decreasing_by omega

/-! ## Rows -/

/-- A row as a machine keeps it: the bytes are written already, and it has a length or an error. -/
structure Entry where
  address : UInt64
  offset : Nat
  bytes : String
  length : Option InstructionLength
  error : Option String
  deriving DecidableEq

def bytesAt (code : List UInt8) (offset size : Nat) : Except Halt (List UInt8) := do
  let stop ← sum offset size
  slice code offset stop

/-- The entry for a result in code that stands at the base. -/
def entryOf (base : UInt64) (code : List UInt8) :
    Except DecodeError Boundary → Except Halt Entry
  | .ok boundary => do
    let bytes ← bytesAt code boundary.offset boundary.size
    .ok
      { address := boundary.address
        offset := boundary.offset
        bytes := Text.spacedHex bytes
        length := some boundary.length
        error := none }
  | .error error => do
    let offset := (error.address - base).toNat
    let bytes ← bytesAt code offset 1
    .ok
      { address := error.address
        offset
        bytes := Text.spacedHex bytes
        length := none
        error := some error.message }

/-- The first entries, `limit` at most, of code that stands at the base. -/
def entries (base : UInt64) (limit : Nat) (code : List UInt8) : Except Halt (List Entry) := do
  let results ← sweepFrom base code 0
  (results.take limit).mapM (entryOf base code)

def Entry.ofRow (row : Row) : Entry where
  address := row.address
  offset := row.offset
  bytes := Text.spacedHex row.bytes
  length := row.found.toOption
  error := match row.found with
    | .ok _ => none
    | .error error => some error.message

/-- An address past the base tells the offset, also where it has wrapped around. -/
theorem toNat_address_sub {offset : Nat} (small : offset < wordLimit) (base : UInt64) :
    (base + UInt64.ofNat offset - base).toNat = offset := by
  rw [UInt64.add_comm, UInt64.add_sub_cancel, UInt64.toNat_ofNat_of_lt' small]

theorem bytesAt_of_le {code : List UInt8} {offset size : Nat} (small : code.length < wordLimit)
    (inside : offset + size ≤ code.length) :
    bytesAt code offset size = .ok ((code.drop offset).take size) := by
  rw [bytesAt, sum_of_lt (by omega), ok_bind, slice_of_le (by omega) inside,
    Nat.add_sub_cancel_left]

theorem entryOf_result {code : List UInt8} {offset : Nat} (small : code.length < wordLimit)
    (inside : offset < code.length) (base : UInt64) :
    entryOf base code ((stepAt offset (code.drop offset)).result base) =
      .ok (.ofRow (Row.ofStep base (stepAt offset (code.drop offset)))) := by
  have cut : bytesAt code offset (leap (code.drop offset)) = .ok _ :=
    bytesAt_of_le small (leap_drop_le inside)
  simp only [SweepStep.result, SweepStep.address, Row.ofStep, stepAt]
  unfold leap at cut ⊢
  cases decoded : decode (code.drop offset) with
  | ok length =>
    rw [decoded] at cut
    show (bytesAt code offset length.total >>= _) = _
    rw [show bytesAt code offset length.total = _ from cut]
    rfl
  | error fault =>
    rw [decoded] at cut
    show (bytesAt code (base + UInt64.ofNat offset - base).toNat 1 >>= _) = _
    rw [toNat_address_sub (by omega), show bytesAt code offset 1 = _ from cut]
    rfl

theorem mapM_eq_map {α β : Type} {verdict : α → Except Halt β} {value : α → β} {list : List α}
    (all : ∀ found ∈ list, verdict found = .ok (value found)) :
    list.mapM verdict = .ok (list.map value) := by
  induction list with
  | nil => rfl
  | cons head rest ih =>
    rw [List.forall_mem_cons] at all
    rw [List.mapM_cons, all.1, ok_bind, ih all.2]
    rfl

/-- A step of a sweep over the whole code is what is found at its offset. -/
theorem eq_stepAt_of_mem {code : List UInt8} {step : SweepStep}
    (taken : step ∈ sweepSteps 0 code) : step = stepAt step.offset (code.drop step.offset) := by
  obtain ⟨k, found⟩ := List.mem_iff_getElem?.mp taken
  have first := sweepSteps_getElem? found
  rw [Nat.zero_add] at first
  have place : step.offset = (((sweepSteps 0 code).take k).map SweepStep.size).sum := by
    rw [first]
    rfl
  rwa [← place] at first

theorem entries_eq {code : List UInt8} (small : code.length < wordLimit) (base : UInt64)
    (limit : Nat) :
    entries base limit code = .ok ((listing base limit code).map Entry.ofRow) := by
  rw [entries, sweepFrom_eq small, List.drop_zero, ok_bind, listing, ← List.map_take,
    List.mapM_map, List.map_map]
  apply mapM_eq_map
  intro step listed
  have taken := List.mem_of_mem_take listed
  have inside := offset_lt_of_mem_sweepSteps step taken
  rw [Nat.zero_add] at inside
  rw [eq_stepAt_of_mem taken]
  exact entryOf_result small inside base

/-! ## The bytes of all rows -/

theorem flatten_bytes_sweepSteps (offset : Nat) (bytes : List UInt8) :
    ((sweepSteps offset bytes).map SweepStep.bytes).flatten = bytes := by
  induction bytes using sweep_induction generalizing offset with
  | nil => rw [sweepSteps_nil, List.map_nil, List.flatten_nil]
  | step bytes nonempty ih =>
    rw [sweepSteps_eq nonempty, List.map_cons, List.flatten_cons, ih]
    exact List.take_append_drop (leap bytes) bytes

theorem read_listing {base : UInt64} {limit : Nat} {code : List UInt8} (nonempty : code ≠ [])
    (enough : (sweep base code).length ≤ limit) :
    HexBytes.read ((listing base limit code).map fun row => Text.spacedHex row.bytes) =
      .ok code := by
  have pieces := flatten_bytes_sweepSteps 0 code
  rw [sweep, List.length_map] at enough
  rw [listing, List.take_of_length_le enough, List.map_map]
  show HexBytes.read ((sweepSteps 0 code).map (Text.spacedHex ∘ SweepStep.bytes)) = _
  rw [← List.map_map, HexBytes.read_spacedHex (by rwa [pieces]), pieces]

/-! ## Every listing -/

/-- What an entry says of a result that takes bytes of the code from a place on. -/
structure Entry.Describes (entry : Entry) (base : UInt64) (code : List UInt8) (place : Nat)
    (result : Except DecodeError Boundary) : Prop where
  inside : place + stride Boundary.size result ≤ code.length
  offset : entry.offset = place
  address : entry.address.toNat = (base.toNat + place) % 2 ^ 64
  bytes : entry.bytes = Text.spacedHex ((code.drop place).take (stride Boundary.size result))
  either : entry.length.isSome = entry.error.isNone
  ok : ∀ boundary, result = .ok boundary →
    boundary.address = entry.address ∧ boundary.offset = place ∧
      entry.length = some boundary.length
  error : ∀ error, result = .error error →
    error.address = entry.address ∧ entry.error = some error.message

theorem describes_stepAt {code : List UInt8} {place : Nat} (inside : place < code.length)
    (base : UInt64) :
    (Entry.ofRow (Row.ofStep base (stepAt place (code.drop place)))).Describes base code place
      ((stepAt place (code.drop place)).result base) := by
  constructor
  case inside =>
    rw [stride_result, size_stepAt]
    exact leap_drop_le inside
  case offset => rfl
  case address => simp [Entry.ofRow, Row.ofStep, SweepStep.address, stepAt]
  case bytes =>
    rw [stride_result, size_stepAt]
    rfl
  all_goals
    simp only [SweepStep.result, SweepStep.address, Entry.ofRow, Row.ofStep, stepAt]
    cases decode (code.drop place) with
    | ok length => simp [mapError_ok, Except.toOption]
    | error fault => simp [mapError_error, Except.toOption]

/-- No code holds up its listing, at whatever base.  The rows are the first results of the sweep,
    `limit` at most, and each says of its result where that stands, also where the addresses have
    wrapped around, which bytes it takes, and either how long it is or what is wrong.  If there is
    room for all of them, the bytes of the rows read back as the code. -/
theorem entries_total (base : UInt64) (limit : Nat) (code : List UInt8)
    (small : code.length < wordLimit) :
    ∃ rows, entries base limit code = .ok rows ∧
      rows = (listing base limit code).map Entry.ofRow ∧
      rows.length = min limit (sweep base code).length ∧
      (∀ k (row : Entry), rows[k]? = some row → ∃ result, (sweep base code)[k]? = some result ∧
        row.Describes base code (startOf (sweep base code) k) result) ∧
      (code ≠ [] → (sweep base code).length ≤ limit →
        HexBytes.read (rows.map Entry.bytes) = .ok code) := by
  refine ⟨_, entries_eq small base limit, rfl, ?_, ?_, ?_⟩
  · rw [List.length_map, listing, List.length_map, List.length_take, sweep, List.length_map]
  · intro k row listed
    obtain ⟨step, inFront, rfl⟩ :
        ∃ step, ((sweepSteps 0 code).take limit)[k]? = some step ∧
          Entry.ofRow (Row.ofStep base step) = row := by
      simpa only [listing, List.map_map, List.getElem?_map, Option.map_eq_some_iff,
        Function.comp_apply] using listed
    have found : (sweepSteps 0 code)[k]? = some step := by
      rw [List.getElem?_take] at inFront
      split at inFront
      · exact inFront
      · cases inFront
    have first := sweepSteps_getElem? found
    have inside := offset_lt_of_mem_sweepSteps step (List.mem_of_getElem? found)
    rw [← startOf_sweep base, Nat.zero_add] at first
    rw [first, Nat.zero_add] at inside
    refine ⟨step.result base, ?_, ?_⟩
    · rw [sweep, List.getElem?_map, found]
      rfl
    · rw [first]
      exact describes_stepAt inside base
  · intro nonempty enough
    rw [List.map_map]
    exact read_listing nonempty enough

/-- The second row stands at address zero, behind the last address. -/
theorem entries_total_wraps :
    ([0x90, 0x06, 0x55] : List UInt8).length < wordLimit ∧
      entries 0xFFFFFFFFFFFFFFFF 3 [0x90, 0x06, 0x55] = .ok
        [{ address := 0xFFFFFFFFFFFFFFFF, offset := 0, bytes := "90",
           length := some ⟨0, 1, 0, 0⟩, error := none },
         { address := 0, offset := 1, bytes := "06",
           length := none, error := some "invalid opcode at 0x0: 06" },
         { address := 1, offset := 2, bytes := "55",
           length := some ⟨0, 1, 0, 0⟩, error := none }] ∧
      HexBytes.read ["90", "06", "55"] = .ok [0x90, 0x06, 0x55] := by
  have small : ([0x90, 0x06, 0x55] : List UInt8).length < wordLimit := by decide
  have steps : sweepSteps 0 [0x90, 0x06, 0x55] =
      [⟨0, [0x90], .ok ⟨0, 1, 0, 0⟩⟩, ⟨1, [0x06], .error (.invalidOpcode 0x06 false)⟩,
        ⟨2, [0x55], .ok ⟨0, 1, 0, 0⟩⟩] := by
    have nop : decode [0x90, 0x06, 0x55] = .ok ⟨0, 1, 0, 0⟩ := rfl
    have invalid : decode [0x06, 0x55] = .error (.invalidOpcode 0x06 false) := rfl
    have push : decode [0x55] = .ok ⟨0, 1, 0, 0⟩ := rfl
    simp [sweepSteps_of_ok nop, sweepSteps_of_error invalid, sweepSteps_of_ok push,
      InstructionLength.total]
  obtain ⟨rows, listed, same, -, -, whole⟩ :=
    entries_total 0xFFFFFFFFFFFFFFFF 3 [0x90, 0x06, 0x55] small
  have few : (sweep 0xFFFFFFFFFFFFFFFF [0x90, 0x06, 0x55]).length ≤ 3 := by
    rw [sweep, steps]
    exact Nat.le_refl 3
  rw [listing, steps] at same
  subst same
  exact ⟨small, listed, whole (List.cons_ne_nil _ _) few⟩

end X86Length.Guarded
