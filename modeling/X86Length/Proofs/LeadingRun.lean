import X86Length.Proofs.Concatenation

/-! # The leading instructions

All code is a row of instructions and a rest at which nothing decodes (`exists_row`).  The sweep and
the two walks over the leading instructions go along this row, so they agree (`walks_agree`).  As
each instruction of the row is found whatever follows it, those that a spanning length covers are
found again in front of any other code (`spanningLength_self_contained`). -/

namespace X86Length

/-! ## Places in a row -/

theorem codeOf_take_succ {instructions : List WholeInstruction} {j : Nat}
    (inRow : j < instructions.length) :
    codeOf (instructions.take (j + 1)) = codeOf (instructions.take j) ++ instructions[j].bytes := by
  rw [List.take_succ_eq_append_getElem inRow, codeOf_append, codeOf_cons, codeOf_nil,
    List.append_nil]

theorem placeOf_succ {instructions : List WholeInstruction} {j : Nat}
    (inRow : j < instructions.length) :
    placeOf instructions (j + 1) = placeOf instructions j + instructions[j].bytes.length := by
  rw [placeOf, codeOf_take_succ inRow, List.length_append, placeOf]

/-- Where the instructions of a row start. -/
def startsOf (instructions : List WholeInstruction) : List Nat :=
  (List.range instructions.length).map (placeOf instructions)

@[simp] theorem startsOf_nil : startsOf [] = [] := rfl

theorem startsOf_cons (instruction : WholeInstruction) (instructions : List WholeInstruction) :
    startsOf (instruction :: instructions) =
      0 :: (startsOf instructions).map (instruction.bytes.length + ·) := by
  simp [startsOf, List.range_succ_eq_map, Function.comp_def]

theorem startsOf_append (instructions others : List WholeInstruction) :
    startsOf (instructions ++ others) =
      startsOf instructions ++ (startsOf others).map ((codeOf instructions).length + ·) := by
  induction instructions with
  | nil => simp
  | cons instruction instructions ih =>
    simp [startsOf_cons, ih, Function.comp_def, Nat.add_assoc]

theorem forall_mem_startsOf_cons {p : Nat → Prop} {instruction : WholeInstruction}
    {instructions : List WholeInstruction} :
    (∀ start ∈ startsOf (instruction :: instructions), p start) ↔
      p 0 ∧ ∀ start ∈ startsOf instructions, p (instruction.bytes.length + start) := by
  simp [startsOf_cons]

theorem lt_length_of_mem_startsOf {instructions : List WholeInstruction} :
    ∀ start ∈ startsOf instructions, start < (codeOf instructions).length := by
  induction instructions with
  | nil => simp
  | cons instruction instructions ih =>
    have := instruction.length_pos
    rw [forall_mem_startsOf_cons, codeOf_cons, List.length_append]
    refine ⟨by omega, ?_⟩
    intro start starts
    exact Nat.add_lt_add_left (ih start starts) _

theorem startsOf_increasing (instructions : List WholeInstruction) :
    (startsOf instructions).Pairwise (· < ·) := by
  induction instructions with
  | nil => exact .nil
  | cons instruction instructions ih =>
    have := instruction.length_pos
    rw [startsOf_cons, List.pairwise_cons]
    constructor
    · intro start starts
      obtain ⟨inner, -, rfl⟩ := List.mem_map.mp starts
      omega
    · exact ih.map _ fun _ _ before => Nat.add_lt_add_left before _

/-- Where a row starts, and where each of its instructions ends. -/
def endsOf (instructions : List WholeInstruction) : List Nat :=
  startsOf instructions ++ [(codeOf instructions).length]

theorem endsOf_eq_map_range (instructions : List WholeInstruction) :
    endsOf instructions = (List.range (instructions.length + 1)).map (placeOf instructions) := by
  simp [endsOf, startsOf, List.range_succ]

theorem endsOf_append (instructions others : List WholeInstruction) :
    endsOf (instructions ++ others) =
      startsOf instructions ++ (endsOf others).map ((codeOf instructions).length + ·) := by
  simp [endsOf, startsOf_append]

theorem endsOf_increasing (instructions : List WholeInstruction) :
    (endsOf instructions).Pairwise (· < ·) := by
  rw [endsOf, List.pairwise_append]
  refine ⟨startsOf_increasing instructions, List.pairwise_singleton _ _, ?_⟩
  intro start starts last isLast
  rw [List.mem_singleton.mp isLast]
  exact lt_length_of_mem_startsOf start starts

theorem zero_mem_endsOf (instructions : List WholeInstruction) : 0 ∈ endsOf instructions := by
  cases instructions with
  | nil => simp [endsOf]
  | cons instruction instructions => simp [endsOf, startsOf_cons]

/-- The instruction that starts at a place of a row is found there, whatever follows the row. -/
theorem decode_drop_of_mem_startsOf {instructions : List WholeInstruction} :
    ∀ start ∈ startsOf instructions, ∃ length, ∀ rest,
      decode ((codeOf instructions ++ rest).drop start) = .ok length := by
  induction instructions with
  | nil => simp
  | cons instruction instructions ih =>
    rw [forall_mem_startsOf_cons]
    constructor
    · refine ⟨instruction.length, fun rest => ?_⟩
      rw [List.drop_zero, codeOf_cons, List.append_assoc, instruction.decode_append]
    · intro start starts
      obtain ⟨length, decodes⟩ := ih start starts
      refine ⟨length, fun rest => ?_⟩
      rw [codeOf_cons, List.append_assoc, List.drop_length_add_append, decodes]

/-! ## All code starts with a row -/

theorem exists_row (bytes : List UInt8) :
    ∃ instructions rest fault, bytes = codeOf instructions ++ rest ∧
      decode rest = .error fault := by
  induction bytes using sweep_induction with
  | nil => exact ⟨[], [], .truncated 1 0, rfl, rfl⟩
  | step bytes nonempty ih =>
    cases decoded : decode bytes with
    | error fault => exact ⟨[], bytes, fault, rfl, decoded⟩
    | ok length =>
      obtain ⟨instructions, rest, fault, behind, stuck⟩ := ih
      refine ⟨.first decoded :: instructions, rest, fault, ?_, stuck⟩
      rw [codeOf_cons, List.append_assoc, ← behind, leap, decoded]
      exact (List.take_append_drop length.total bytes).symm

/-! ## Walks along a row -/

theorem leadingStartsFrom_code (limit offset : Nat) (instructions : List WholeInstruction)
    (rest : List UInt8) :
    leadingStartsFrom limit offset (codeOf instructions ++ rest) =
      ((startsOf instructions).map (offset + ·)).filter (· < limit) ++
        leadingStartsFrom limit (offset + (codeOf instructions).length) rest := by
  induction instructions generalizing offset with
  | nil => simp
  | cons instruction instructions ih =>
    by_cases before : offset < limit
    · rw [codeOf_cons, List.append_assoc,
        leadingStartsFrom_of_ok (instruction.decode_append _) before, instruction.whole,
        List.drop_left, ih, startsOf_cons]
      simp [before, Function.comp_def, Nat.add_assoc]
    · -- The walk ends here, and every later place is beyond the limit as well.
      have beyond : limit ≤ offset := Nat.le_of_not_lt before
      have none : ((startsOf (instruction :: instructions)).map (offset + ·)).filter (· < limit) =
          [] := by
        simp only [List.filter_eq_nil_iff, List.mem_map, decide_eq_true_eq]
        rintro _ ⟨start, -, rfl⟩
        omega
      rw [none, leadingStartsFrom_of_le beyond, leadingStartsFrom_of_le (by omega)]
      rfl

/-- A row that falls short of the bytes required is walked over. -/
theorem spanningLengthFrom_code {required offset : Nat} {instructions : List WholeInstruction}
    (short : ∀ start ∈ startsOf instructions, offset + start < required) (rest : List UInt8) :
    spanningLengthFrom required offset (codeOf instructions ++ rest) =
      spanningLengthFrom required (offset + (codeOf instructions).length) rest := by
  induction instructions generalizing offset with
  | nil => simp
  | cons instruction instructions ih =>
    obtain ⟨here, later⟩ := forall_mem_startsOf_cons.mp short
    rw [Nat.add_zero] at here
    rw [codeOf_cons, List.append_assoc, spanningLengthFrom_of_ok (instruction.decode_append _) here,
      instruction.whole, List.drop_left, ih, List.length_append, Nat.add_assoc]
    intro start starts
    have := later start starts
    omega

/-- A row that reaches the bytes required has a shortest part in front that does. -/
theorem exists_first_reaching {required : Nat} {instructions : List WholeInstruction}
    (reached : required ≤ (codeOf instructions).length) :
    ∃ lead others, instructions = lead ++ others ∧ required ≤ (codeOf lead).length ∧
      ∀ start ∈ startsOf lead, start < required := by
  induction instructions generalizing required with
  | nil => exact ⟨[], [], rfl, reached, by simp⟩
  | cons instruction instructions ih =>
    by_cases nothing : required = 0
    · exact ⟨[], instruction :: instructions, rfl, by omega, by simp⟩
    · rw [codeOf_cons, List.length_append] at reached
      have inner : required - instruction.bytes.length ≤ (codeOf instructions).length := by omega
      obtain ⟨lead, others, rfl, enough, short⟩ := ih inner
      refine ⟨instruction :: lead, others, rfl, ?_, ?_⟩
      · rw [codeOf_cons, List.length_append]
        omega
      · rw [forall_mem_startsOf_cons]
        refine ⟨Nat.pos_of_ne_zero nothing, ?_⟩
        intro start starts
        have := short start starts
        omega

theorem spanningLength_lead {required : Nat} {lead : List WholeInstruction}
    (enough : required ≤ (codeOf lead).length) (short : ∀ start ∈ startsOf lead, start < required)
    (rest : List UInt8) :
    spanningLength required (codeOf lead ++ rest) = .ok (codeOf lead).length := by
  rw [spanningLength, spanningLengthFrom_code (by simpa using short), Nat.zero_add,
    spanningLengthFrom_of_le enough]

theorem spanningLength_stuck {required : Nat} {instructions : List WholeInstruction}
    {rest : List UInt8} {fault : Fault} (stuck : decode rest = .error fault)
    (beyond : (codeOf instructions).length < required) :
    spanningLength required (codeOf instructions ++ rest) =
      .error { address := UInt64.ofNat (codeOf instructions).length, fault } := by
  rw [spanningLength, spanningLengthFrom_code, Nat.zero_add,
    spanningLengthFrom_of_error stuck beyond]
  intro start starts
  have := lt_length_of_mem_startsOf start starts
  omega

/-- A length that spans the bytes required is that of the shortest row in front that does. -/
theorem exists_lead_of_spanningLength {required size : Nat} {bytes : List UInt8}
    (spans : spanningLength required bytes = .ok size) :
    ∃ lead rest, bytes = codeOf lead ++ rest ∧ size = (codeOf lead).length ∧
      required ≤ (codeOf lead).length ∧ ∀ start ∈ startsOf lead, start < required := by
  obtain ⟨instructions, rest, fault, rfl, stuck⟩ := exists_row bytes
  by_cases reached : required ≤ (codeOf instructions).length
  · obtain ⟨lead, others, rfl, enough, short⟩ := exists_first_reaching reached
    rw [codeOf_append, List.append_assoc] at spans ⊢
    rw [spanningLength_lead enough short] at spans
    cases spans
    exact ⟨lead, _, rfl, rfl, enough, short⟩
  · rw [spanningLength_stuck stuck (Nat.lt_of_not_le reached)] at spans
    cases spans

/-! ## The sweep along a row -/

/-- The boundaries in front of the first error. -/
def leadingBoundaries : List (Except DecodeError Boundary) → List Boundary
  | .ok boundary :: results => boundary :: leadingBoundaries results
  | _ => []

/-- The first error among the results of a sweep. -/
def firstError (results : List (Except DecodeError Boundary)) : Option DecodeError :=
  results.findSome? fun
    | .ok _ => none
    | .error error => some error

/-- Where the code starts, and where each of its leading instructions ends, as a sweep finds it. -/
def leadingEnds (start : UInt64) (bytes : List UInt8) : List Nat :=
  0 :: (leadingBoundaries (sweep start bytes)).map fun boundary => boundary.offset + boundary.size

/-- Where the last of the leading instructions ends. -/
def leadingSize (start : UInt64) (bytes : List UInt8) : Nat :=
  (leadingEnds start bytes).getLast (List.cons_ne_nil _ _)

theorem leadingBoundaries_append (boundaries : List Boundary)
    (results : List (Except DecodeError Boundary)) :
    leadingBoundaries (boundaries.map .ok ++ results) =
      boundaries ++ leadingBoundaries results := by
  induction boundaries with
  | nil => rfl
  | cons boundary boundaries ih =>
    rw [List.map_cons, List.cons_append, leadingBoundaries, ih, List.cons_append]

theorem firstError_append (boundaries : List Boundary)
    (results : List (Except DecodeError Boundary)) :
    firstError (boundaries.map .ok ++ results) = firstError results := by
  induction boundaries with
  | nil => rfl
  | cons boundary boundaries ih => exact ih

section Stuck

variable {rest : List UInt8} {fault : Fault} (stuck : decode rest = .error fault)
include stuck

theorem leadingBoundaries_stuck (start : UInt64) (n : Nat) :
    leadingBoundaries ((sweep start rest).map (shiftResult n)) = [] := by
  cases rest with
  | nil => simp [sweep, leadingBoundaries]
  | cons byte rest =>
    rw [sweep, sweepSteps_of_error stuck]
    rfl

theorem leadingEnds_code (start : UInt64) (instructions : List WholeInstruction) :
    leadingEnds start (codeOf instructions ++ rest) = endsOf instructions := by
  rw [endsOf_eq_map_range, leadingEnds, sweep_code, leadingBoundaries_append,
    leadingBoundaries_stuck stuck, List.append_nil]
  apply List.ext_getElem
  · simp [boundariesOf]
  · intro j inEnds _
    cases j with
    | zero => simp
    | succ j =>
      have inRow : j < instructions.length := by simpa [boundariesOf] using inEnds
      simp [boundariesOf, Boundary.size, placeOf_succ inRow, WholeInstruction.whole]

theorem leadingSize_code (start : UInt64) (instructions : List WholeInstruction) :
    leadingSize start (codeOf instructions ++ rest) = (codeOf instructions).length := by
  simp [leadingSize, leadingEnds_code stuck, endsOf]

/-- The first error stands behind the row, or the row is all the code. -/
theorem firstError_code (start : UInt64) (instructions : List WholeInstruction) :
    match firstError (sweep start (codeOf instructions ++ rest)) with
    | some error => error.fault = fault ∧ rest ≠ []
    | none => fault = .truncated 1 0 ∧ rest = [] := by
  rw [sweep_code, firstError_append]
  cases rest with
  | nil =>
    have ended : decode [] = .error (.truncated 1 0) := rfl
    rw [ended] at stuck
    cases stuck
    simp [sweep, firstError]
  | cons byte rest =>
    rw [sweep, sweepSteps_of_error stuck]
    exact ⟨rfl, List.cons_ne_nil _ _⟩

end Stuck

theorem length_le_of_mem_endsOf {required other : Nat} {lead others : List WholeInstruction}
    (short : ∀ start ∈ startsOf lead, start < required) (inRow : other ∈ endsOf (lead ++ others))
    (enough : required ≤ other) : (codeOf lead).length ≤ other := by
  rw [endsOf_append, List.mem_append, List.mem_map] at inRow
  rcases inRow with starts | ⟨inner, -, rfl⟩
  · have := short _ starts
    omega
  · exact Nat.le_add_right _ _

/-- The walks over the leading instructions agree with the sweep.  The ends that it finds up to its
    first error increase, the starts are all of them but the last, and the least that reaches a
    number of bytes is the length that spans it.  Where none does, the first error is reported from
    the place at which the walk stands, or a truncation at the end of the code. -/
theorem walks_agree (start : UInt64) (bytes : List UInt8) :
    (leadingEnds start bytes).Pairwise (· < ·) ∧
    (∀ limit, leadingStarts limit bytes =
      (leadingEnds start bytes).dropLast.filter (· < limit)) ∧
    (∀ required ≤ leadingSize start bytes, ∃ size ∈ leadingEnds start bytes,
      required ≤ size ∧ (∀ other ∈ leadingEnds start bytes, required ≤ other → size ≤ other) ∧
      spanningLength required bytes = .ok size) ∧
    ∀ required > leadingSize start bytes,
      match firstError (sweep start bytes) with
      | some error =>
        leadingSize start bytes < bytes.length ∧
        spanningLength required bytes =
          .error { error with address := UInt64.ofNat (leadingSize start bytes) }
      | none =>
        leadingSize start bytes = bytes.length ∧
        spanningLength required bytes =
          .error { address := UInt64.ofNat bytes.length, fault := .truncated 1 0 } := by
  obtain ⟨instructions, rest, fault, rfl, stuck⟩ := exists_row bytes
  rw [leadingEnds_code stuck, leadingSize_code stuck]
  refine ⟨endsOf_increasing instructions, ?_, ?_, ?_⟩
  · intro limit
    rw [leadingStarts, leadingStartsFrom_code, leadingStartsFrom_of_error stuck]
    simp [endsOf]
  · intro required reached
    obtain ⟨lead, others, rfl, enough, short⟩ := exists_first_reaching reached
    refine ⟨(codeOf lead).length, ?_, enough, fun _ => length_le_of_mem_endsOf short, ?_⟩
    · rw [endsOf_append]
      exact List.mem_append_right _ (List.mem_map.mpr ⟨0, zero_mem_endsOf others, rfl⟩)
    · rw [codeOf_append, List.append_assoc, spanningLength_lead enough short]
  · intro required beyond
    have stops := spanningLength_stuck stuck beyond
    have first := firstError_code stuck start instructions
    rw [stops]
    cases found : firstError (sweep start (codeOf instructions ++ rest)) with
    | some error =>
      rw [found] at first
      obtain ⟨rfl, behind⟩ := first
      simpa using List.length_pos_iff.mpr behind
    | none =>
      rw [found] at first
      obtain ⟨rfl, rfl⟩ := first
      simp

/-- The two instructions that open a stack frame end at one and at four, and nothing decodes behind
    them. -/
theorem walks_agree_frame_entry :
    leadingStarts 1 [0x55, 0x48, 0x89, 0xE5, 0x06] = [0] ∧
      spanningLength 2 [0x55, 0x48, 0x89, 0xE5, 0x06] = .ok 4 ∧
      spanningLength 5 [0x55, 0x48, 0x89, 0xE5, 0x06] =
        .error { address := 4, fault := .invalidOpcode 0x06 false } := by
  have push : decode [0x55, 0x48, 0x89, 0xE5, 0x06] = .ok ⟨0, 1, 0, 0⟩ := rfl
  have move : decode [0x48, 0x89, 0xE5, 0x06] = .ok ⟨1, 1, 1, 0⟩ := rfl
  have invalid : decode [0x06] = .error (.invalidOpcode 0x06 false) := rfl
  have swept : sweep 0x1000 [0x55, 0x48, 0x89, 0xE5, 0x06] =
      [.ok { address := 0x1000, offset := 0, length := ⟨0, 1, 0, 0⟩ },
        .ok { address := 0x1001, offset := 1, length := ⟨1, 1, 1, 0⟩ },
        .error { address := 0x1004, fault := .invalidOpcode 0x06 false }] := by
    rw [sweep, sweepSteps_of_ok push]
    simp [InstructionLength.total, sweepSteps_of_ok move, sweepSteps_of_error invalid,
      SweepStep.result, SweepStep.address]
  have ends : leadingEnds 0x1000 [0x55, 0x48, 0x89, 0xE5, 0x06] = [0, 1, 4] := by
    rw [leadingEnds, swept]
    rfl
  have size : leadingSize 0x1000 [0x55, 0x48, 0x89, 0xE5, 0x06] = 4 := by
    simp only [leadingSize, ends, List.getLast]
  obtain ⟨-, starts, spans, stops⟩ := walks_agree 0x1000 [0x55, 0x48, 0x89, 0xE5, 0x06]
  rw [ends] at starts spans
  rw [size] at spans stops
  refine ⟨starts 1, ?_, ?_⟩
  · obtain ⟨least, inEnds, enough, -, spansLeast⟩ := spans 2 (by decide)
    simp only [List.mem_cons, List.not_mem_nil, or_false] at inEnds
    obtain rfl : least = 4 := by omega
    exact spansLeast
  · have stopped := stops 5 (by decide)
    rw [swept] at stopped
    exact stopped.2

/-! ## What a spanning length covers -/

theorem leadingStarts_lead (lead : List WholeInstruction) (rest : List UInt8) :
    leadingStarts (codeOf lead).length (codeOf lead ++ rest) = startsOf lead := by
  rw [leadingStarts, leadingStartsFrom_code, Nat.zero_add,
    leadingStartsFrom_of_le (Nat.le_refl _), List.append_nil]
  simpa using lt_length_of_mem_startsOf

theorem length_lead_le {required : Nat} {lead : List WholeInstruction}
    (short : ∀ start ∈ startsOf lead, start < required) :
    (codeOf lead).length ≤ required + 14 := by
  rcases List.eq_nil_or_concat lead with rfl | ⟨before, last, rfl⟩
  · simp
  · -- All but the last instruction fall short, and the last is within the limit.
    rw [List.concat_eq_append] at short ⊢
    have := short (codeOf before).length (by simp [startsOf_append, startsOf_cons])
    have := last.length_le
    simp only [codeOf_append, codeOf_cons, codeOf_nil, List.append_nil, List.length_append,
      lengthLimit] at this ⊢
    omega

/-- The bytes that a spanning length covers stand for themselves.  The length reaches what is
    required, within the code and by fourteen bytes at most, and in front of any other code the same
    instructions are found in these bytes. -/
theorem spanningLength_self_contained {required size : Nat} {bytes : List UInt8}
    (spans : spanningLength required bytes = .ok size) :
    required ≤ size ∧ size ≤ bytes.length ∧ size ≤ required + 14 ∧
    ∀ others,
      spanningLength required (bytes.take size ++ others) = .ok size ∧
      leadingStarts size (bytes.take size ++ others) = leadingStarts size bytes ∧
      ∀ start ∈ leadingStarts size bytes, ∀ address,
        decodeAt address ((bytes.take size ++ others).drop start) =
          decodeAt address (bytes.drop start) := by
  obtain ⟨lead, rest, rfl, rfl, enough, short⟩ := exists_lead_of_spanningLength spans
  rw [List.take_left, leadingStarts_lead]
  refine ⟨enough, by simp, length_lead_le short, ?_⟩
  intro others
  refine ⟨spanningLength_lead enough short others, leadingStarts_lead lead others, ?_⟩
  intro start starts address
  obtain ⟨length, decodes⟩ := decode_drop_of_mem_startsOf start starts
  apply decodeAt_congr
  rw [decodes, decodes]

/-- A jump of five bytes over the entry of a function takes the place of three instructions of eight
    bytes, whatever the function goes on with. -/
theorem spanningLength_function_entry :
    spanningLength 5 [0x55, 0x48, 0x89, 0xE5, 0x48, 0x83, 0xEC, 0x10, 0x0F] = .ok 8 ∧
      ∀ others, spanningLength 5 ([0x55, 0x48, 0x89, 0xE5, 0x48, 0x83, 0xEC, 0x10] ++ others) =
        .ok 8 := by
  have push : decode [0x55, 0x48, 0x89, 0xE5, 0x48, 0x83, 0xEC, 0x10, 0x0F] =
      .ok ⟨0, 1, 0, 0⟩ := rfl
  have move : decode [0x48, 0x89, 0xE5, 0x48, 0x83, 0xEC, 0x10, 0x0F] = .ok ⟨1, 1, 1, 0⟩ := rfl
  have subtract : decode [0x48, 0x83, 0xEC, 0x10, 0x0F] = .ok ⟨1, 1, 1, 1⟩ := rfl
  have spans : spanningLength 5 [0x55, 0x48, 0x89, 0xE5, 0x48, 0x83, 0xEC, 0x10, 0x0F] =
      .ok 8 := by
    rw [spanningLength, spanningLengthFrom_of_ok push (by decide)]
    simp [InstructionLength.total, spanningLengthFrom_of_ok move,
      spanningLengthFrom_of_ok subtract, spanningLengthFrom_of_le]
  obtain ⟨-, -, -, kept⟩ := spanningLength_self_contained spans
  exact ⟨spans, fun others => (kept others).1⟩

end X86Length
