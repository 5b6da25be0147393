import X86Length.Proofs.GuardedListing
import X86Length.Proofs.LeadingRun

/-! # Walks under guard

Each walk over code is a loop that keeps an offset.  A turn of the loop tests the offset, cuts off
the code behind it, decodes there and adds the size of what it found.  Nothing in the loop itself
bounds the number of its turns: the length that the third walk has to span may be anything, whatever
the size of the code.

That the walks end follows from what one turn does (`Progress`): it leads behind the offset and not
out of the code, and leaves the answer as it was.  So every walk ends after one turn more than there
are bytes at most, with the answer of the unguarded walk (`walks_end`). -/

namespace X86Length.Guarded

/-! ## Loops -/

/-- What a turn of a loop ends in: a state for another turn, or the answer. -/
inductive Turn (σ α : Type) where
  | onward (state : σ)
  | done (answer : α)

variable {σ α : Type}

/-- The states in which the turns of a loop start, and what the loop ends with, if that takes no
    more than a number of turns. -/
def follow (turn : σ → Except Halt (Turn σ α)) : Nat → σ → Option (List σ × Except Halt α)
  | 0, _ => none
  | most + 1, state =>
    match turn state with
    | .ok (.onward next) =>
      (follow turn most next).map fun (states, verdict) => (state :: states, verdict)
    | .ok (.done answer) => some ([state], .ok answer)
    | .error halt => some ([state], .error halt)

/-- A turn from a state leads to a later place, the last one at most, and to the same answer, or it
    ends with that answer. -/
inductive Progress (place : σ → Nat) (last : Nat) (answer : σ → Except Halt α) (state : σ) :
    Except Halt (Turn σ α) → Prop where
  | onward {next : σ} (forward : place state < place next) (inside : place next ≤ last)
      (same : answer next = answer state) : Progress place last answer state (.ok (.onward next))
  | done {found : α} (settled : answer state = .ok found) :
      Progress place last answer state (.ok (.done found))
  | halted {halt : Halt} (settled : answer state = .error halt) :
      Progress place last answer state (.error halt)

/-- The places that a loop comes to when it starts at the first and goes forward to the last at
    most. -/
structure Course (first last : Nat) (places : List Nat) : Prop where
  few : first + places.length ≤ last + 1
  increasing : places.Pairwise (· < ·)
  inside : ∀ place ∈ places, first ≤ place ∧ place ≤ last

theorem course_single {place last : Nat} (inside : place ≤ last) : Course place last [place] where
  few := Nat.add_le_add_right inside 1
  increasing := List.pairwise_singleton _ _
  inside := by simpa using inside

theorem Course.cons {first next last : Nat} {places : List Nat} (forward : first < next)
    (inside : first ≤ last) (course : Course next last places) :
    Course first last (first :: places) where
  few := by
    have := course.few
    rw [List.length_cons]
    omega
  increasing := by
    refine List.pairwise_cons.mpr ⟨?_, course.increasing⟩
    intro place later
    exact Nat.lt_of_lt_of_le forward (course.inside place later).1
  inside := by
    rw [List.forall_mem_cons]
    refine ⟨⟨Nat.le_refl _, inside⟩, ?_⟩
    intro place later
    have := course.inside place later
    omega

/-- A loop whose every turn makes progress comes to its answer. -/
theorem exists_course {turn : σ → Except Halt (Turn σ α)} {place : σ → Nat} {last : Nat}
    {answer : σ → Except Halt α}
    (progress : ∀ state, place state ≤ last → Progress place last answer state (turn state))
    {most : Nat} (state : σ) (inside : place state ≤ last) (enough : last < place state + most) :
    ∃ states, follow turn most state = some (states, answer state) ∧
      Course (place state) last (states.map place) := by
  -- Each turn takes one from the places that are left, so the turns are enough as they were before.
  induction most generalizing state with
  | zero => omega
  | succ most ih =>
    rw [follow]
    have taken := progress state inside
    generalize turn state = outcome at taken
    cases taken with
    | onward forward insideNext same =>
      obtain ⟨states, followed, course⟩ := ih _ insideNext (by omega)
      refine ⟨state :: states, ?_, course.cons forward inside⟩
      simp only [followed, Option.map_some, same]
    | done settled => exact ⟨[state], by simp only [settled], course_single inside⟩
    | halted settled => exact ⟨[state], by simp only [settled], course_single inside⟩

/-! ## The three walks -/

/-- A walk that keeps a list of what it has found. -/
structure Walker (α : Type) where
  offset : Nat := 0
  found : List α := []

def Walker.advance (walker : Walker α) (found : α) (next : Nat) : Walker α where
  offset := next
  found := walker.found ++ [found]

/-- The offset behind an instruction at an offset. -/
def offsetBehind (offset : Nat) (length : InstructionLength) : Except Halt Nat := do
  let size ← total length
  sum offset size

/-- The elements from an index on, if that is inside the list. -/
def restFrom? (list : List α) (start : Nat) : Option (List α) :=
  if start ≤ list.length then some (list.drop start) else none

def sweepTurn (start : UInt64) (code : List UInt8)
    (walker : Walker (Except DecodeError Boundary)) :
    Except Halt (Turn (Walker (Except DecodeError Boundary))
      (List (Except DecodeError Boundary))) :=
  if walker.offset < code.length then do
    let (result, next) ← sweepStep start code walker.offset
    .ok (.onward (walker.advance result next))
  else .ok (.done walker.found)

def leadingTurn (limit : Nat) (code : List UInt8) (walker : Walker Nat) :
    Except Halt (Turn (Walker Nat) (List Nat)) :=
  if walker.offset < code.length ∧ walker.offset < limit then do
    let rest ← sliceFrom code walker.offset
    match decodeLength (UInt64.ofNat walker.offset) rest with
    | .ok length => do
      let next ← offsetBehind walker.offset length
      .ok (.onward (walker.advance walker.offset next))
    | .error (.error _) => .ok (.done walker.found)
    | .error (.breach breach) => .error (.breach breach)
  else .ok (.done walker.found)

/-- An offset outside of the code would be taken for the end of the code. -/
def spanningTurn (required : Nat) (code : List UInt8) (offset : Nat) :
    Except Halt (Turn Nat Nat) :=
  if offset < required then do
    let length ← decodeLength (UInt64.ofNat offset) ((restFrom? code offset).getD [])
    let next ← offsetBehind offset length
    .ok (.onward next)
  else .ok (.done offset)

/-! ## One turn -/

section Turns

variable {code : List UInt8}

theorem restFrom?_of_le {start : Nat} (inside : start ≤ code.length) :
    restFrom? code start = some (code.drop start) :=
  if_pos inside

theorem offset_le_of_decode {offset : Nat} {length : InstructionLength}
    (inside : offset ≤ code.length) (decoded : decode (code.drop offset) = .ok length) :
    offset < offset + length.total ∧ offset + length.total ≤ code.length := by
  have bounds := decode_ok_bounds decoded
  rw [List.length_drop] at bounds
  omega

variable (small : code.length < wordLimit)
include small

theorem offsetBehind_of_decode {offset : Nat} {length : InstructionLength}
    (inside : offset ≤ code.length)
    (decoded : decode (code.drop offset) = .ok length) :
    offsetBehind offset length = .ok (offset + length.total) := by
  have stays := (offset_le_of_decode inside decoded).2
  rw [offsetBehind, total_of_decode decoded, ok_bind, sum_of_lt (by omega)]

theorem progress_sweepTurn (start : UInt64)
    (walker : Walker (Except DecodeError Boundary)) :
    Progress Walker.offset code.length
      (fun walker => .ok (walker.found ++
        (sweepSteps walker.offset (code.drop walker.offset)).map (·.result start)))
      walker (sweepTurn start code walker) := by
  unfold sweepTurn
  by_cases more : walker.offset < code.length
  · have nonempty : code.drop walker.offset ≠ [] := by simpa using more
    rw [if_pos more, sweepStep_eq small more]
    refine .onward (Nat.lt_add_of_pos_right (leap_pos _)) (leap_drop_le more) ?_
    simp [Walker.advance, sweepSteps_eq nonempty]
  · rw [if_neg more]
    apply Progress.done
    simp [List.drop_of_length_le (Nat.le_of_not_lt more)]

theorem progress_leadingTurn (limit : Nat) (walker : Walker Nat)
    (inside : walker.offset ≤ code.length) :
    Progress Walker.offset code.length
      (fun walker => .ok (walker.found ++
        leadingStartsFrom limit walker.offset (code.drop walker.offset)))
      walker (leadingTurn limit code walker) := by
  unfold leadingTurn
  by_cases more : walker.offset < code.length ∧ walker.offset < limit
  · rw [if_pos more, sliceFrom_of_le inside, ok_bind, decodeLength_eq, decodeAt]
    cases decoded : decode (code.drop walker.offset) with
    | ok length =>
      obtain ⟨forward, stays⟩ := offset_le_of_decode inside decoded
      simp only [mapError_ok, offsetBehind_of_decode small inside decoded, ok_bind]
      refine .onward forward stays ?_
      simp [Walker.advance, leadingStartsFrom_of_ok decoded more.2]
    | error fault =>
      apply Progress.done
      simp [leadingStartsFrom_of_error decoded]
  · rw [if_neg more]
    apply Progress.done
    rcases Nat.lt_or_ge walker.offset limit with below | beyond
    · have atEnd : code.length ≤ walker.offset := by omega
      simp [List.drop_of_length_le atEnd]
    · simp [leadingStartsFrom_of_le beyond]

theorem progress_spanningTurn (required offset : Nat) (inside : offset ≤ code.length) :
    Progress id code.length
      (fun offset => (spanningLengthFrom required offset (code.drop offset)).mapError Halt.error)
      offset (spanningTurn required code offset) := by
  unfold spanningTurn
  by_cases more : offset < required
  · rw [if_pos more, restFrom?_of_le inside, Option.getD_some, decodeLength_eq, decodeAt]
    cases decoded : decode (code.drop offset) with
    | ok length =>
      obtain ⟨forward, stays⟩ := offset_le_of_decode inside decoded
      simp only [mapError_ok, ok_bind, offsetBehind_of_decode small inside decoded]
      refine .onward forward stays ?_
      simp only [spanningLengthFrom_of_ok decoded more, List.drop_drop]
    | error fault =>
      apply Progress.halted
      simp only [spanningLengthFrom_of_error decoded more, mapError_error]
  · rw [if_neg more]
    apply Progress.done
    simp only [spanningLengthFrom_of_le (Nat.le_of_not_lt more), mapError_ok]

end Turns

/-! ## All turns -/

theorem spanningLength_beyond {code : List UInt8} {required : Nat}
    (beyond : code.length < required) : ∃ error, spanningLength required code = .error error := by
  cases spans : spanningLength required code with
  | error error => exact ⟨error, rfl⟩
  | ok size =>
    obtain ⟨lead, rest, rfl, rfl, enough, -⟩ := exists_lead_of_spanningLength spans
    rw [List.length_append] at beyond
    omega

/-- Every walk ends, after one turn more than there are bytes at most, and with what the unguarded
    walk finds.  Its offset increases from turn to turn and stays inside the code, so there is
    always a rest to cut off.  A length that goes beyond the code is never spanned. -/
theorem walks_end {code : List UInt8} (small : code.length < wordLimit) :
    (∀ start, ∃ walkers,
      follow (sweepTurn start code) (code.length + 1) {} =
        some (walkers, .ok (sweep start code)) ∧
      Course 0 code.length (walkers.map Walker.offset)) ∧
    (∀ limit, ∃ walkers,
      follow (leadingTurn limit code) (code.length + 1) {} =
        some (walkers, .ok (leadingStarts limit code)) ∧
      Course 0 code.length (walkers.map Walker.offset)) ∧
    (∀ required, ∃ offsets,
      follow (spanningTurn required code) (code.length + 1) 0 =
        some (offsets, (spanningLength required code).mapError .error) ∧
      Course 0 code.length offsets ∧
      ∀ offset ∈ offsets, restFrom? code offset = some (code.drop offset)) ∧
    ∀ required > code.length, ∃ error, spanningLength required code = .error error := by
  have enough : code.length < 0 + (code.length + 1) := by omega
  refine ⟨?_, ?_, ?_, fun required beyond => spanningLength_beyond beyond⟩
  · intro start
    exact exists_course (fun walker _ => progress_sweepTurn small start walker) {}
      (Nat.zero_le _) enough
  · intro limit
    exact exists_course (progress_leadingTurn small limit) {} (Nat.zero_le _) enough
  · intro required
    obtain ⟨offsets, followed, course⟩ :=
      exists_course (progress_spanningTurn small required) 0 (Nat.zero_le _) enough
    rw [List.map_id'] at course
    refine ⟨offsets, followed, course, ?_⟩
    intro offset visited
    exact restFrom?_of_le (course.inside offset visited).2

/-- The greatest length that a word can ask for is given up where nothing decodes. -/
theorem walks_end_greatest :
    ([0x55, 0x48, 0x89, 0xE5, 0x06] : List UInt8).length < wordLimit ∧
      follow (spanningTurn (wordLimit - 1) [0x55, 0x48, 0x89, 0xE5, 0x06]) 6 0 =
        some ([0, 1, 4], .error (.error { address := 4, fault := .invalidOpcode 0x06 false })) ∧
      Course 0 5 [0, 1, 4] ∧
      ∃ error, spanningLength (wordLimit - 1) [0x55, 0x48, 0x89, 0xE5, 0x06] = .error error := by
  have small : ([0x55, 0x48, 0x89, 0xE5, 0x06] : List UInt8).length < wordLimit := by decide
  have run : follow (spanningTurn (wordLimit - 1) [0x55, 0x48, 0x89, 0xE5, 0x06]) 6 0 =
      some ([0, 1, 4], .error (.error { address := 4, fault := .invalidOpcode 0x06 false })) := rfl
  obtain ⟨-, -, spans, beyond⟩ := walks_end small
  obtain ⟨offsets, followed, course, -⟩ := spans (wordLimit - 1)
  obtain ⟨rfl, -⟩ := Prod.mk.inj (Option.some.inj (run.symm.trans followed))
  exact ⟨small, run, course, beyond _ (by decide)⟩

end X86Length.Guarded
