import X86Length.Proofs.Growth

/-! # Fetching an instruction piece by piece

A reader that holds the first bytes of a source can fetch what a truncation asks for and decode
again.  Each round holds strictly more bytes and never more than the instruction has, so the rounds
end, and where they end stands the answer for the whole source. -/

namespace X86Length

/-- How many bytes of a source to hold next, if those at hand are truncated and the source has as
    many as they ask for. -/
def refill (address : UInt64) (source : List UInt8) (held : Nat) : Option Nat :=
  match decodeAt address (source.take held) with
  | .error { fault := .truncated needed _, .. } =>
    if needed ≤ source.length then some needed else none
  | _ => none

/-- A number of rounds of fetching leads from one number of bytes held to another. -/
inductive Rounds (address : UInt64) (source : List UInt8) : Nat → Nat → Nat → Prop where
  | done {held : Nat} : Rounds address source 0 held held
  | fetch {rounds held next last : Nat} (asks : refill address source held = some next)
      (goOn : Rounds address source rounds next last) :
      Rounds address source (rounds + 1) held last

def AsksBeyond (address : UInt64) (source : List UInt8) (held : Nat) : Prop :=
  ∃ needed, decodeAt address (source.take held) =
    .error { address, fault := .truncated needed held } ∧ source.length < needed

/-- What fetching has found when it stops with some number of bytes held. -/
structure Answers (address : UInt64) (source : List UInt8) (held : Nat) : Prop where
  decoded : ∀ length, decodeAt address source = .ok length →
    decodeAt address (source.take held) = .ok length ∧ held = length.total
  -- A source that fills the window is answered for.
  full : lengthLimit ≤ source.length →
    decodeAt address (source.take held) = decodeAt address source
  invalidOpcode : ∀ opcode escaped,
    decodeAt address source = .error { address, fault := .invalidOpcode opcode escaped } →
      decodeAt address (source.take held) = decodeAt address source
  unknownSubOpcode : ∀ opcode sub,
    decodeAt address source = .error { address, fault := .unknownSubOpcode opcode sub } →
      decodeAt address (source.take held) = decodeAt address source
  -- An instruction that is too long is found, or more is asked for than there is.
  invalidEncoding : source.length < lengthLimit → ∀ reason,
    decodeAt address source = .error { address, fault := .invalidEncoding reason } →
      decodeAt address (source.take held) = decodeAt address source ∨
        AsksBeyond address source held
  -- Where the source itself is truncated, more is asked for than there is.
  truncated : ∀ needed available,
    decodeAt address source = .error { address, fault := .truncated needed available } →
      AsksBeyond address source held

variable {address : UInt64} {source : List UInt8}

/-! ## One round -/

theorem refill_eq_some_iff {held next : Nat} :
    refill address source held = some next ↔
      (∃ available, decode (source.take held) = .error (.truncated next available)) ∧
        next ≤ source.length := by
  unfold refill decodeAt
  cases decode (source.take held) with
  | ok length => simp
  | error fault =>
    cases fault with
    | truncated needed available =>
      simp only [Option.ite_none_right_eq_some, Option.some.injEq, Except.error.injEq,
        Fault.truncated.injEq, exists_and_left, exists_eq', and_true]
      constructor
      · rintro ⟨inSource, rfl⟩
        exact ⟨rfl, inSource⟩
      · rintro ⟨rfl, inSource⟩
        exact ⟨inSource, rfl⟩
    | _ => simp

theorem truncated_of_refill {held next : Nat} (inSource : held ≤ source.length)
    (asks : refill address source held = some next) :
    decode (source.take held) = .error (.truncated next held) ∧ held < next ∧
      next ≤ lengthLimit ∧ next ≤ source.length := by
  obtain ⟨⟨available, truncated⟩, nextInSource⟩ := refill_eq_some_iff.mp asks
  obtain ⟨least, -, -, rfl, unmet, inLimit⟩ := decode_truncated_iff.mp truncated
  rw [List.length_take_of_le inSource] at truncated unmet
  exact ⟨truncated, unmet, inLimit, nextInSource⟩

/-! ## All rounds -/

/-- The bytes held are bytes of the source, and of every instruction that it starts with. -/
structure Fetched (source : List UInt8) (held : Nat) : Prop where
  inSource : held ≤ source.length
  inLimit : held ≤ lengthLimit
  inInstruction : ∀ length, decode source = .ok length → held ≤ length.total

theorem fetched_zero (source : List UInt8) : Fetched source 0 where
  inSource := Nat.zero_le _
  inLimit := Nat.zero_le _
  inInstruction _ _ := Nat.zero_le _

theorem Fetched.after_refill {held next : Nat} (fetched : Fetched source held)
    (asks : refill address source held = some next) : Fetched source next := by
  obtain ⟨truncated, -, inLimit, inSource⟩ := truncated_of_refill fetched.inSource asks
  refine ⟨inSource, inLimit, ?_⟩
  intro length decoded
  have resumes := decode_append_of_truncated truncated (source.drop held)
  rw [List.take_append_drop, decoded] at resumes
  cases resumes with
  | decoded reached => exact reached

theorem Fetched.after_rounds {rounds held last : Nat} (fetched : Fetched source held)
    (run : Rounds address source rounds held last) : Fetched source last := by
  induction run with
  | done => exact fetched
  | fetch asks _ ih => exact ih (fetched.after_refill asks)

theorem Fetched.add_rounds_le {rounds held last : Nat} (fetched : Fetched source held)
    (run : Rounds address source rounds held last) : held + rounds ≤ last := by
  induction run with
  | done => exact Nat.le_refl _
  | fetch asks _ ih =>
    have := ih (fetched.after_refill asks)
    have := (truncated_of_refill fetched.inSource asks).2.1
    omega

/-- The rounds end, for each of them comes closer to the limit. -/
theorem Fetched.exists_stop {held : Nat} (fetched : Fetched source held) :
    ∃ rounds last, Rounds address source rounds held last ∧
      refill address source last = none := by
  cases asks : refill address source held with
  | none => exact ⟨0, held, .done, asks⟩
  | some next =>
    obtain ⟨rounds, last, run, stops⟩ := (fetched.after_refill asks).exists_stop
    exact ⟨rounds + 1, last, .fetch asks run, stops⟩
termination_by lengthLimit - held
decreasing_by
  have := truncated_of_refill fetched.inSource asks
  omega

/-! ## The answer -/

theorem answers_of_final {held : Nat} (fetched : Fetched source held)
    (final : Final (decode (source.take held))) : Answers address source held := by
  have whole : decode source = decode (source.take held) := by
    have := decode_append final (source.drop held)
    rwa [List.take_append_drop] at this
  have wholeAt := (decodeAt_congr whole address).symm
  constructor
  · intro length decoded
    refine ⟨wholeAt.trans decoded, ?_⟩
    rw [decodeAt_ok_iff] at decoded
    have := fetched.inInstruction length decoded
    rw [whole] at decoded
    have := (decode_ok_bounds decoded).2.1
    rw [List.length_take] at this
    omega
  · exact fun _ => wholeAt
  · exact fun _ _ _ => wholeAt
  · exact fun _ _ _ => wholeAt
  · exact fun _ _ _ => .inl wholeAt
  · intro needed available truncated
    obtain ⟨truncated, -⟩ := decodeAt_error_iff.mp truncated
    rw [whole] at truncated
    cases final _ truncated

/-- A truncation that the source cannot satisfy leaves only what such a truncation allows. -/
theorem answers_of_truncated {held needed : Nat} (fetched : Fetched source held)
    (truncated : decode (source.take held) = .error (.truncated needed held))
    (beyond : source.length < needed) : Answers address source held := by
  obtain ⟨-, -, -, -, unmet, inLimit⟩ := decode_truncated_iff.mp truncated
  have asks : AsksBeyond address source held :=
    ⟨needed, decodeAt_error_iff.mpr ⟨truncated, rfl⟩, beyond⟩
  have resumes := decode_append_of_truncated truncated (source.drop held)
  rw [List.take_append_drop, List.length_take_of_le fetched.inSource] at resumes
  -- A refutation would need a byte behind those held, and there is none.
  have unrefuted {fault : Fault} (fails : decode source = .error fault)
      (missing : needed = held + 1) : fault = .truncated needed held := by
    have : source.take held = source := List.take_of_length_le (by omega)
    rw [this, fails] at truncated
    cases truncated
    rfl
  have opcodeFaults {fault : Fault} (fails : decode source = .error fault)
      (noTruncation : fault.isTruncated = false) (noLimit : fault ≠ .invalidEncoding tooLong) :
      False := by
    rw [fails] at resumes
    cases resumes with
    | truncated => cases noTruncation
    | tooLong => exact noLimit rfl
    | refuted _ missing =>
      cases unrefuted fails missing
      cases noTruncation
  constructor
  · intro length decoded
    rw [decodeAt_ok_iff] at decoded
    rw [decoded] at resumes
    cases resumes with
    | decoded reached =>
      have := (decode_ok_bounds decoded).2.1
      omega
  · intro full
    omega
  · intro opcode escaped fails
    exact (opcodeFaults (decodeAt_error_iff.mp fails).1 rfl (by simp)).elim
  · intro opcode sub fails
    exact (opcodeFaults (decodeAt_error_iff.mp fails).1 rfl (by simp)).elim
  · exact fun _ _ _ => .inr asks
  · exact fun _ _ _ => asks

theorem answers_of_stop {held : Nat} (fetched : Fetched source held)
    (stops : refill address source held = none) : Answers address source held := by
  by_cases final : Final (decode (source.take held))
  · exact answers_of_final fetched final
  · obtain ⟨needed, available, fails⟩ := truncated_of_not_final final
    obtain ⟨least, -, -, rfl, unmet, -⟩ := decode_truncated_iff.mp fails
    rw [List.length_take_of_le fetched.inSource] at fails
    apply answers_of_truncated fetched fails
    apply Nat.lt_of_not_le
    intro inSource
    have asks : refill address source held = some needed :=
      refill_eq_some_iff.mpr ⟨⟨_, fails⟩, inSource⟩
    rw [stops] at asks
    cases asks

/-- Fetching what truncations ask for, from nothing on, takes at most fifteen rounds: in each the
    bytes held fall short of those asked for, and these are within the limit.  It ends with the
    answer for the whole source, and whatever follows a truncation takes the bytes it asks for. -/
theorem refill_from_nothing (address : UInt64) (source : List UInt8) :
    (∀ rounds held, Rounds address source rounds 0 held →
      rounds ≤ held ∧ held ≤ lengthLimit ∧
      ∀ next, refill address source held = some next →
        decodeAt address (source.take held) =
            .error { address, fault := .truncated next held } ∧
          held < next ∧ next ≤ lengthLimit) ∧
    (∃ rounds held, rounds ≤ lengthLimit ∧ Rounds address source rounds 0 held ∧
      refill address source held = none) ∧
    (∀ rounds held, Rounds address source rounds 0 held →
      refill address source held = none → Answers address source held) ∧
    (∀ bytes needed available,
      decodeAt address bytes = .error { address, fault := .truncated needed available } →
      ∀ more,
        (∀ length, decodeAt address (bytes ++ more) = .ok length → needed ≤ length.total) ∧
        ∀ again held, decodeAt address (bytes ++ more) =
            .error { address, fault := .truncated again held } → needed ≤ again) := by
  have start := fetched_zero source
  refine ⟨?_, ?_, ?_, ?_⟩
  · intro rounds held run
    have fetched := start.after_rounds run
    refine ⟨?_, fetched.inLimit, ?_⟩
    · have := start.add_rounds_le run
      omega
    · intro next asks
      obtain ⟨truncated, grows, inLimit, -⟩ := truncated_of_refill fetched.inSource asks
      exact ⟨decodeAt_error_iff.mpr ⟨truncated, rfl⟩, grows, inLimit⟩
  · obtain ⟨rounds, held, run, stops⟩ : ∃ rounds held, Rounds address source rounds 0 held ∧
        refill address source held = none := start.exists_stop
    have := start.add_rounds_le run
    have := (start.after_rounds run).inLimit
    exact ⟨rounds, held, by omega, run, stops⟩
  · intro rounds held run stops
    exact answers_of_stop (start.after_rounds run) stops
  · intro bytes needed available truncated more
    have resumes := decode_append_of_truncated (decodeAt_error_iff.mp truncated).1 more
    constructor
    · intro length decoded
      rw [decodeAt_ok_iff.mp decoded] at resumes
      cases resumes with
      | decoded reached => exact reached
    · intro again held truncatedAgain
      rw [(decodeAt_error_iff.mp truncatedAgain).1] at resumes
      cases resumes with
      | truncated grows => exact grows
      | refuted final _ => cases final

/-- A load of seven bytes is fetched in four rounds: prefix, opcode and ModR/M byte one by one, then
    the displacement. -/
theorem refill_load :
    Rounds 0x1000 [0x48, 0x8B, 0x05, 0x10, 0x00, 0x00, 0x00, 0xC3] 4 0 7 ∧
      Answers 0x1000 [0x48, 0x8B, 0x05, 0x10, 0x00, 0x00, 0x00, 0xC3] 7 := by
  have run : Rounds 0x1000 [0x48, 0x8B, 0x05, 0x10, 0x00, 0x00, 0x00, 0xC3] 4 0 7 :=
    .fetch rfl (.fetch rfl (.fetch rfl (.fetch rfl .done)))
  exact ⟨run, (refill_from_nothing 0x1000 _).2.2.1 4 7 run rfl⟩

end X86Length
