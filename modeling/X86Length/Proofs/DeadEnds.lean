import X86Length.Proofs.Completion
import X86Length.Proofs.Grammar

/-! # Dead ends

A byte list is a dead end where it holds an opcode that its map leaves out, or a selector that the
second escape in front of it does not know.  An estimate fails nowhere else (`estimate_error_iff`):
so the faults that name an opcode are those of the inputs that no bytes complete, however many
there are, and they name the byte at which the input died. -/

namespace X86Length

open Opcode

/-! ## The deciding byte -/

/-- A second escape, and a selector behind it that selects no instruction. -/
inductive Unlisted : UInt8 → UInt8 → Prop where
  | plain {selector : UInt8} (unlisted : selector ∉ plainBytes) : Unlisted 0x38 selector
  | immediate {selector : UInt8} (unlisted : selector ∉ immediateBytes)
      (notFree : selector ∉ immediateFreeBytes) : Unlisted 0x3A selector

/-- `DeadEnd bytes place fault`: the byte at `place` leaves no instruction to the bytes, and `fault`
    names it.  It is the opcode byte, the first behind all the prefixes or behind the escape that
    ends them, or the selector behind a second escape. -/
inductive DeadEnd : List UInt8 → Nat → Fault → Prop where
  | opcode {run rest : List UInt8} {escaped : Bool} {opcode : UInt8} (isRun : IsRun run)
      (isOpcode : escaped = false → opcode ≠ 0x0F ∧ opcode ∉ prefixBytes)
      (unmapped : Listed escaped opcode Category.invalid) :
      DeadEnd (run ++ escapeBytes escaped ++ opcode :: rest) (run.length + escaped.toNat)
        (.invalidOpcode opcode escaped)
  | selector {run rest : List UInt8} {opcode selector : UInt8} (isRun : IsRun run)
      (unlisted : Unlisted opcode selector) :
      DeadEnd (run ++ escapeBytes true ++ opcode :: selector :: rest) (run.length + 2)
        (.unknownSubOpcode opcode selector)

theorem Unlisted.secondEscape {opcode selector : UInt8} (unlisted : Unlisted opcode selector) :
    opcode ∈ secondEscapes := by
  cases unlisted <;> decide

theorem unlisted_plain_iff (selector : UInt8) :
    Unlisted 0x38 selector ↔ selector ∉ plainBytes := by
  constructor
  · intro unlisted
    cases unlisted with
    | plain unlisted => exact unlisted
  · exact .plain

theorem unlisted_immediate_iff (selector : UInt8) :
    Unlisted 0x3A selector ↔ selector ∉ immediateBytes ∧ selector ∉ immediateFreeBytes := by
  constructor
  · intro unlisted
    cases unlisted with
    | immediate unlisted notFree => exact ⟨unlisted, notFree⟩
  · rintro ⟨unlisted, notFree⟩
    exact .immediate unlisted notFree

namespace DeadEnd

variable {bytes : List UInt8} {place : Nat} {fault : Fault}

theorem append (dead : DeadEnd bytes place fault) (more : List UInt8) :
    DeadEnd (bytes ++ more) place fault := by
  cases dead with
  | opcode isRun isOpcode unmapped =>
    rw [List.append_assoc, List.cons_append]
    exact .opcode isRun isOpcode unmapped
  | selector isRun unlisted =>
    rw [List.append_assoc, List.cons_append, List.cons_append]
    exact .selector isRun unlisted

theorem take (dead : DeadEnd bytes place fault) {k : Nat} (reached : place < k) :
    DeadEnd (bytes.take k) place fault := by
  obtain ⟨behind, rfl⟩ := Nat.exists_eq_add_of_lt reached
  cases dead with
  | @opcode run rest escaped opcode isRun isOpcode unmapped =>
    have lead : run.length + escaped.toNat = (run ++ escapeBytes escaped).length := by simp
    rw [lead, Nat.add_assoc, List.take_length_add_append, List.take_succ_cons, ← lead]
    exact .opcode isRun isOpcode unmapped
  | @selector run rest opcode selector isRun unlisted =>
    have lead : run.length + 2 + behind + 1 = (run ++ escapeBytes true).length + (behind + 2) := by
      simp only [List.length_append, length_escapeBytes, Bool.toNat_true]
      omega
    rw [lead, List.take_length_add_append, List.take_succ_cons, List.take_succ_cons]
    exact .selector isRun unlisted

theorem place_lt_length (dead : DeadEnd bytes place fault) : place < bytes.length := by
  cases dead <;> simp only [List.length_append, List.length_cons, length_escapeBytes,
    Bool.toNat_true] <;> omega

theorem place_of_invalidOpcode {opcode : UInt8} {escaped : Bool}
    (dead : DeadEnd bytes place (.invalidOpcode opcode escaped)) :
    place = (Prefixes.ofBytes bytes).count := by
  cases dead with
  | opcode isRun isOpcode unmapped =>
    rw [ofBytes_lead isRun (stopsAt_opcode_iff.mpr isOpcode), Prefixes.count_ofRun]

theorem place_of_unknownSubOpcode {opcode sub : UInt8}
    (dead : DeadEnd bytes place (.unknownSubOpcode opcode sub)) :
    place = (Prefixes.ofBytes bytes).count + 1 := by
  cases dead with
  | selector isRun unlisted =>
    rw [ofBytes_lead isRun (stopsAt_escape _), Prefixes.count_ofRun]
    rfl

theorem place_unique {other : Nat} (dead : DeadEnd bytes place fault)
    (again : DeadEnd bytes other fault) : place = other := by
  cases fault with
  | invalidOpcode opcode escaped =>
    rw [dead.place_of_invalidOpcode, again.place_of_invalidOpcode]
  | unknownSubOpcode opcode sub =>
    rw [dead.place_of_unknownSubOpcode, again.place_of_unknownSubOpcode]
  | truncated needed available => cases dead
  | invalidEncoding reason => cases dead

end DeadEnd

/-! ## Where an opcode fails -/

theorem category_ne_invalid_of_bySelector {escaped : Bool} {opcode : UInt8}
    (bySelector : (Encoding.ofOpcode escaped opcode).bySelector = true) :
    (Encoding.ofOpcode escaped opcode).category ≠ .invalid := by
  obtain ⟨rfl, rfl⟩ | ⟨rfl, rfl⟩ | ⟨rfl, rfl⟩ | ⟨rfl, rfl⟩ := bySelector_cases bySelector
  all_goals decide

/-- The escaped map has no prefixes, and the one-byte map no others than the prefix bytes. -/
theorem category_ne_prefixByte {escaped : Bool} {opcode : UInt8}
    (isOpcode : escaped = false → Prefixes.isPrefixByte opcode = false) :
    (Encoding.ofOpcode escaped opcode).category ≠ .prefixByte := by
  cases escaped with
  | false =>
    have noPrefix := isOpcode rfl
    simpa [Prefixes.isPrefixByte] using noPrefix
  | true =>
    clear isOpcode
    revert opcode
    apply forall_byte
    decide +kernel

theorem ne_of_takesModRM {category : Category} (takes : category.takesModRM = true) :
    category ≠ .invalid ∧ category ≠ .prefixByte := by
  constructor <;> rintro rfl <;> cases takes

theorem select_error_iff {escaped : Bool} {opcode : UInt8} {fault : Fault}
    (bySelector : (Encoding.ofOpcode escaped opcode).bySelector = true) (selector : UInt8)
    (rest : List UInt8) :
    select escaped opcode (selector :: rest) = .error fault ↔
      escaped = true ∧ Unlisted opcode selector ∧ .unknownSubOpcode opcode selector = fault := by
  obtain ⟨rfl, rfl⟩ | ⟨rfl, rfl⟩ | ⟨rfl, rfl⟩ | ⟨rfl, rfl⟩ := bySelector_cases bySelector
  · simp [select, selectPlain]
  · have noSecond : ¬ Unlisted 0x01 selector := by
      intro unlisted
      exact absurd unlisted.secondEscape (by decide)
    simp [select, selectEscaped, noSecond]
  · rw [unlisted_plain_iff, ← plainSelectors_iff]
    simp only [select, selectEscaped]
    cases ByteRange.anyContains plainSelectors selector <;> simp
  · rw [unlisted_immediate_iff, ← immediateSelectors_iff, ← immediateFreeSelectors_iff]
    simp only [select, selectEscaped]
    cases ByteRange.anyContains immediateSelectors selector <;>
      cases ByteRange.anyContains immediateFreeSelectors selector <;> simp

theorem estimateSettled_error_iff {prefixes : Prefixes} {opcode : UInt8} {selection : Selection}
    {rest : List UInt8} {fault : Fault} (noPrefix : selection.encoding.category ≠ .prefixByte) :
    estimateSettled prefixes opcode selection rest = .error fault ↔
      selection.encoding.category = .invalid ∧ .invalidOpcode opcode prefixes.escaped = fault := by
  unfold estimateSettled
  split
  next invalid => simp [invalid]
  next valid => simp [valid]

theorem estimateOperands_error_iff {prefixes : Prefixes} {opcode : UInt8} {rest : List UInt8}
    {fault : Fault}
    (isOpcode : prefixes.escaped = false → Prefixes.isPrefixByte opcode = false) :
    estimateOperands prefixes (opcode :: rest) = .error fault ↔
      ((Encoding.ofOpcode prefixes.escaped opcode).category = .invalid ∧
          .invalidOpcode opcode prefixes.escaped = fault) ∨
        ∃ selector more, rest = selector :: more ∧ prefixes.escaped = true ∧
          Unlisted opcode selector ∧ .unknownSubOpcode opcode selector = fault := by
  cases bySelector : (Encoding.ofOpcode prefixes.escaped opcode).bySelector with
  | false =>
    rw [estimateOperands_of_settle (settle_by_map bySelector rest),
      estimateSettled_error_iff (category_ne_prefixByte isOpcode)]
    constructor
    · exact .inl
    · rintro (invalid | ⟨selector, more, -, isEscaped, unlisted, -⟩)
      · exact invalid
      · rw [isEscaped, bySelector_of_secondEscape unlisted.secondEscape] at bySelector
        cases bySelector
  | true =>
    have valid := category_ne_invalid_of_bySelector bySelector
    cases rest with
    | nil => simp [estimateOperands_of_missing bySelector, valid]
    | cons selector more =>
      have settles : Settles prefixes.escaped opcode (selector :: more) :=
        fun _ => List.cons_ne_nil _ _
      have unlisted := @select_error_iff _ _ fault bySelector selector more
      rw [estimateOperands_of_settles settles, settle_by_selector bySelector]
      cases selected : select prefixes.escaped opcode (selector :: more) with
      | error found =>
        rw [selected] at unlisted
        simpa [valid] using unlisted
      | ok selection =>
        -- A ModR/M byte follows whatever is selected, so the selection itself never fails.
        obtain ⟨isValid, noPrefix⟩ := ne_of_takesModRM (takesModRM_of_select selected)
        rw [selected] at unlisted
        simp only [reduceCtorEq, false_iff] at unlisted
        simp [estimateSettled_error_iff noPrefix, isValid, valid, unlisted]

/-! ## Where an input dies -/

theorem estimate_error_iff {bytes : List UInt8} {fault : Fault} :
    estimate bytes = .error fault ↔ ∃ place, DeadEnd bytes place fault := by
  constructor
  · intro fails
    obtain ⟨run, escaped, rest, isRun, stops, rfl⟩ := exists_lead bytes
    rw [estimate_lead isRun stops] at fails
    obtain ⟨inner, inside, rfl⟩ := Prefixes.complete_error_iff.mp fails
    cases rest with
    | nil => cases inside
    | cons opcode rest =>
      have isOpcode := stopsAt_cons.mp stops
      rw [estimateOperands_error_iff (by simpa using isOpcode), Prefixes.escaped_ofRun] at inside
      rcases inside with ⟨invalid, rfl⟩ | ⟨selector, more, rfl, rfl, unlisted, rfl⟩
      · exact ⟨_, .opcode isRun (stopsAt_opcode_iff.mp stops) (listed_invalid_iff.mpr invalid)⟩
      · exact ⟨_, .selector isRun unlisted⟩
  · rintro ⟨place, dead⟩
    cases dead with
    | @opcode run rest escaped opcode isRun isOpcode unmapped =>
      have stops : StopsAt escaped (opcode :: rest) := stopsAt_opcode_iff.mpr isOpcode
      rw [estimate_lead isRun stops]
      apply Prefixes.complete_error_iff.mpr
      refine ⟨.invalidOpcode opcode escaped, ?_, rfl⟩
      rw [estimateOperands_error_iff (by simpa using stopsAt_cons.mp stops),
        Prefixes.escaped_ofRun]
      exact .inl ⟨listed_invalid_iff.mp unmapped, rfl⟩
    | @selector run rest opcode selector isRun unlisted =>
      rw [estimate_lead isRun (stopsAt_escape _)]
      apply Prefixes.complete_error_iff.mpr
      refine ⟨.unknownSubOpcode opcode selector, ?_, rfl⟩
      rw [estimateOperands_error_iff (by simp), Prefixes.escaped_ofRun]
      exact .inr ⟨selector, rest, rfl, rfl, unlisted, rfl⟩

/-- A dead end goes on to no instruction. -/
theorem DeadEnd.decodeUnbounded_ne_ok {bytes : List UInt8} {place : Nat} {fault : Fault}
    (dead : DeadEnd bytes place fault) (more : List UInt8) (length : InstructionLength) :
    decodeUnbounded (bytes ++ more) ≠ .ok length := by
  intro decoded
  have fails := estimate_error_iff.mpr ⟨place, dead.append more⟩
  rw [(decodeUnbounded_ok_iff.mp decoded).1] at fails
  cases fails

/-- Every other input does. -/
theorem exists_decodeUnbounded_ok {bytes : List UInt8} {least : InstructionLength}
    (estimated : estimate bytes = .ok least) :
    ∃ more length, decodeUnbounded (bytes ++ more) = .ok length := by
  by_cases met : least.total ≤ bytes.length
  · refine ⟨[], least, decodeUnbounded_ok_iff.mpr ?_⟩
    rw [List.append_nil]
    exact ⟨estimated, met⟩
  · obtain ⟨more, found, next, exactly, -⟩ := exists_completion estimated (Nat.lt_of_not_le met)
    exact ⟨more, found, decodeUnbounded_ok_iff.mpr ⟨next, Nat.le_of_eq exactly⟩⟩

/-! ## Verdicts -/

theorem deadEnd_of_decode {bytes : List UInt8} {fault : Fault}
    (fails : decode bytes = .error fault) (final : fault.isTruncated = false)
    (inLimit : fault ≠ .invalidEncoding tooLong) :
    ∃ place, DeadEnd bytes place fault ∧ place < lengthLimit := by
  rw [decode_eq] at fails
  rcases verdict_error fails with fails | overlong | truncated
  · obtain ⟨place, dead⟩ := estimate_error_iff.mp fails
    have inWindow := dead.place_lt_length
    rw [List.length_take] at inWindow
    refine ⟨place, ?_, by omega⟩
    rw [← List.take_append_drop lengthLimit bytes]
    exact dead.append _
  · exact absurd overlong inLimit
  · rw [truncated] at final
    cases final

/-- Within the limit the faults that name an opcode are those of the inputs that no bytes complete,
    and what they name are the opcode byte, or a second escape and its selector. -/
theorem opcodeFault_iff_not_completable (address : UInt64) {bytes : List UInt8}
    (short : bytes.length ≤ lengthLimit) :
    (((∃ opcode escaped, decodeAt address bytes =
          .error { address, fault := .invalidOpcode opcode escaped }) ∨
        ∃ opcode sub, decodeAt address bytes =
          .error { address, fault := .unknownSubOpcode opcode sub }) ↔
      ¬ ∃ more length, decodeUnbounded (bytes ++ more) = .ok length) ∧
    (∀ opcode escaped,
      decodeAt address bytes = .error { address, fault := .invalidOpcode opcode escaped } →
      ∃ place, DeadEnd bytes place (.invalidOpcode opcode escaped)) ∧
    (∀ opcode sub,
      decodeAt address bytes = .error { address, fault := .unknownSubOpcode opcode sub } →
      ∃ place, DeadEnd bytes place (.unknownSubOpcode opcode sub)) := by
  have named {fault : Fault} (fails : decodeAt address bytes = .error { address, fault })
      (final : fault.isTruncated = false) (inLimit : fault ≠ .invalidEncoding tooLong) :
      ∃ place, DeadEnd bytes place fault := by
    obtain ⟨place, dead, -⟩ := deadEnd_of_decode (decodeAt_error_iff.mp fails).1 final inLimit
    exact ⟨place, dead⟩
  refine ⟨⟨?_, ?_⟩, fun _ _ fails => named fails rfl (by simp),
    fun _ _ fails => named fails rfl (by simp)⟩
  · rintro (⟨opcode, escaped, fails⟩ | ⟨opcode, sub, fails⟩) ⟨more, length, decoded⟩
    · obtain ⟨place, dead⟩ := named fails rfl (by simp)
      exact dead.decodeUnbounded_ne_ok more length decoded
    · obtain ⟨place, dead⟩ := named fails rfl (by simp)
      exact dead.decodeUnbounded_ne_ok more length decoded
  · intro incompletable
    cases estimated : estimate bytes with
    | ok least => exact absurd (exists_decodeUnbounded_ok estimated) incompletable
    | error fault =>
      have fails : decode bytes = .error fault := by
        rw [decode_of_length_le short, estimated]
        rfl
      obtain ⟨place, dead⟩ := estimate_error_iff.mp estimated
      cases dead with
      | opcode => exact .inl ⟨_, _, decodeAt_error_iff.mpr ⟨fails, rfl⟩⟩
      | selector => exact .inr ⟨_, _, decodeAt_error_iff.mpr ⟨fails, rfl⟩⟩

/-- Behind a prefix and a second escape stands a selector that it does not know. -/
theorem unknown_selector_not_completable :
    ([0x66, 0x0F, 0x3A, 0xFF] : List UInt8).length ≤ lengthLimit ∧
      decodeAt 0x10 [0x66, 0x0F, 0x3A, 0xFF] =
        .error { address := 0x10, fault := .unknownSubOpcode 0x3A 0xFF } ∧
      (¬ ∃ more length, decodeUnbounded ([0x66, 0x0F, 0x3A, 0xFF] ++ more) = .ok length) ∧
      ∃ place, DeadEnd [0x66, 0x0F, 0x3A, 0xFF] place (.unknownSubOpcode 0x3A 0xFF) := by
  have short : ([0x66, 0x0F, 0x3A, 0xFF] : List UInt8).length ≤ lengthLimit := by decide
  have fails : decodeAt 0x10 [0x66, 0x0F, 0x3A, 0xFF] =
      .error { address := 0x10, fault := .unknownSubOpcode 0x3A 0xFF } := rfl
  obtain ⟨dead, -, named⟩ := opcodeFault_iff_not_completable 0x10 short
  exact ⟨short, fails, dead.mp (.inr ⟨_, _, fails⟩), named _ _ fails⟩

end X86Length
