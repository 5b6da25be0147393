import X86Length.Proofs.Estimate

/-! # Growing inputs

Bytes that follow leave a fault and a met estimate as they are; they can only raise an unmet one,
or refute it where the missing byte was the next (`estimate_sharpens`).  So every verdict but a
truncation is final (`decode_append`), and a truncation names a lower bound for all that can follow
it (`decode_append_of_truncated`). -/

namespace X86Length

open Opcode

/-- What may become of an estimate from `held` bytes once more bytes follow. -/
inductive Sharpens {α : Type} (size : α → Nat) (held : Nat) :
    Except Fault α → Except Fault α → Prop where
  | kept (least : Except Fault α) : Sharpens size held least least
  | raised {least next : α} (unmet : held < size least) (grows : size least ≤ size next) :
      Sharpens size held (.ok least) (.ok next)
  | refuted {least : α} {fault : Fault} (missing : size least = held + 1) :
      Sharpens size held (.ok least) (.error fault)

/-! ## Operands -/

theorem leastAddressing_mono (prefixes : Prefixes) (category : Category)
    (window more : List UInt8) :
    leastAddressing prefixes category window ≤
      leastAddressing prefixes category (window ++ more) := by
  unfold leastAddressing
  split
  · exact (Addressing.settling_need _).mono window more
  · exact Nat.le_refl _

theorem leastAddressing_append {prefixes : Prefixes} {category : Category} {window : List UInt8}
    (met : leastAddressing prefixes category window ≤ window.length) (more : List UInt8) :
    leastAddressing prefixes category (window ++ more) =
      leastAddressing prefixes category window := by
  unfold leastAddressing at met ⊢
  split
  next takes =>
    rw [if_pos takes] at met
    exact (Addressing.settling_need _).append window met more
  · rfl

theorem leastOperands_append {prefixes : Prefixes} {selection : Selection} {rest : List UInt8}
    (met : (leastOperands prefixes selection rest).size ≤ 1 + rest.length) (more : List UInt8) :
    leastOperands prefixes selection (rest ++ more) = leastOperands prefixes selection rest := by
  simp only [leastOperands, Operands.size] at met
  have present : selection.extra ≤ rest.length := by omega
  simp only [leastOperands, List.drop_append_of_le_length present]
  rw [leastAddressing_append]
  rw [List.length_drop]
  omega

theorem leastOperands_size_mono {prefixes : Prefixes} {selection : Selection} {rest : List UInt8}
    (present : selection.extra ≤ rest.length) (more : List UInt8) :
    (leastOperands prefixes selection rest).size ≤
      (leastOperands prefixes selection (rest ++ more)).size := by
  have := leastAddressing_mono prefixes selection.encoding.category
    (rest.drop selection.extra) more
  simp only [leastOperands, Operands.size, List.drop_append_of_le_length present]
  omega

theorem estimateSettled_sharpens {selection : Selection} {rest : List UInt8}
    (present : selection.extra ≤ rest.length) (prefixes : Prefixes) (opcode : UInt8)
    (more : List UInt8) :
    Sharpens Operands.size (1 + rest.length) (estimateSettled prefixes opcode selection rest)
      (estimateSettled prefixes opcode selection (rest ++ more)) := by
  unfold estimateSettled
  split
  · exact .kept _
  · split
    · exact .kept _
    · by_cases met : (leastOperands prefixes selection rest).size ≤ 1 + rest.length
      · rw [leastOperands_append met]
        exact .kept _
      · exact .raised (Nat.lt_of_not_le met) (leastOperands_size_mono present more)

theorem extra_lt_size_of_estimateSettled {prefixes : Prefixes} {opcode : UInt8}
    {selection : Selection} {rest : List UInt8} {operands : Operands}
    (takes : selection.encoding.category.takesModRM = true)
    (least : estimateSettled prefixes opcode selection rest = .ok operands) :
    selection.extra + 2 ≤ operands.size := by
  obtain ⟨-, -, rfl⟩ := estimateSettled_ok_iff.mp least
  have := Addressing.need_pos prefixes.address16 (rest.drop selection.extra)
  simp only [leastOperands, leastAddressing, takes, if_true, Operands.size]
  omega

theorem estimateOperands_sharpens (prefixes : Prefixes) (bytes more : List UInt8) :
    Sharpens Operands.size bytes.length (estimateOperands prefixes bytes)
      (estimateOperands prefixes (bytes ++ more)) := by
  cases bytes with
  | nil =>
    -- The opcode is missing, and whatever comes next takes a byte at least.
    cases next : estimateOperands prefixes ([] ++ more) with
    | error fault => exact .refuted rfl
    | ok operands => exact .raised Nat.one_pos operands.size_pos
  | cons opcode rest =>
    by_cases settles : Settles prefixes.escaped opcode rest
    · rw [List.cons_append, estimateOperands_of_settles settles,
        estimateOperands_of_settles (settles.append more), settle_append settles]
      cases settled : settle prefixes.escaped opcode rest with
      | error fault => exact .kept _
      | ok selection =>
        rw [List.length_cons, Nat.add_comm]
        exact estimateSettled_sharpens (extra_le_of_settle settled) prefixes opcode more
    · obtain ⟨bySelector, rfl⟩ := missing_of_not_settles settles
      cases more with
      | nil => exact .kept _
      | cons selector more =>
        -- Whatever the selector selects has a ModR/M byte, so it needs the two bytes asked for.
        have settles : Settles prefixes.escaped opcode (selector :: more) :=
          fun _ => List.cons_ne_nil _ _
        rw [estimateOperands_of_missing bySelector, List.cons_append, List.nil_append,
          estimateOperands_of_settles settles, settle_by_selector bySelector]
        cases selected : select prefixes.escaped opcode (selector :: more) with
        | error fault => exact .refuted rfl
        | ok selection =>
          show Sharpens Operands.size 1 _ (estimateSettled prefixes opcode selection _)
          cases next : estimateSettled prefixes opcode selection (selector :: more) with
          | error fault => exact .refuted rfl
          | ok operands =>
            have := extra_lt_size_of_estimateSettled (takesModRM_of_select selected) next
            exact .raised (by decide) (Nat.le_trans (Nat.le_add_left 2 _) this)

/-! ## Whole instructions -/

theorem Sharpens.complete {held : Nat} {least next : Except Fault Operands}
    (sharpens : Sharpens Operands.size held least next) (found : Prefixes) :
    Sharpens InstructionLength.total (found.count + held) (found.complete least)
      (found.complete next) := by
  cases sharpens with
  | kept least => exact .kept _
  | raised unmet grows =>
    apply Sharpens.raised <;> simp only [Operands.total_behind] <;> omega
  | refuted missing =>
    apply Sharpens.refuted
    rw [Operands.total_behind]
    omega

theorem estimate_run {run : List UInt8} (isRun : IsRun run) :
    ∃ least, estimate run = .ok least ∧ least.total = run.length + 1 := by
  have lead := estimate_lead isRun (stopsAt_nil false)
  simp only [escapeBytes, Bool.false_eq_true, if_false, List.append_nil] at lead
  refine ⟨_, lead, ?_⟩
  simp [Operands.total_behind, Operands.size]

theorem lt_total_of_estimate_run {run more : List UInt8} {length : InstructionLength}
    (isRun : IsRun run) (least : estimate (run ++ more) = .ok length) :
    run.length < length.total := by
  obtain ⟨run', escaped, rest, isRun', stops, rfl⟩ := exists_lead more
  have lead := estimate_lead (isRun.append isRun') stops
  simp only [List.append_assoc] at lead least
  rw [lead] at least
  obtain ⟨operands, -, rfl⟩ := Prefixes.complete_ok least
  have := operands.size_pos
  simp only [Operands.total_behind, Prefixes.count_ofRun, List.length_append]
  omega

/-- How an estimate goes on: a fault and a met estimate stay, an unmet one is raised, or refuted by
    the very next byte. -/
theorem estimate_sharpens (bytes more : List UInt8) :
    Sharpens InstructionLength.total bytes.length (estimate bytes) (estimate (bytes ++ more)) := by
  obtain ⟨run, escaped, rest, isRun, stops, rfl⟩ := exists_lead bytes
  by_cases seen : escaped = true ∨ rest ≠ []
  · have sharpens := (estimateOperands_sharpens (Prefixes.ofRun run escaped) rest more).complete
      (Prefixes.ofRun run escaped)
    rw [← estimate_lead isRun stops, ← estimate_lead isRun (stops.append seen more)] at sharpens
    simpa [Nat.add_assoc] using sharpens
  · -- Nothing but prefixes: the run may go on, and one byte more than it was asked for.
    obtain ⟨rfl, rfl⟩ : escaped = false ∧ rest = [] := by simpa using seen
    simp only [escapeBytes, Bool.false_eq_true, if_false, List.append_nil]
    obtain ⟨least, estimated, total⟩ := estimate_run isRun
    rw [estimated]
    cases next : estimate (run ++ more) with
    | error fault => exact .refuted total
    | ok length =>
      have := lt_total_of_estimate_run isRun next
      exact .raised (by omega) (by omega)

/-! ## Verdicts -/

theorem verdict_ok_iff {held : Nat} {least : Except Fault InstructionLength}
    {length : InstructionLength} :
    verdict held least = .ok length ↔ least = .ok length ∧ length.total ≤ held := by
  cases least with
  | error fault => simp [verdict]
  | ok found =>
    simp only [verdict, Except.ok.injEq]
    split
    next met =>
      simp only [Except.ok.injEq]
      constructor
      · rintro rfl
        exact ⟨rfl, met⟩
      · exact And.left
    next unmet =>
      split
      all_goals
        simp only [reduceCtorEq, false_iff, not_and]
        rintro rfl
        exact unmet

theorem verdict_error {held : Nat} {least : Except Fault InstructionLength} {fault : Fault}
    (fails : verdict held least = .error fault) :
    least = .error fault ∨ fault = .invalidEncoding tooLong ∨ fault.isTruncated = true := by
  cases least with
  | error found => exact .inl fails
  | ok least =>
    simp only [verdict] at fails
    split at fails
    · cases fails
    · split at fails
      · cases fails
        exact .inr (.inl rfl)
      · cases fails
        exact .inr (.inr rfl)

theorem verdict_estimate_truncated_iff {held : Nat} {bytes : List UInt8} {needed available : Nat} :
    verdict held (estimate bytes) = .error (.truncated needed available) ↔
      ∃ least, estimate bytes = .ok least ∧ least.total = needed ∧ held = available ∧
        held < needed ∧ needed ≤ lengthLimit := by
  cases estimated : estimate bytes with
  | error fault =>
    simp only [verdict, Except.error.injEq, reduceCtorEq, false_and, exists_false, iff_false]
    rintro rfl
    cases final_of_estimate estimated
  | ok found =>
    simp only [verdict, Except.ok.injEq, exists_eq_left']
    split
    next met =>
      simp only [reduceCtorEq, false_iff]
      omega
    next unmet =>
      split
      · simp only [Except.error.injEq, reduceCtorEq, false_iff]
        omega
      · simp only [Except.error.injEq, Fault.truncated.injEq]
        omega

theorem decode_of_length_le {bytes : List UInt8} (short : bytes.length ≤ lengthLimit) :
    decode bytes = verdict bytes.length (estimate bytes) := by
  rw [decode_eq, List.take_of_length_le short]

theorem decode_append_of_full {bytes : List UInt8} (full : lengthLimit ≤ bytes.length)
    (more : List UInt8) : decode (bytes ++ more) = decode bytes := by
  rw [decode_eq, decode_eq, List.take_append_of_le_length full]

theorem decode_append_of_room {bytes : List UInt8} (room : bytes.length ≤ lengthLimit)
    (more : List UInt8) :
    decode (bytes ++ more) =
      verdict (bytes ++ more.take (lengthLimit - bytes.length)).length
        (estimate (bytes ++ more.take (lengthLimit - bytes.length))) := by
  rw [decode_eq, List.take_append, List.take_of_length_le room]

/-! ## Final verdicts -/

/-- A verdict that no truncation leaves open. -/
def Final {α : Type} (verdict : Except Fault α) : Prop :=
  ∀ fault, verdict = .error fault → fault.isTruncated = false

theorem final_ok {α : Type} (found : α) : Final (.ok found) := by
  intro fault fails
  cases fails

theorem truncated_of_not_final {α : Type} {verdict : Except Fault α} (unsettled : ¬ Final verdict) :
    ∃ needed available, verdict = .error (.truncated needed available) := by
  obtain ⟨fault, fails, truncation⟩ :
      ∃ fault, verdict = .error fault ∧ fault.isTruncated = true := by
    simpa [Final] using unsettled
  cases fault with
  | truncated needed available => exact ⟨needed, available, fails⟩
  | _ => cases truncation

theorem Sharpens.verdict_eq {held now : Nat} {least next : Except Fault InstructionLength}
    (sharpens : Sharpens InstructionLength.total held least next) (grown : held ≤ now)
    (room : held < lengthLimit) (window : now ≤ lengthLimit) (final : Final (verdict held least)) :
    verdict now next = verdict held least := by
  -- An unmet estimate is a final verdict only beyond the limit, and there it stays.
  have tooMany_of_unmet {least : InstructionLength} (unmet : held < least.total)
      (final : Final (verdict held (.ok least))) : lengthLimit < least.total := by
    by_cases tooMany : lengthLimit < least.total
    · exact tooMany
    · simp only [verdict, if_neg (Nat.not_le_of_lt unmet), if_neg tooMany] at final
      cases final _ rfl
  cases sharpens with
  | kept least =>
    cases least with
    | error fault => rfl
    | ok least =>
      by_cases met : least.total ≤ held
      · simp only [verdict, if_pos met, if_pos (Nat.le_trans met grown)]
      · have tooMany := tooMany_of_unmet (Nat.lt_of_not_le met) final
        simp only [verdict, if_neg met, if_pos tooMany]
        rw [if_neg (by omega)]
  | @raised least next unmet grows =>
    have tooMany := tooMany_of_unmet unmet final
    simp only [verdict, if_neg (Nat.not_le_of_lt unmet), if_pos tooMany]
    rw [if_neg (by omega), if_pos (by omega)]
  | @refuted least fault missing =>
    have tooMany := tooMany_of_unmet (by omega) final
    omega

theorem decode_append {bytes : List UInt8} (final : Final (decode bytes)) (more : List UInt8) :
    decode (bytes ++ more) = decode bytes := by
  by_cases full : lengthLimit ≤ bytes.length
  · exact decode_append_of_full full more
  · have room : bytes.length < lengthLimit := Nat.lt_of_not_le full
    rw [decode_append_of_room (Nat.le_of_lt room) more]
    rw [decode_of_length_le (Nat.le_of_lt room)] at final ⊢
    apply (estimate_sharpens bytes _).verdict_eq _ room _ final
    · simp
    · simp only [List.length_append, List.length_take]
      omega

theorem decode_ok_iff {bytes : List UInt8} {length : InstructionLength} :
    decode bytes = .ok length ↔
      estimate bytes = .ok length ∧ length.total ≤ bytes.length ∧ length.total ≤ lengthLimit := by
  have sharpens := estimate_sharpens (bytes.take lengthLimit) (bytes.drop lengthLimit)
  rw [decode_eq, verdict_ok_iff, List.length_take, Nat.le_min, And.comm (a := _ ≤ lengthLimit)]
  rw [List.take_append_drop, List.length_take] at sharpens
  -- A met estimate of the window is that of the whole, and conversely.
  apply and_congr_left
  rintro ⟨met, inLimit⟩
  generalize estimate bytes = whole at sharpens ⊢
  generalize estimate (bytes.take lengthLimit) = window at sharpens ⊢
  constructor
  · rintro rfl
    cases sharpens with
    | kept => rfl
    | raised unmet _ => omega
    | refuted missing => omega
  · rintro rfl
    cases sharpens with
    | kept => rfl
    | raised unmet grows => omega

/-! ## Truncations -/

theorem decode_truncated_iff {bytes : List UInt8} {needed available : Nat} :
    decode bytes = .error (.truncated needed available) ↔
      ∃ least, estimate bytes = .ok least ∧ least.total = needed ∧ bytes.length = available ∧
        bytes.length < needed ∧ needed ≤ lengthLimit := by
  by_cases full : lengthLimit < bytes.length
  · rw [decode_eq, verdict_estimate_truncated_iff]
    have window : (bytes.take lengthLimit).length = lengthLimit := by
      rw [List.length_take]
      omega
    constructor
    · rintro ⟨_, _, _, _, _, _⟩
      omega
    · rintro ⟨_, _, _, _, _, _⟩
      omega
  · rw [decode_of_length_le (Nat.le_of_not_lt full), verdict_estimate_truncated_iff]

/-- What may follow a truncation that asked for `needed` bytes where `held` were there. -/
inductive Resumes (needed held : Nat) : Except Fault InstructionLength → Prop where
  | decoded {length : InstructionLength} (reached : needed ≤ length.total) :
      Resumes needed held (.ok length)
  | truncated {again available : Nat} (grows : needed ≤ again) :
      Resumes needed held (.error (.truncated again available))
  | tooLong : Resumes needed held (.error (.invalidEncoding tooLong))
  | refuted {fault : Fault} (final : fault.isTruncated = false) (missing : needed = held + 1) :
      Resumes needed held (.error fault)

/-- A truncation asks for no more than any continuation takes. -/
theorem decode_append_of_truncated {bytes : List UInt8} {needed available : Nat}
    (truncated : decode bytes = .error (.truncated needed available)) (more : List UInt8) :
    Resumes needed bytes.length (decode (bytes ++ more)) := by
  obtain ⟨least, estimated, rfl, rfl, unmet, inLimit⟩ := decode_truncated_iff.mp truncated
  have room : bytes.length ≤ lengthLimit := by omega
  have resumes_verdict {next : InstructionLength} (now : Nat) (grows : least.total ≤ next.total) :
      Resumes least.total bytes.length (verdict now (.ok next)) := by
    simp only [verdict]
    split
    · exact .decoded grows
    · split
      · exact .tooLong
      · exact .truncated grows
  have sharpens := estimate_sharpens bytes (more.take (lengthLimit - bytes.length))
  rw [decode_append_of_room room]
  rw [estimated] at sharpens
  cases next : estimate (bytes ++ more.take (lengthLimit - bytes.length)) with
  | error fault =>
    rw [next] at sharpens
    cases sharpens with
    | refuted missing => exact .refuted (final_of_estimate next) missing
  | ok length =>
    rw [next] at sharpens
    apply resumes_verdict
    cases sharpens with
    | kept => exact Nat.le_refl _
    | raised _ grows => exact grows

theorem decode_take_of_lt {bytes : List UInt8} {length : InstructionLength}
    (decoded : decode bytes = .ok length) {k : Nat} (short : k < length.total) :
    ∃ needed available, decode (bytes.take k) = .error (.truncated needed available) := by
  cases verdict : decode (bytes.take k) with
  | ok found =>
    have final : Final (decode (bytes.take k)) := by
      rw [verdict]
      exact final_ok found
    have whole := decode_append final (bytes.drop k)
    rw [List.take_append_drop, decoded, verdict] at whole
    cases whole
    have := (decode_ok_bounds verdict).2.1
    rw [List.length_take] at this
    omega
  | error fault =>
    cases fault with
    | truncated needed available => exact ⟨needed, available, rfl⟩
    | _ =>
      have final : Final (decode (bytes.take k)) := by
        rw [verdict]
        intro fault fails
        cases fails
        rfl
      have whole := decode_append final (bytes.drop k)
      rw [List.take_append_drop, decoded, verdict] at whole
      cases whole

/-! ## At an address -/

theorem decodeAt_ok_iff {address : UInt64} {bytes : List UInt8} {length : InstructionLength} :
    decodeAt address bytes = .ok length ↔ decode bytes = .ok length := by
  unfold decodeAt
  cases decode bytes <;> simp

theorem decodeAt_error_iff {address : UInt64} {bytes : List UInt8} {error : DecodeError} :
    decodeAt address bytes = .error error ↔
      decode bytes = .error error.fault ∧ error.address = address := by
  unfold decodeAt
  cases decode bytes with
  | ok length => simp
  | error fault =>
    obtain ⟨place, found⟩ := error
    simp [and_comm, eq_comm]

theorem decodeAt_congr {bytes other : List UInt8} (same : decode bytes = decode other)
    (address : UInt64) : decodeAt address bytes = decodeAt address other := by
  rw [decodeAt, decodeAt, same]

/-- Every verdict but a truncation is final: the bytes that follow do not change it.  So no complete
    instruction goes on to another one, and a strict prefix of an instruction is truncated. -/
theorem decodeAt_final (address : UInt64) (bytes : List UInt8) :
    ((∀ error, decodeAt address bytes = .error error → error.isTruncated = false) →
      ∀ more, decodeAt address (bytes ++ more) = decodeAt address bytes) ∧
    (∀ length, decodeAt address bytes = .ok length → length.total = bytes.length →
      ∀ more found, decodeAt address (bytes ++ more) = .ok found →
        found.total = (bytes ++ more).length → more = []) ∧
    (∀ length, decodeAt address bytes = .ok length →
      ∀ k < length.total, ∃ needed available,
        decodeAt address (bytes.take k) =
          .error { address, fault := .truncated needed available }) := by
  refine ⟨?_, ?_, ?_⟩
  · intro final more
    apply decodeAt_congr
    apply decode_append
    intro fault fails
    exact final { address, fault } (decodeAt_error_iff.mpr ⟨fails, rfl⟩)
  · intro length decoded whole more found decodedMore wholeMore
    rw [decodeAt_ok_iff] at decoded decodedMore
    have final : Final (decode bytes) := by
      rw [decoded]
      exact final_ok length
    rw [decode_append final, decoded] at decodedMore
    cases decodedMore
    rw [List.length_append] at wholeMore
    exact List.length_eq_zero_iff.mp (by omega)
  · intro length decoded k short
    obtain ⟨needed, available, truncated⟩ := decode_take_of_lt (decodeAt_ok_iff.mp decoded) short
    exact ⟨needed, available, decodeAt_error_iff.mpr ⟨truncated, rfl⟩⟩

/-- Eleven prefixes and an address relative to the instruction pointer are too long after thirteen
    bytes already, whatever follows; a comparison of five bytes is truncated after three. -/
theorem decodeAt_final_instances :
    (∀ more, decodeAt 0x1000 (List.replicate 11 0x2E ++ [0x8B, 0x05] ++ more) =
      .error { address := 0x1000, fault := .invalidEncoding tooLong }) ∧
    (∀ more found, decodeAt 0x1000 ([0x66, 0x83, 0x7D, 0xFC, 0x00] ++ more) = .ok found →
      found.total = ([0x66, 0x83, 0x7D, 0xFC, 0x00] ++ more).length → more = []) ∧
    ∃ needed available, decodeAt 0x1000 [0x66, 0x83, 0x7D] =
      .error { address := 0x1000, fault := .truncated needed available } := by
  have overlong : decodeAt 0x1000 (List.replicate 11 0x2E ++ [0x8B, 0x05]) =
      .error { address := 0x1000, fault := .invalidEncoding tooLong } := rfl
  have comparison : decodeAt 0x1000 [0x66, 0x83, 0x7D, 0xFC, 0x00] =
      .ok { prefixes := 1, opcode := 1, addressing := 2, immediate := 1 } := rfl
  refine ⟨?_, ?_, ?_⟩
  · intro more
    rw [← overlong]
    apply (decodeAt_final 0x1000 _).1
    intro error fails
    rw [overlong] at fails
    cases fails
    rfl
  · exact (decodeAt_final 0x1000 _).2.1 _ comparison rfl
  · exact (decodeAt_final 0x1000 _).2.2 _ comparison 3 (by decide)

end X86Length
