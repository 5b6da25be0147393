import X86Length.Proofs.Growth

/-! # Completing a truncated instruction

An estimate that is not met can be met: some bytes complete the instruction (`exists_completion`).
The bytes asked for suffice, except behind a second escape `38` or `3A`: there the truncation
counts the selector but not the ModR/M byte, and asks for one byte too few.  So behind twelve
prefixes, at the very edge of the limit, stands a truncation that nothing completes
(`decode_ne_ok_of_endsInSecondEscape`). -/

namespace X86Length

open Opcode

/-! ## Operands -/

theorem exists_leastAddressing_met (prefixes : Prefixes) (category : Category)
    (window : List UInt8) :
    ∃ fill, (window ++ fill).length =
        max window.length (leastAddressing prefixes category window) ∧
      leastAddressing prefixes category (window ++ fill) =
        leastAddressing prefixes category window := by
  by_cases met : leastAddressing prefixes category window ≤ window.length
  · refine ⟨[], ?_, ?_⟩
    · rw [List.append_nil, Nat.max_eq_left met]
    · rw [List.append_nil]
  · unfold leastAddressing at met ⊢
    split at met
    next takes =>
      obtain ⟨fill, filled, same⟩ :=
        (Addressing.settling_need prefixes.address16).met window (Nat.lt_of_not_le met)
      simp only [if_pos takes]
      exact ⟨fill, by omega, same⟩
    next => exact absurd (Nat.zero_le _) met

theorem exists_leastOperands_met {prefixes : Prefixes} {selection : Selection}
    {rest : List UInt8} (present : selection.extra ≤ rest.length)
    (unmet : 1 + rest.length < (leastOperands prefixes selection rest).size) :
    ∃ more, 1 + (rest ++ more).length = (leastOperands prefixes selection rest).size ∧
      leastOperands prefixes selection (rest ++ more) = leastOperands prefixes selection rest := by
  obtain ⟨fill, filled, same⟩ := exists_leastAddressing_met prefixes
    selection.encoding.category (rest.drop selection.extra)
  rw [← List.drop_append_of_le_length present] at filled same
  have presentFilled : selection.extra ≤ (rest ++ fill).length := by
    rw [List.length_append]
    omega
  have met : leastAddressing prefixes selection.encoding.category
      ((rest ++ fill).drop selection.extra) ≤ ((rest ++ fill).drop selection.extra).length := by
    rw [same, filled]
    exact Nat.le_max_right _ _
  -- With the addressing part met, any bytes will do for the immediate.
  refine ⟨fill ++ List.replicate
    ((leastOperands prefixes selection rest).size - (1 + (rest ++ fill).length)) 0, ?_, ?_⟩
  · rw [List.length_drop, List.length_drop, List.length_append] at filled
    simp only [leastOperands, Operands.size] at unmet ⊢
    simp only [List.length_append, List.length_replicate]
    omega
  · rw [← List.append_assoc]
    simp only [leastOperands, List.drop_append_of_le_length presentFilled,
      leastAddressing_append met, same]

def loneOpcode (escaped : Bool) : UInt8 :=
  if escaped then 0x05 else 0x90

theorem stopsAt_loneOpcode (escaped : Bool) : StopsAt escaped [loneOpcode escaped] := by
  apply stopsAt_cons.mpr
  rintro rfl
  decide

theorem estimateOperands_loneOpcode (prefixes : Prefixes) :
    estimateOperands prefixes [loneOpcode prefixes.escaped] =
      .ok { extra := 0, addressing := 0, immediate := 0 } := by
  obtain ⟨legacy, escaped, operand16, address16, rexW⟩ := prefixes
  cases escaped <;> rfl

/-! ## Missing selectors -/

/-- A selector that is missing can be supplied, with a ModR/M byte where it is none itself. -/
theorem exists_selector {prefixes : Prefixes} {opcode : UInt8}
    (bySelector : (Encoding.ofOpcode prefixes.escaped opcode).bySelector = true) :
    ∃ more least, estimateOperands prefixes (opcode :: more) = .ok least ∧
      least.size = 1 + more.length ∧
      (more.length = 1 ∨
        more.length = 2 ∧ prefixes.escaped = true ∧ opcode ∈ secondEscapes) := by
  obtain ⟨legacy, escaped, operand16, address16, rexW⟩ := prefixes
  obtain ⟨rfl, rfl⟩ | ⟨rfl, rfl⟩ | ⟨rfl, rfl⟩ | ⟨rfl, rfl⟩ := bySelector_cases bySelector
  · exact ⟨[0xD0], ⟨0, 1, 0⟩, by cases address16 <;> rfl, rfl, .inl rfl⟩
  · exact ⟨[0xC0], ⟨0, 1, 0⟩, by cases address16 <;> rfl, rfl, .inl rfl⟩
  · exact ⟨[0xF0, 0xC0], ⟨1, 1, 0⟩, by cases address16 <;> rfl, rfl,
      .inr ⟨rfl, rfl, by decide⟩⟩
  · exact ⟨[0x0F, 0xC0], ⟨1, 1, 0⟩, by cases address16 <;> rfl, rfl,
      .inr ⟨rfl, rfl, by decide⟩⟩

/-- An unmet estimate can be met by the bytes it asks for, or by one byte more behind a second
    escape. -/
theorem exists_operands_met {prefixes : Prefixes} {opcode : UInt8} {rest : List UInt8}
    {least : Operands} (estimated : estimateOperands prefixes (opcode :: rest) = .ok least)
    (unmet : (opcode :: rest).length < least.size) :
    ∃ more found, estimateOperands prefixes (opcode :: rest ++ more) = .ok found ∧
      found.size = (opcode :: rest ++ more).length ∧
      (found.size = least.size ∨
        found.size = 3 ∧ rest = [] ∧ prefixes.escaped = true ∧ opcode ∈ secondEscapes) := by
  by_cases settles : Settles prefixes.escaped opcode rest
  · rw [estimateOperands_of_settles settles] at estimated
    cases settled : settle prefixes.escaped opcode rest with
    | error fault =>
      rw [settled] at estimated
      cases estimated
    | ok selection =>
      rw [settled] at estimated
      obtain ⟨valid, noPrefix, rfl⟩ := estimateSettled_ok_iff.mp estimated
      rw [List.length_cons, Nat.add_comm] at unmet
      obtain ⟨more, met, same⟩ := exists_leastOperands_met (extra_le_of_settle settled) unmet
      refine ⟨more, leastOperands prefixes selection rest, ?_, ?_, .inl rfl⟩
      · have kept := (settle_append settles more).trans settled
        rw [List.cons_append, estimateOperands_of_settle kept]
        exact estimateSettled_ok_iff.mpr ⟨valid, noPrefix, same⟩
      · rw [← met, List.cons_append, List.length_cons, Nat.add_comm]
  · obtain ⟨bySelector, rfl⟩ := missing_of_not_settles settles
    rw [estimateOperands_of_missing bySelector] at estimated
    cases estimated
    obtain ⟨more, found, next, size, short | ⟨long, second⟩⟩ := exists_selector bySelector
    · refine ⟨more, found, next, ?_, .inl ?_⟩
      · simp only [List.cons_append, List.nil_append, List.length_cons]
        omega
      · rw [size, short]
        rfl
    · refine ⟨more, found, next, ?_, .inr ⟨?_, rfl, second⟩⟩
      · simp only [List.cons_append, List.nil_append, List.length_cons]
        omega
      · rw [size, long]

/-! ## Whole instructions -/

/-- Prefixes, the escape and a second escape, and nothing behind these. -/
def EndsInSecondEscape (prefixCount : Nat) (bytes : List UInt8) : Prop :=
  ∃ run opcode, IsRun run ∧ run.length = prefixCount ∧ opcode ∈ secondEscapes ∧
    bytes = run ++ [Prefixes.escapeByte, opcode]

/-- Every estimate that is not met can be met, by the bytes it asks for or, behind a second escape,
    by one more. -/
theorem exists_completion {bytes : List UInt8} {least : InstructionLength}
    (estimated : estimate bytes = .ok least) (unmet : bytes.length < least.total) :
    ∃ more found, estimate (bytes ++ more) = .ok found ∧
      found.total = (bytes ++ more).length ∧
      (found.total = least.total ∨
        found.total = bytes.length + 2 ∧ ∃ n, EndsInSecondEscape n bytes) := by
  obtain ⟨run, escaped, rest, isRun, stops, rfl⟩ := exists_lead bytes
  rw [estimate_lead isRun stops] at estimated
  obtain ⟨operands, leastOperands, same⟩ := Prefixes.complete_ok estimated
  have total := operands.total_behind (Prefixes.ofRun run escaped)
  rw [same] at total
  simp only [List.length_append, length_escapeBytes, Prefixes.count_ofRun] at unmet total
  -- It is enough to complete the rest behind the prefixes, where the phase still stops.
  have lift {more : List UInt8} {found : Operands} (stops : StopsAt escaped (rest ++ more))
      (next : estimateOperands (Prefixes.ofRun run escaped) (rest ++ more) = .ok found)
      (met : found.size = (rest ++ more).length) :
      ∃ length, estimate (run ++ escapeBytes escaped ++ rest ++ more) = .ok length ∧
        length.total = (run ++ escapeBytes escaped ++ rest ++ more).length ∧
        length.total = run.length + escaped.toNat + found.size := by
    refine ⟨found.behind (Prefixes.ofRun run escaped), ?_, ?_, ?_⟩
    · rw [List.append_assoc, estimate_lead isRun stops, next]
      rfl
    · rw [Operands.total_behind, met]
      simp [Nat.add_assoc]
    · rw [Operands.total_behind, Prefixes.count_ofRun]
  cases rest with
  | nil =>
    have lone := estimateOperands_loneOpcode (Prefixes.ofRun run escaped)
    rw [Prefixes.escaped_ofRun] at lone
    obtain ⟨length, next, met, size⟩ := lift (stopsAt_loneOpcode escaped) lone rfl
    cases leastOperands
    exact ⟨_, length, next, met, .inl (size.trans total.symm)⟩
  | cons opcode rest =>
    obtain ⟨more, found, next, met, exactly⟩ := exists_operands_met leastOperands (by omega)
    obtain ⟨length, next, metWhole, size⟩ :=
      lift (stops.append (.inr (List.cons_ne_nil _ _)) more) next met
    refine ⟨more, length, next, metWhole, ?_⟩
    rcases exactly with same | ⟨three, rfl, isEscaped, second⟩
    · left
      omega
    · right
      rw [Prefixes.escaped_ofRun] at isEscaped
      subst isEscaped
      refine ⟨?_, run.length, run, opcode, isRun, rfl, second, ?_⟩
      · rw [size, three]
        simp [escapeBytes]
      · simp [escapeBytes]

/-! ## Verdicts -/

theorem extra_of_secondEscape {opcode : UInt8} {rest : List UInt8} {selection : Selection}
    (second : opcode ∈ secondEscapes) (selected : select true opcode rest = .ok selection) :
    selection.extra = 1 := by
  obtain rfl | rfl : opcode = 0x38 ∨ opcode = 0x3A := by simpa [secondEscapes] using second
  all_goals
    cases rest with
    | nil => cases selected
    | cons selector rest =>
      simp only [select, selectEscaped] at selected
      grind

theorem three_le_size_of_secondEscape {prefixes : Prefixes} {opcode selector : UInt8}
    {rest : List UInt8} {least : Operands} (isEscaped : prefixes.escaped = true)
    (second : opcode ∈ secondEscapes)
    (estimated : estimateOperands prefixes (opcode :: selector :: rest) = .ok least) :
    3 ≤ least.size := by
  have settles : Settles prefixes.escaped opcode (selector :: rest) :=
    fun _ => List.cons_ne_nil _ _
  rw [estimateOperands_of_settles settles, isEscaped,
    settle_by_selector (bySelector_of_secondEscape second)] at estimated
  cases selected : select true opcode (selector :: rest) with
  | error fault =>
    rw [selected] at estimated
    cases estimated
  | ok selection =>
    simp only [selected] at estimated
    have := extra_lt_size_of_estimateSettled (takesModRM_of_select selected) estimated
    rwa [extra_of_secondEscape second selected] at this

/-- Behind twelve prefixes and a second escape there is no room left for both. -/
theorem decode_ne_ok_of_endsInSecondEscape {bytes : List UInt8}
    (ends : EndsInSecondEscape 12 bytes) (more : List UInt8)
    (length : InstructionLength) : decode (bytes ++ more) ≠ .ok length := by
  obtain ⟨run, opcode, isRun, runLength, second, rfl⟩ := ends
  intro decoded
  have room : (run ++ [Prefixes.escapeByte, opcode]).length ≤ lengthLimit := by
    simp [runLength, lengthLimit]
  rw [decode_append_of_room room, verdict_ok_iff] at decoded
  obtain ⟨estimated, met⟩ := decoded
  generalize hwindow : more.take _ = window at estimated met
  have inLimit : window.length ≤ 1 := by
    rw [← hwindow, List.length_take]
    simp only [List.length_append, List.length_cons, List.length_nil, runLength, lengthLimit]
    omega
  have lead := estimate_lead isRun (stopsAt_escape (opcode :: window))
  simp only [escapeBytes, if_true, List.append_assoc, List.cons_append, List.nil_append]
    at lead estimated
  rw [lead] at estimated
  obtain ⟨operands, least, rfl⟩ := Prefixes.complete_ok estimated
  have total := operands.total_behind (Prefixes.ofRun run true)
  simp only [List.length_append, List.length_cons, List.length_nil, runLength,
    Prefixes.count_ofRun] at met total
  cases window with
  | nil =>
    rw [estimateOperands_of_missing
      (by rw [Prefixes.escaped_ofRun]; exact bySelector_of_secondEscape second)] at least
    cases least
    simp only [Operands.size, Bool.toNat_true, List.length_nil] at total met
    omega
  | cons selector window =>
    have := three_le_size_of_secondEscape (Prefixes.escaped_ofRun run true) second least
    simp only [Bool.toNat_true, List.length_cons] at total met inLimit
    omega

/-- A truncation means that more bytes could help, with one exception: twelve prefixes, the escape
    and a second escape are reported as truncated although nothing completes them within the
    limit. -/
theorem completable_iff_of_truncated {address : UInt64} {bytes : List UInt8} {error : DecodeError}
    (fails : decodeAt address bytes = .error error) (truncated : error.isTruncated = true) :
    (∃ more length, decodeAt address (bytes ++ more) = .ok length) ↔
      ¬ EndsInSecondEscape 12 bytes := by
  obtain ⟨verdict, -⟩ := decodeAt_error_iff.mp fails
  obtain ⟨needed, available, isTruncation⟩ :
      ∃ needed available, error.fault = .truncated needed available := by
    unfold DecodeError.isTruncated Fault.isTruncated at truncated
    split at truncated
    next needed available same => exact ⟨needed, available, same⟩
    next => cases truncated
  rw [isTruncation] at verdict
  obtain ⟨least, estimated, total, -, unmet, inLimit⟩ := decode_truncated_iff.mp verdict
  constructor
  · rintro ⟨more, length, decoded⟩ ends
    exact decode_ne_ok_of_endsInSecondEscape ends more length (decodeAt_ok_iff.mp decoded)
  · intro open_
    obtain ⟨more, found, next, met, exactly⟩ := exists_completion estimated (by omega)
    refine ⟨more, found, decodeAt_ok_iff.mpr ?_⟩
    -- One byte more than asked for is too many only behind twelve prefixes.
    have inWindow : (bytes ++ more).length ≤ lengthLimit := by
      rcases exactly with same | ⟨overrun, n, run, opcode, isRun, rfl, second, rfl⟩
      · omega
      · have notTwelve : run.length ≠ 12 := by
          intro twelve
          exact open_ ⟨run, opcode, isRun, twelve, second, rfl⟩
        simp only [lengthLimit, List.length_append, List.length_cons, List.length_nil] at *
        omega
    rw [decode_of_length_le inWindow, verdict_ok_iff]
    exact ⟨next, Nat.le_of_eq met⟩

/-- Eleven prefixes leave room for what a second escape needs. -/
theorem eleven_prefixes_completable :
    decodeAt 0 (List.replicate 11 0x2E ++ [0x0F, 0x38]) =
        .error { address := 0, fault := .truncated 14 13 } ∧
      ∃ more length,
        decodeAt 0 (List.replicate 11 0x2E ++ [0x0F, 0x38] ++ more) = .ok length := by
  have truncated : decodeAt 0 (List.replicate 11 0x2E ++ [0x0F, 0x38]) =
      .error { address := 0, fault := .truncated 14 13 } := rfl
  refine ⟨truncated, (completable_iff_of_truncated truncated rfl).mpr ?_⟩
  rintro ⟨run, opcode, -, twelve, -, same⟩
  have := congrArg List.length same
  simp [twelve] at this

theorem twelve_prefixes_not_completable :
    decodeAt 0 (List.replicate 12 0x2E ++ [0x0F, 0x38]) =
        .error { address := 0, fault := .truncated 15 14 } ∧
      ¬ ∃ more length,
        decodeAt 0 (List.replicate 12 0x2E ++ [0x0F, 0x38] ++ more) = .ok length := by
  refine ⟨rfl, ?_⟩
  rintro ⟨more, length, decoded⟩
  have ends : EndsInSecondEscape 12 (List.replicate 12 0x2E ++ [0x0F, 0x38]) := by
    refine ⟨List.replicate 12 0x2E, 0x38, ?_, rfl, by decide, rfl⟩
    intro byte member
    rw [List.eq_of_mem_replicate member]
    decide
  exact decode_ne_ok_of_endsInSecondEscape ends more length (decodeAt_ok_iff.mp decoded)

end X86Length
