import X86Length.Proofs.Covering
import X86Length.Proofs.Numerals

/-! # What the warning about a file counts

Rows that do not decode are counted among the rows that are listed.  The number of bytes that the
warning sets against them is that of the part of the file that was swept, which is cut for the
number of instructions asked for as if each of them were as long as can be (`length_extract`).  The
listed rows may account for fewer bytes than that.  They account for all of them, and the warning
describes the listing, if and only if the number asked for leaves out no row of the part
(`warning_describes_iff`). -/

namespace X86Length

/-! ## Sizes of rows -/

theorem sum_take_add_sum_drop (sizes : List Nat) (n : Nat) :
    (sizes.take n).sum + (sizes.drop n).sum = sizes.sum := by
  rw [← List.sum_append, List.take_append_drop]

/-- Positive sizes add up to the whole in front of a place only if nothing is left behind it. -/
theorem sum_take_eq_iff {sizes : List Nat} (positive : ∀ size ∈ sizes, 0 < size) (n : Nat) :
    (sizes.take n).sum = sizes.sum ↔ sizes.length ≤ n := by
  have parts := sum_take_add_sum_drop sizes n
  rw [← List.drop_eq_nil_iff]
  cases behind : sizes.drop n with
  | nil =>
    rw [behind, List.sum_nil] at parts
    simpa using parts
  | cons size rest =>
    have := positive size (List.mem_of_mem_drop (behind ▸ List.mem_cons_self))
    rw [behind, List.sum_cons] at parts
    simp only [reduceCtorEq, iff_false]
    omega

theorem size_pos_of_mem_sweepSteps {offset : Nat} {bytes : List UInt8} :
    ∀ step ∈ sweepSteps offset bytes, 0 < step.size := by
  induction bytes using sweep_induction generalizing offset with
  | nil => simp
  | step bytes nonempty ih =>
    rw [sweepSteps_eq nonempty, List.forall_mem_cons, size_stepAt]
    exact ⟨leap_pos bytes, ih⟩

theorem sizes_listing (base : UInt64) (limit : Nat) (code : List UInt8) :
    (listing base limit code).map Row.size =
      ((sweepSteps 0 code).map SweepStep.size).take limit := by
  rw [listing, List.map_map, List.map_take]
  congr 2
  funext step
  exact size_ofStep base step

/-- The rows of a listing account for all bytes if and only if none is left out. -/
theorem sum_size_listing_eq_iff (base : UInt64) (limit : Nat) (code : List UInt8) :
    ((listing base limit code).map Row.size).sum = code.length ↔
      (sweep base code).length ≤ limit := by
  have positive : ∀ size ∈ (sweepSteps 0 code).map SweepStep.size, 0 < size := by
    rw [List.forall_mem_map]
    exact size_pos_of_mem_sweepSteps
  have complete := sum_take_eq_iff positive limit
  rw [sum_size_sweepSteps] at complete
  rw [sizes_listing, complete, List.length_map, sweep, List.length_map]

/-- A row that does not decode accounts for one byte. -/
theorem countP_isBad_add (rows : List Row) :
    rows.countP (·.isBad) + ((rows.filter (!·.isBad)).map Row.size).sum =
      (rows.map Row.size).sum := by
  induction rows with
  | nil => rfl
  | cons row rows ih =>
    have single (bad : row.isBad = true) : row.size = 1 := by
      unfold Row.isBad at bad
      unfold Row.size
      cases found : row.found with
      | ok length => simp [found] at bad
      | error error => rfl
    rw [List.map_cons, List.sum_cons, ← ih]
    by_cases bad : row.isBad = true
    · simp [bad, single bad]
      omega
    · simp [bad]
      omega

end X86Length

namespace X86Length.CommandLine

/-! ## The warning -/

/-- The text of the warning about a file. -/
def warningText (bad total : Nat) : String :=
  Text.decimal bad ++ " of " ++ Text.decimal total ++ " bytes did not decode"

theorem total_of_warningText {bad total other : Nat}
    (same : warningText bad total = warningText bad other) : total = other := by
  rw [warningText, warningText, String.append_left_inj, String.append_right_inj, Text.decimal,
    Text.decimal, String.ofList_inj] at same
  exact Text.toDigits_inj (by decide) (by decide) same

/-- The warning about a file. -/
def warning (bad total : Nat) : Log.Record where
  level := .warn
  target := Verb.file.target
  text := warningText bad total

/-- The numbers of a record are those of some rows: how many do not decode, and how many bytes all
    rows account for. -/
def Describes (record : Log.Record) (rows : List Row) : Prop :=
  record.text = warningText (rows.countP (·.isBad)) (rows.map Row.size).sum

/-- The warnings among the records of a report. -/
def Report.warnings (report : Report) : List Log.Record :=
  report.records.filter (·.level = .warn)

theorem badRecords_eq (rows : List Row) (size : Nat) :
    badRecords rows size =
      if rows.countP (·.isBad) = 0 then [] else [warning (rows.countP (·.isBad)) size] := rfl

theorem warnings_badRecords (rows : List Row) (size : Nat) :
    (badRecords rows size).filter (·.level = .warn) = badRecords rows size := by
  rw [badRecords_eq]
  split <;> rfl

theorem warnings_sweepRecords (base : UInt64) (code : List UInt8) :
    (sweepRecords base code).filter (·.level = .warn) = [] := by
  rw [List.filter_eq_nil_iff]
  intro record recorded
  obtain ⟨result, -, isRecord⟩ := List.mem_flatMap.mp recorded
  cases result with
  | ok boundary => cases isRecord
  | error error =>
    simp only [List.mem_cons, List.not_mem_nil, or_false] at isRecord
    obtain rfl | rfl := isRecord
    · simp [faultRecord]
    · simp [resyncRecord]

section File

variable {data : List UInt8} {offset count : Nat}

/-- The part that is swept ends where the file does, or behind as many full windows as rows are
    asked for. -/
theorem length_extract (small : data.length < wordLimit) (inside : offset ≤ data.length)
    (count : Nat) :
    (extract data offset count).length = min (data.length - offset) (count * lengthLimit) ∧
      extractEnd data.length offset count - offset = (extract data offset count).length := by
  rw [extract, List.length_take, List.length_drop]
  simp only [extractEnd, saturate]
  omega

theorem warnings_reportFile (small : data.length < wordLimit) (inside : offset ≤ data.length)
    (counted : 1 ≤ count) (json : Bool) (path : String) :
    (reportFile json path offset count (.ok data)).warnings =
      badRecords (fileRows data offset count) (extract data offset count).length := by
  rw [← (length_extract small inside count).2]
  simp only [reportFile, Report.warnings]
  rw [if_neg (by omega), if_neg (by omega)]
  simp [warnings_sweepRecords, warnings_badRecords]

/-- A file is warned about if a listed row does not decode.  The warning counts these rows, against
    the bytes of the part that is swept for the number of rows asked for.  It describes the listing
    if and only if the part has no more rows than that; of the bytes that the listed rows account
    for, those that are not counted belong to rows that decode. -/
theorem warning_describes_iff (small : data.length < wordLimit) (inside : offset ≤ data.length)
    (counted : 1 ≤ count) (json : Bool) (path : String) :
    (reportFile json path offset count (.ok data)).warnings =
      (if (fileRows data offset count).countP (·.isBad) = 0 then []
      else [warning ((fileRows data offset count).countP (·.isBad))
        (min (data.length - offset) (count * lengthLimit))]) ∧
    (∀ record ∈ (reportFile json path offset count (.ok data)).warnings,
      Describes record (fileRows data offset count) ↔
        (sweep (UInt64.ofNat offset) (extract data offset count)).length ≤ count) ∧
    (fileRows data offset count).countP (·.isBad) +
        (((fileRows data offset count).filter (!·.isBad)).map Row.size).sum =
      ((fileRows data offset count).map Row.size).sum := by
  rw [warnings_reportFile small inside counted, badRecords_eq]
  refine ⟨?_, ?_, countP_isBad_add _⟩
  · rw [(length_extract small inside count).1]
  · intro record warned
    rw [← sum_size_listing_eq_iff, ← fileRows]
    split at warned
    next => cases warned
    next =>
      rw [List.mem_singleton.mp warned]
      constructor
      · intro describes
        exact (total_of_warningText describes).symm
      · intro same
        rw [Describes, same]
        rfl

theorem fileRows_of_error {byte : UInt8} {rest : List UInt8} {fault : Fault}
    (stuck : decode (byte :: rest) = .error fault) {count : Nat}
    (part : extract data offset (count + 1) = byte :: rest) :
    fileRows data offset (count + 1) =
      Row.ofStep (UInt64.ofNat offset) ⟨0, [byte], .error fault⟩ ::
        ((sweepSteps 1 rest).take count).map (Row.ofStep (UInt64.ofNat offset)) := by
  rw [fileRows, listing, part, sweepSteps_of_error stuck]
  rfl

end File

/-- The rest of a file of which both rows are listed: one does not decode, and the warning counts it
    against both bytes. -/
theorem warning_describes_whole_part :
    warning 1 2 ∈ (reportFile false "a.bin" 1 2 (.ok [0xC3, 0x06, 0x90])).warnings ∧
      Describes (warning 1 2) (fileRows [0xC3, 0x06, 0x90] 1 2) := by
  obtain ⟨warned, describes, -⟩ :=
    @warning_describes_iff [0xC3, 0x06, 0x90] 1 2 (by decide) (by decide) (by decide) false "a.bin"
  have stuck : decode [0x06, 0x90] = .error (.invalidOpcode 0x06 false) := by rfl
  have bad : (fileRows [0xC3, 0x06, 0x90] 1 2).countP (·.isBad) = 1 := by
    have found : decode [0x90] = .ok ⟨0, 1, 0, 0⟩ := by rfl
    rw [fileRows_of_error stuck (by decide), sweepSteps_of_ok found]
    rfl
  have isWarning :
      warning 1 2 ∈ (reportFile false "a.bin" 1 2 (.ok [0xC3, 0x06, 0x90])).warnings := by
    rw [warned, bad]
    exact List.mem_cons_self
  have all : (sweep (UInt64.ofNat 1) (extract [0xC3, 0x06, 0x90] 1 2)).length ≤ 2 := by
    rw [sweep, List.length_map]
    exact length_sweepSteps_le 0 _
  exact ⟨isWarning, (describes _ isWarning).mpr all⟩

/-- Where the number asked for leaves out rows, the warning counts against bytes that no row
    accounts for.  Here neither byte decodes, and one is listed. -/
theorem warning_beyond_listing :
    (reportFile false "a.bin" 0 1 (.ok [0x06, 0x06])).warnings.map Log.Record.text =
        ["1 of 2 bytes did not decode"] ∧
      (fileRows [0x06, 0x06] 0 1).countP (·.isBad) = 1 ∧
      ((fileRows [0x06, 0x06] 0 1).map Row.size).sum = 1 ∧
      ¬ ∀ record ∈ (reportFile false "a.bin" 0 1 (.ok [0x06, 0x06])).warnings,
        Describes record (fileRows [0x06, 0x06] 0 1) := by
  have stuck : decode [0x06, 0x06] = .error (.invalidOpcode 0x06 false) := by rfl
  have rows : fileRows [0x06, 0x06] 0 1 =
      [{ address := 0, offset := 0, bytes := [0x06],
         found := .error { address := 0, fault := .invalidOpcode 0x06 false } }] := by
    rw [fileRows_of_error stuck (by decide)]
    rfl
  have warned : (reportFile false "a.bin" 0 1 (.ok [0x06, 0x06])).warnings = [warning 1 2] := by
    rw [warnings_reportFile (by decide) (by decide) (by decide), rows]
    rfl
  rw [warned, rows]
  refine ⟨by decide, by decide, by decide, ?_⟩
  intro describes
  exact absurd (total_of_warningText (describes _ List.mem_cons_self)) (by decide)

end X86Length.CommandLine
