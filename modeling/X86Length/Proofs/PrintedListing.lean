import X86Length.Proofs.GuardedListing
import X86Length.Proofs.HexGrammar
import X86Length.Proofs.JsonText

/-! # Printed listings

A row tells the address and the bytes of a step, in a line of words (`Row.told_of_line`) and in JSON
(`Row.told_of_toJson`).  A listing is printed so that its rows can be told apart, and the bytes of
the rows make up the code.  So a printed listing determines the code and the address at which it
stands (`printedRows_determines`).

An instruction has fifteen bytes at most, which take just the width of their column. -/

namespace X86Length

open Text HexBytes

/-! ## The words of a line -/

namespace HexBytes

theorem not_mem_separators_of_mem_hexPair {byte : UInt8} : ∀ c ∈ hexPair byte, c ∉ separators :=
  fun c isDigit => isSeparator_eq_false_iff.mp (isSeparator_of_mem_hexPair c isDigit)

theorem Divides.blanks {text : List Char} {tokens : List (List Char)}
    (divides : Divides text tokens) (n : Nat) : Divides (List.replicate n ' ' ++ text) tokens := by
  induction n with
  | zero => exact divides
  | succ n ih =>
    rw [List.replicate_succ]
    exact .separator (by decide) ih

/-- Bytes with blanks between them are divided into their pairs of digits. -/
theorem Divides.spacedHex {text : List Char} {tokens : List (List Char)}
    (divides : Divides text tokens) (ends : ∀ c ∈ text.head?, c ∈ separators)
    (bytes : List UInt8) :
    Divides ((spacedHex bytes).toList ++ text) (bytes.map hexPair ++ tokens) := by
  rw [Text.spacedHex, String.toList_ofList]
  induction bytes with
  | nil => exact divides
  | cons byte bytes ih =>
    cases bytes with
    | nil =>
      rw [List.map_singleton, List.intercalate_singleton]
      exact .token (List.cons_ne_nil _ _) not_mem_separators_of_mem_hexPair ends divides
    | cons next bytes =>
      rw [List.map_cons, List.map_cons, List.intercalate_cons_cons, List.append_assoc,
        List.append_assoc]
      refine .token (List.cons_ne_nil _ _) not_mem_separators_of_mem_hexPair ?_
        (.separator (by decide) ih)
      rintro _ ⟨⟩
      decide

end HexBytes

namespace Text

theorem not_mem_separators_of_mem_toDigits {radix : Nat} (several : 1 < radix)
    (known : radix ≤ 16) (n : Nat) : ∀ c ∈ Nat.toDigits radix n, c ∉ separators := by
  intro c isDigit
  obtain ⟨digit, below, rfl⟩ := mem_toDigits several n c isDigit
  exact isSeparator_eq_false_iff.mp
    (isSeparator_digitChar digit (Nat.lt_of_lt_of_le below known))

theorem toList_hexadecimal (n : Nat) :
    (hexadecimal n).toList = '0' :: 'x' :: Nat.toDigits 16 n := by
  simp [hexadecimal]

theorem not_mem_separators_of_mem_hexadecimal (n : Nat) :
    ∀ c ∈ (hexadecimal n).toList, c ∉ separators := by
  rw [toList_hexadecimal, List.forall_mem_cons, List.forall_mem_cons]
  exact ⟨by decide, by decide, not_mem_separators_of_mem_toDigits (by decide) (by decide) n⟩

theorem hexadecimal_inj {m n : Nat} (same : (hexadecimal m).toList = (hexadecimal n).toList) :
    m = n := by
  rw [toList_hexadecimal, toList_hexadecimal, List.cons.injEq, List.cons.injEq] at same
  exact toDigits_inj (by decide) (by decide) same.2.2

theorem mem_spacedHex {bytes : List UInt8} :
    ∀ c ∈ (spacedHex bytes).toList, c = ' ' ∨ c ∉ separators := by
  rw [spacedHex, String.toList_ofList]
  induction bytes with
  | nil => simp
  | cons byte bytes ih =>
    have pair : ∀ c ∈ hexPair byte, c = ' ' ∨ c ∉ separators :=
      fun c isDigit => .inr (not_mem_separators_of_mem_hexPair c isDigit)
    cases bytes with
    | nil => rwa [List.map_singleton, List.intercalate_singleton]
    | cons next bytes =>
      rw [List.map_cons, List.map_cons, List.intercalate_cons_cons, List.forall_mem_append,
        List.forall_mem_append]
      exact ⟨⟨pair, by simp⟩, ih⟩

/-- Two digits for each byte, and a blank between each two bytes. -/
theorem length_spacedHex (bytes : List UInt8) :
    (spacedHex bytes).length = 3 * bytes.length - 1 := by
  rw [spacedHex, String.length_ofList]
  induction bytes with
  | nil => rfl
  | cons byte bytes ih =>
    cases bytes with
    | nil => rfl
    | cons next bytes =>
      rw [List.map_cons, List.map_cons, List.intercalate_cons_cons, List.length_append,
        List.length_append, ← List.map_cons, ih]
      simp only [hexPair, List.length_cons, List.length_nil]
      omega

theorem hexPairs_inj {bytes other : List UInt8} (same : bytes.map hexPair = other.map hexPair) :
    bytes = other := by
  have read := ofTokens_hexPair bytes
  rw [same, ofTokens_hexPair] at read
  exact (Except.ok.inj read).symm

theorem spacedHex_inj {bytes other : List UInt8} (same : spacedHex bytes = spacedHex other) :
    bytes = other := by
  apply hexPairs_inj
  rw [← tokens_spacedHex_singleton, same, tokens_spacedHex_singleton]

end Text

namespace Row

/-- What stands behind the bytes of a row: the size, or a note that nothing decoded. -/
def note (row : Row) : List Char :=
  match row.found with
  | .ok length => Nat.toDigits 10 length.total
  | .error _ => "(bad)".toList

theorem note_ne_nil (row : Row) : row.note ≠ [] := by
  unfold note
  split
  · exact Nat.toDigits_ne_nil
  · decide

theorem not_mem_separators_of_mem_note (row : Row) : ∀ c ∈ row.note, c ∉ separators := by
  unfold note
  split
  · exact not_mem_separators_of_mem_toDigits (by decide) (by decide) _
  · have solid : "(bad)".toList.all (!isSeparator ·) = true := by decide
    simpa only [List.all_eq_true, Bool.not_eq_true', isSeparator_eq_false_iff] using solid

/-- The words of a row, the address first and then two digits for each byte. -/
def words (row : Row) : List (List Char) :=
  (hexadecimal row.address.toNat).toList :: (row.bytes.map hexPair ++ [row.note])

/-- The columns of a line: blanks and the address, the bytes and blanks, and blanks and the note. -/
theorem exists_toList_line (row : Row) : ∃ front inside : Nat,
    row.line.toList =
      List.replicate front ' ' ++ ((hexadecimal row.address.toNat).toList ++ (' ' :: ' ' ::
        ((spacedHex row.bytes).toList ++ (List.replicate (44 - (spacedHex row.bytes).length) ' ' ++
          (' ' :: ' ' :: (List.replicate inside ' ' ++ row.note)))))) := by
  refine ⟨10 - (hexadecimal row.address.toNat).length,
    match row.found with
    | .ok length => 2 - (decimal length.total).length
    | .error _ => 0, ?_⟩
  unfold line note
  cases row.found <;> simp [alignRight, alignLeft, decimal]

theorem divides_line (row : Row) : Divides row.line.toList row.words := by
  -- The line is put together from its end: the note, the bytes, the address.
  obtain ⟨front, inside, columns⟩ := row.exists_toList_line
  have blank : ' ' ∈ separators := by decide
  have ends (n : Nat) (text : List Char) :
      ∀ c ∈ (List.replicate n ' ' ++ ' ' :: text).head?, c ∈ separators := by
    cases n <;> rintro _ ⟨⟩ <;> exact blank
  have last : Divides (row.note ++ []) [row.note] :=
    .token row.note_ne_nil row.not_mem_separators_of_mem_note (by simp) .nil
  rw [List.append_nil] at last
  have behind := Divides.separator blank (.separator blank (last.blanks inside))
  have bytes := (behind.blanks (44 - (spacedHex row.bytes).length)).spacedHex (ends _ _) row.bytes
  have nonempty : (hexadecimal row.address.toNat).toList ≠ [] := by
    rw [toList_hexadecimal]
    exact List.cons_ne_nil _ _
  have address := Divides.token nonempty (not_mem_separators_of_mem_hexadecimal _) (ends 0 _)
    (.separator blank (.separator blank bytes))
  rw [columns]
  exact address.blanks front

theorem newline_not_mem_line (row : Row) : '\n' ∉ row.line.toList := by
  obtain ⟨front, inside, columns⟩ := row.exists_toList_line
  have outside {word : List Char} (solid : ∀ c ∈ word, c ∉ separators) : '\n' ∉ word := by
    intro inWord
    exact absurd (solid _ inWord) (by decide)
  have bytes : '\n' ∉ (spacedHex row.bytes).toList := by
    intro inBytes
    exact absurd (mem_spacedHex _ inBytes) (by decide)
  rw [columns]
  simp [outside (not_mem_separators_of_mem_hexadecimal _), bytes,
    outside row.not_mem_separators_of_mem_note, List.mem_replicate]

/-! ## What a row tells -/

/-- The address and the bytes of a row. -/
def told (row : Row) : UInt64 × List UInt8 :=
  (row.address, row.bytes)

theorem told_of_line {row other : Row} (same : row.line.toList = other.line.toList) :
    row.told = other.told := by
  have words : row.words = other.words := by
    rw [← eq_of_divides row.divides_line, same, eq_of_divides other.divides_line]
  rw [Row.words, Row.words, List.cons.injEq] at words
  obtain ⟨address, others⟩ := words
  have bytes := hexPairs_inj (List.append_inj' others rfl).1
  have place := hexadecimal_inj address
  rw [told, told, UInt64.toNat_inj.mp place, bytes]

theorem told_of_toJson {row other : Row} (same : row.toJson = other.toJson) :
    row.told = other.told := by
  simp only [toJson, Json.Value.record, Json.Value.ofNat, Json.Value.ofString, List.map_append,
    List.map_cons, List.cons_append, Json.Value.object.injEq, List.cons.injEq, Prod.mk.injEq,
    Json.Value.number.injEq, Json.Value.string.injEq, true_and] at same
  obtain ⟨address, -, bytes, -⟩ := same
  have place := toDigits_inj (by decide) (by decide) address
  have written := spacedHex_inj (String.toList_inj.mp (Json.escaped_inj bytes))
  rw [told, told, UInt64.toNat_inj.mp place, written]

theorem valid_toJson (row : Row) : row.toJson.Valid := by
  apply Json.Value.valid_record
  rw [List.forall_mem_append]
  constructor
  · simp [Json.Value.valid_ofNat, Json.Value.valid_ofString]
  · cases row.found with
    | ok length => simp [InstructionLength.valid_toJson]
    | error error => simp [Json.Value.valid_ofString]

end Row

/-! ## What a listing tells -/

theorem toList_printedRows (rows : List Row) :
    (printedRows false rows).toList = rows.flatMap fun row => row.line.toList ++ ['\n'] := by
  simp [printedRows, String.toList_join, List.flatMap_map]

/-- Lines that each end with a new line are told apart. -/
theorem lines_printedRows (rows : List Row) :
    (printedRows false rows).toList.splitOn '\n' = rows.map (·.line.toList) ++ [[]] := by
  rw [toList_printedRows]
  induction rows with
  | nil => rfl
  | cons row rows ih =>
    rw [List.flatMap_cons, List.append_assoc, List.singleton_append,
      List.splitOn_append_cons_self_of_not_mem row.newline_not_mem_line, ih]
    rfl

theorem map_eq_map_of_factorsThrough {α β γ : Type} [Nonempty γ] {f : α → β} {g : α → γ}
    (factors : g.FactorsThrough f) {list other : List α} (same : list.map f = other.map f) :
    list.map g = other.map g := by
  obtain ⟨rest, rfl⟩ := (Function.factorsThrough_iff g).mp factors
  rw [← List.map_map, same, List.map_map]

/-- Equal JSON listings read as equal values. -/
theorem toJson_of_printedRows {rows others : List Row}
    (same : printedRows true rows = printedRows true others) :
    rows.map Row.toJson = others.map Row.toJson := by
  have valid (rows : List Row) : (Json.Value.array (rows.map (·.toJson))).Valid := by
    apply Json.Value.valid_array
    rintro _ isRow
    obtain ⟨row, -, rfl⟩ := List.mem_map.mp isRow
    exact row.valid_toJson
  have texts : Json.pretty (.array (rows.map (·.toJson))) =
      Json.pretty (.array (others.map (·.toJson))) := by
    simpa [printedRows, String.append_left_inj] using same
  have values := Json.pretty_inj (valid rows) (valid others) texts
  rwa [Json.Value.array.injEq] at values

theorem told_of_printedRows {json : Bool} {rows others : List Row}
    (same : printedRows json rows = printedRows json others) :
    rows.map Row.told = others.map Row.told := by
  cases json with
  | false =>
    -- Equal texts have equal lines, and a line tells its words.
    have lines := lines_printedRows rows
    rw [same, lines_printedRows] at lines
    exact map_eq_map_of_factorsThrough (fun _ _ => Row.told_of_line)
      (List.append_cancel_right lines).symm
  | true =>
    exact map_eq_map_of_factorsThrough (fun _ _ => Row.told_of_toJson) (toJson_of_printedRows same)

section Listing

variable {limit : Nat} {code : List UInt8} (room : code.length ≤ limit) (base : UInt64)
include room

theorem flatten_bytes_listing : ((listing base limit code).map Row.bytes).flatten = code := by
  rw [listing_of_length_le room, List.map_map]
  exact Guarded.flatten_bytes_sweepSteps 0 code

theorem head?_address_listing (nonempty : code ≠ []) :
    ((listing base limit code).map Row.address).head? = some base := by
  rw [listing_of_length_le room, sweepSteps_eq nonempty]
  simp [Row.ofStep, SweepStep.address, stepAt]

end Listing

theorem length_bytes_le_of_mem_listing {base : UInt64} {limit : Nat} {code : List UInt8} :
    ∀ row ∈ listing base limit code, row.bytes.length ≤ lengthLimit := by
  intro row listed
  obtain ⟨step, taken, rfl⟩ := List.mem_map.mp listed
  rw [Guarded.eq_stepAt_of_mem (List.mem_of_mem_take taken)]
  exact Nat.le_trans (List.length_take_le _ _) (leap_le_limit _)

/-- A printed listing with room for all rows determines the code and the address at which it stands,
    as text and as JSON.  In the text the bytes of a row, and blanks behind them, fill a column of
    forty-four characters, so what stands behind the column always does at the same distance. -/
theorem printedRows_determines {code other : List UInt8} {limit : Nat} (nonempty : code ≠ [])
    (room : code.length ≤ limit) (roomOther : other.length ≤ limit) (base otherBase : UInt64) :
    (∀ json, printedRows json (listing base limit code) =
        printedRows json (listing otherBase limit other) → code = other ∧ base = otherBase) ∧
    ∀ row ∈ listing base limit code, ∃ front filling inside : Nat,
      (spacedHex row.bytes).length + filling = 44 ∧
      row.line.toList =
        List.replicate front ' ' ++ (hexadecimal row.address.toNat).toList ++ [' ', ' '] ++
          ((spacedHex row.bytes).toList ++ List.replicate filling ' ') ++ [' ', ' '] ++
          (List.replicate inside ' ' ++ row.note) := by
  constructor
  · intro json same
    have told := told_of_printedRows same
    have bytes : (listing base limit code).map Row.bytes =
        (listing otherBase limit other).map Row.bytes := by
      simpa [Row.told, Function.comp_def] using congrArg (List.map Prod.snd) told
    have addresses : (listing base limit code).map Row.address =
        (listing otherBase limit other).map Row.address := by
      simpa [Row.told, Function.comp_def] using congrArg (List.map Prod.fst) told
    -- The bytes of all rows are the code, and the first row stands at the base.
    have sameCode : code = other := by
      rw [← flatten_bytes_listing room base, bytes, flatten_bytes_listing roomOther]
    subst sameCode
    have first := head?_address_listing room base nonempty
    rw [addresses, head?_address_listing room otherBase nonempty] at first
    exact ⟨rfl, (Option.some.inj first).symm⟩
  · -- Fifteen bytes take 3 * 15 - 1 characters.
    intro row listed
    have few := length_bytes_le_of_mem_listing row listed
    have fits : (spacedHex row.bytes).length ≤ 44 := by
      rw [length_spacedHex]
      rw [lengthLimit] at few
      omega
    obtain ⟨front, inside, columns⟩ := row.exists_toList_line
    refine ⟨front, 44 - (spacedHex row.bytes).length, inside, Nat.add_sub_of_le fits, ?_⟩
    simpa using columns

/-- Neither another base nor a byte less prints as the same listing. -/
theorem printedRows_determines_base_and_end :
    (∀ json, printedRows json (listing 0xFFFFFFFFFFFFFFFF 3 [0x90, 0x06, 0x55]) ≠
      printedRows json (listing 0 3 [0x90, 0x06, 0x55])) ∧
    ∀ json, printedRows json (listing 0 3 [0x90, 0x06, 0x55]) ≠
      printedRows json (listing 0 3 [0x90, 0x06]) := by
  have nonempty : ([0x90, 0x06, 0x55] : List UInt8) ≠ [] := by decide
  have room : ([0x90, 0x06, 0x55] : List UInt8).length ≤ 3 := by decide
  have roomShorter : ([0x90, 0x06] : List UInt8).length ≤ 3 := by decide
  constructor
  · intro json same
    have bases := ((printedRows_determines nonempty room room 0xFFFFFFFFFFFFFFFF 0).1 json same).2
    exact absurd bases (by decide)
  · intro json same
    have codes := ((printedRows_determines nonempty room roomShorter 0 0).1 json same).1
    exact absurd codes (by decide)

end X86Length
