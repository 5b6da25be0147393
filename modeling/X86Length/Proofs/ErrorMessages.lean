import X86Length.Proofs.PrintedListing

/-! # What an error message tells

A message has a heading for the kind of the fault, then the address, and then the particulars of the
fault (`DecodeError.toList_message`).  No heading starts like another one, a colon ends the digits
of the address, and of each kind the particulars tell the fault apart.  So a message tells all of
its error, and a listing in JSON, which keeps nothing of an error but the message, tells all of its
rows (`message_tells_error`). -/

namespace X86Length

open Text HexBytes

/-! ## Separators -/

/-- What stands in front of a separator, and what stands behind it, can be told from the whole. -/
theorem append_cons_inj_of_not_mem {separator : Char} {front other rest behind : List Char}
    (solid : separator ∉ front) (solidOther : separator ∉ other)
    (same : front ++ separator :: rest = other ++ separator :: behind) :
    front = other ∧ rest = behind := by
  have pieces := congrArg (List.splitOn separator) same
  rw [List.splitOn_append_cons_self_of_not_mem solid,
    List.splitOn_append_cons_self_of_not_mem solidOther] at pieces
  obtain rfl := (List.cons.inj pieces).1
  exact ⟨rfl, (List.cons.inj (List.append_cancel_left same)).2⟩

/-- A character that is no digit can be told from the numeral in front of it. -/
theorem toDigits_append_cons_inj {radix m n : Nat} {separator : Char} {rest behind : List Char}
    (several : 1 < radix) (known : radix ≤ 16) (noDigit : hexDigitValue? separator = none)
    (same : Nat.toDigits radix m ++ separator :: rest =
      Nat.toDigits radix n ++ separator :: behind) :
    m = n ∧ rest = behind := by
  have solid (k : Nat) : separator ∉ Nat.toDigits radix k := by
    intro inNumeral
    obtain ⟨digit, below, rfl⟩ := mem_toDigits several k separator inNumeral
    rw [hexDigitValue?_digitChar digit (Nat.lt_of_lt_of_le below known)] at noDigit
    cases noDigit
  obtain ⟨numerals, others⟩ := append_cons_inj_of_not_mem (solid m) (solid n) same
  exact ⟨toDigits_inj several known numerals, others⟩

theorem hexPair_inj {byte other : UInt8} (same : hexPair byte = hexPair other) : byte = other := by
  have read := ofToken_hexPair byte
  rw [same, ofToken_hexPair] at read
  cases read
  rfl

/-! ## The parts of a message -/

/-- What messages start with. -/
def headings : List String :=
  ["invalid opcode at ", "unknown sub-opcode at ", "truncated instruction at ",
    "invalid encoding at "]

/-- The first nine characters of a message tell its heading. -/
theorem heading_of_append {heading other : String} {rest behind : List Char}
    (known : heading ∈ headings) (knownOther : other ∈ headings)
    (same : heading.toList ++ rest = other.toList ++ behind) : heading = other := by
  have long : ∀ heading ∈ headings, 9 ≤ heading.toList.length := by decide
  have apart : ∀ heading ∈ headings, ∀ other ∈ headings,
      heading.toList.take 9 = other.toList.take 9 → heading = other := by decide
  have initials := congrArg (List.take 9) same
  rw [List.take_append_of_le_length (long heading known),
    List.take_append_of_le_length (long other knownOther)] at initials
  exact apart heading known other knownOther initials

namespace Fault

/-- What a message starts with. -/
def heading : Fault → String
  | invalidOpcode .. => "invalid opcode at "
  | unknownSubOpcode .. => "unknown sub-opcode at "
  | truncated .. => "truncated instruction at "
  | invalidEncoding _ => "invalid encoding at "

/-- What a message tells behind the address. -/
def particulars : Fault → List Char
  | invalidOpcode opcode escaped => (if escaped then "0f " else "").toList ++ hexPair opcode
  | unknownSubOpcode opcode sub => "0f ".toList ++ (hexPair opcode ++ ' ' :: hexPair sub)
  | truncated needed available =>
    "need ".toList ++ (Nat.toDigits 10 needed ++
      ' ' :: ("bytes, have ".toList ++ Nat.toDigits 10 available))
  | invalidEncoding reason => reason.toList

theorem heading_mem (fault : Fault) : fault.heading ∈ headings := by
  cases fault <;> simp [heading, headings]

theorem invalidOpcode_of_particulars {opcode other : UInt8} {escaped otherEscaped : Bool}
    (same : (invalidOpcode opcode escaped).particulars =
      (invalidOpcode other otherEscaped).particulars) :
    invalidOpcode opcode escaped = invalidOpcode other otherEscaped := by
  -- The escape makes the text longer.
  have lengths := congrArg List.length same
  simp only [particulars] at same lengths
  cases escaped <;> cases otherEscaped
  · rw [hexPair_inj (List.append_cancel_left same)]
  · cases lengths
  · cases lengths
  · rw [hexPair_inj (List.append_cancel_left same)]

theorem unknownSubOpcode_of_particulars {opcode other sub otherSub : UInt8}
    (same : (unknownSubOpcode opcode sub).particulars =
      (unknownSubOpcode other otherSub).particulars) :
    unknownSubOpcode opcode sub = unknownSubOpcode other otherSub := by
  simp only [particulars] at same
  obtain ⟨opcodes, subs⟩ := List.append_inj (List.append_cancel_left same) rfl
  rw [hexPair_inj opcodes, hexPair_inj (List.cons.inj subs).2]

theorem truncated_of_particulars {needed other available otherAvailable : Nat}
    (same : (truncated needed available).particulars =
      (truncated other otherAvailable).particulars) :
    truncated needed available = truncated other otherAvailable := by
  simp only [particulars] at same
  obtain ⟨rfl, others⟩ := toDigits_append_cons_inj (by decide) (by decide) (by decide)
    (List.append_cancel_left same)
  rw [toDigits_inj (by decide) (by decide) (List.append_cancel_left others)]

/-- Of one kind, the particulars tell the fault. -/
theorem eq_of_particulars {fault other : Fault} (kind : fault.heading = other.heading)
    (same : fault.particulars = other.particulars) : fault = other := by
  cases fault with
  | invalidOpcode opcode escaped =>
    cases other with
    | invalidOpcode => exact invalidOpcode_of_particulars same
    | _ => exact absurd kind (by simp [heading])
  | unknownSubOpcode opcode sub =>
    cases other with
    | unknownSubOpcode => exact unknownSubOpcode_of_particulars same
    | _ => exact absurd kind (by simp [heading])
  | truncated needed available =>
    cases other with
    | truncated => exact truncated_of_particulars same
    | _ => exact absurd kind (by simp [heading])
  | invalidEncoding reason =>
    cases other with
    | invalidEncoding => rw [String.toList_inj.mp same]
    | _ => exact absurd kind (by simp [heading])

end Fault

namespace DecodeError

theorem toList_message (error : DecodeError) :
    error.message.toList = error.fault.heading.toList ++ ("0x".toList ++
      (Nat.toDigits 16 error.address.toNat ++ ':' :: ' ' :: error.fault.particulars)) := by
  unfold message Fault.heading Fault.particulars
  cases error.fault <;>
    simp only [hexadecimal, decimal, hexByte, String.toList_append, String.toList_ofList,
      List.append_assoc] <;> rfl

theorem message_injective : Function.Injective message := by
  intro error other same
  have texts := String.toList_inj.mpr same
  rw [toList_message, toList_message] at texts
  have kind := heading_of_append error.fault.heading_mem other.fault.heading_mem texts
  rw [kind] at texts
  obtain ⟨place, others⟩ := toDigits_append_cons_inj (by decide) (by decide) (by decide)
    (List.append_cancel_left (List.append_cancel_left texts))
  have address : error.address = other.address := UInt64.toNat_inj.mp place
  have fault := Fault.eq_of_particulars kind (List.cons.inj others).2
  cases error
  cases other
  rw [DecodeError.mk.injEq]
  exact ⟨address, fault⟩

end DecodeError

/-! ## Rows in JSON -/

theorem InstructionLength.toJson_injective : Function.Injective toJson := by
  intro length other same
  have digits {m n : Nat} (numerals : Nat.toDigits 10 m = Nat.toDigits 10 n) : m = n :=
    toDigits_inj (by decide) (by decide) numerals
  simp only [toJson, fieldNames, Json.Value.record, Json.Value.ofNat, List.zip_cons_cons,
    List.zip_nil_right, List.map_cons, List.map_nil, Json.Value.object.injEq, List.cons.injEq,
    Prod.mk.injEq, Json.Value.number.injEq, true_and, and_true] at same
  obtain ⟨prefixes, opcode, addressing, immediate⟩ := same
  cases length
  cases other
  rw [InstructionLength.mk.injEq]
  exact ⟨digits prefixes, digits opcode, digits addressing, digits immediate⟩

/-- The last field of a row in JSON, which is named for what was found. -/
def foundField : Except DecodeError InstructionLength → String × Json.Value
  | .ok length => ("length", length.toJson)
  | .error error => ("error", Json.Value.ofString error.message)

theorem foundField_injective : Function.Injective foundField := by
  intro found other same
  cases found with
  | ok length =>
    cases other with
    | ok => rw [InstructionLength.toJson_injective (Prod.mk.inj same).2]
    | error => exact absurd (Prod.mk.inj same).1 (by decide)
  | error error =>
    cases other with
    | ok => exact absurd (Prod.mk.inj same).1 (by decide)
    | error =>
      have bodies := Json.Value.string.inj (Prod.mk.inj same).2
      rw [DecodeError.message_injective (String.toList_inj.mp (Json.escaped_inj bodies))]

namespace Row

theorem toJson_eq (row : Row) :
    row.toJson = Json.Value.record
      [("address", Json.Value.ofNat row.address.toNat), ("offset", Json.Value.ofNat row.offset),
        ("bytes", Json.Value.ofString (spacedHex row.bytes)), foundField row.found] := by
  unfold toJson foundField
  cases row.found <;> rfl

theorem toJson_injective : Function.Injective toJson := by
  intro row other same
  obtain ⟨addresses, bytes⟩ := Prod.mk.inj (told_of_toJson same)
  simp only [toJson_eq, Json.Value.record, Json.Value.ofNat, List.map_cons, List.map_nil,
    Json.Value.object.injEq, List.cons.injEq, Prod.mk.injEq, Json.Value.number.injEq, true_and,
    and_true] at same
  obtain ⟨-, offsets, -, names, values⟩ := same
  have offset := toDigits_inj (by decide) (by decide) offsets
  have name := String.toList_inj.mp (Json.escaped_inj names)
  have found := foundField_injective (Prod.ext name values)
  cases row
  cases other
  rw [Row.mk.injEq]
  exact ⟨addresses, offset, bytes, found⟩

end Row

/-- No two errors have the same message, whatever their kinds, addresses, bytes, sizes and reasons.
    So a listing in JSON, where only the message is left of an error, determines its rows. -/
theorem message_tells_error :
    (∀ error other : DecodeError, error.message = other.message → error = other) ∧
    ∀ rows others : List Row, printedRows true rows = printedRows true others → rows = others := by
  constructor
  · intro error other same
    exact DecodeError.message_injective same
  · intro rows others same
    exact Row.toJson_injective.list_map (toJson_of_printedRows same)

/-- Neither the map of an opcode nor the order of two sizes is lost in a message, nor in the listing
    of the error. -/
theorem message_tells_map_and_sizes :
    (DecodeError.mk 0x0F (.invalidOpcode 0xFF true)).message ≠
      (DecodeError.mk 0x0F (.invalidOpcode 0xFF false)).message ∧
    (DecodeError.mk 1 (.truncated 11 1)).message ≠ (DecodeError.mk 11 (.truncated 1 11)).message ∧
    printedRows true [⟨0, 0, [0x0F], .error ⟨0, .truncated 11 1⟩⟩] ≠
      printedRows true [⟨0, 0, [0x0F], .error ⟨0, .truncated 1 11⟩⟩] := by
  refine ⟨?_, ?_, ?_⟩
  · intro same
    exact absurd (message_tells_error.1 _ _ same) (by decide)
  · intro same
    exact absurd (message_tells_error.1 _ _ same) (by decide)
  · intro same
    have rows := message_tells_error.2 _ _ same
    simp at rows

end X86Length
