import X86Length.Proofs.JsonRecords

/-! # Lengths, boundaries and categories as JSON

A length, a boundary or a category may be given in many forms, and is written in one of them
(`IsForm`).  A text that writes one of its forms, with any white space, is read as it, and no other
text is read (`Exchanges`).  So what has been read is read again from what is written of it, and a
record with which something is amiss is refused (`written_forms_round_trip`). -/

namespace X86Length

open Json

/-! ## Exchange -/

namespace Json

/-- Data that fit are read from the texts that write one of their forms, and from no others.  They
    are read from the form that is written of them, and so what is read from any text is read again
    when it has been written. -/
structure Exchanges {α : Type} (toJson : α → Value) (read? : String → Option α) (Fits : α → Prop)
    (IsForm : α → Value → Prop) : Prop where
  read_iff : ∀ text a, read? text = some a ↔
    Fits a ∧ ∃ value, IsForm a value ∧ Writes text.toList value.tokens
  read_compact : ∀ a, Fits a → read? (compact (toJson a)) = some a
  read_again : ∀ text, ((read? text).bind fun a => read? (compact (toJson a))) = read? text

section Exchange

variable {α : Type} {toJson : α → Value} {ofJson? : Value → Option α} {Fits : α → Prop}
  {IsForm : α → Value → Prop}

theorem exchanges_of_values
    (values : ∀ {value a}, value.Valid → (ofJson? value = some a ↔ Fits a ∧ IsForm a value))
    (valid : ∀ a, (toJson a).Valid) (form : ∀ a, IsForm a (toJson a)) :
    Exchanges toJson (fun text => (Json.read? text).bind ofJson?) Fits IsForm := by
  have back (a : α) (fits : Fits a) :
      (Json.read? (compact (toJson a))).bind ofJson? = some a := by
    rw [read?_compact (valid a), Option.bind_some, values (valid a)]
    exact ⟨fits, form a⟩
  have read_iff (text : String) (a : α) : (Json.read? text).bind ofJson? = some a ↔
      Fits a ∧ ∃ value, IsForm a value ∧ Writes text.toList value.tokens := by
    rw [Option.bind_eq_some_iff]
    constructor
    · rintro ⟨value, read, made⟩
      obtain ⟨fits, isForm⟩ := (values (valid_of_read? read)).mp made
      exact ⟨fits, value, isForm, read?_eq_some_iff.mp read⟩
    · rintro ⟨fits, value, isForm, writes⟩
      exact ⟨value, read?_of_writes writes, (values (valid_of_writes writes)).mpr ⟨fits, isForm⟩⟩
  refine ⟨read_iff, back, ?_⟩
  intro text
  cases read : (Json.read? text).bind ofJson? with
  | none => rfl
  | some a => exact back a ((read_iff text a).mp read).1

/-- A text that writes no form of any data is refused. -/
theorem Exchanges.refuses {read? : String → Option α}
    (exchanges : Exchanges toJson read? Fits IsForm) {text : String} {value : Value}
    (writes : Writes text.toList value.tokens) (noForm : ∀ a, Fits a → ¬ IsForm a value) :
    read? text = none := by
  rw [Option.eq_none_iff_forall_ne_some]
  intro a read
  obtain ⟨fits, other, isForm, writesOther⟩ := (exchanges.read_iff text a).mp read
  have same := (read?_of_writes writesOther).symm.trans (read?_of_writes writes)
  cases same
  exact noForm a fits isForm

end Exchange

end Json

/-! ## Lengths -/

namespace InstructionLength

/-- Do all parts of a length fit in 64 bits? -/
structure Fits (length : InstructionLength) : Prop where
  prefixes : length.prefixes < wordLimit
  opcode : length.opcode < wordLimit
  addressing : length.addressing < wordLimit
  immediate : length.immediate < wordLimit

/-- The forms of a length are records of numbers. -/
def IsForm (length : InstructionLength) : Value → Prop :=
  IsRecord fieldNames <|
    [length.prefixes, length.opcode, length.addressing, length.immediate].map Value.ofNat

/-- What is amiss with a value that should be a length. -/
def Amiss : Value → Prop :=
  Json.Amiss fieldNames fun _ item => NoNumber item

theorem isForm_toJson (length : InstructionLength) : length.IsForm length.toJson :=
  isRecord_record rfl

theorem ofJson?_eq_some_iff {value : Value} {length : InstructionLength} (valid : value.Valid) :
    ofJson? value = some length ↔ length.Fits ∧ length.IsForm value := by
  constructor
  · intro read
    unfold ofJson? at read
    split at read
    next items found =>
      have record := (recordFields?_eq_some_iff (by decide)).mp found
      have validItems := record.valid_items valid
      simp only [List.forall_mem_cons] at validItems
      obtain ⟨validPrefixes, validOpcode, validAddressing, validImmediate, -⟩ := validItems
      split at read
      next prefixes opcode addressing immediate =>
        cases read
        obtain ⟨fitsPrefixes, rfl⟩ := (Value.toNat?_eq_some_iff validPrefixes).mp prefixes
        obtain ⟨fitsOpcode, rfl⟩ := (Value.toNat?_eq_some_iff validOpcode).mp opcode
        obtain ⟨fitsAddressing, rfl⟩ := (Value.toNat?_eq_some_iff validAddressing).mp addressing
        obtain ⟨fitsImmediate, rfl⟩ := (Value.toNat?_eq_some_iff validImmediate).mp immediate
        exact ⟨⟨fitsPrefixes, fitsOpcode, fitsAddressing, fitsImmediate⟩, record⟩
      next => cases read
    next => cases read
  · rintro ⟨fits, isForm⟩
    have found := (recordFields?_eq_some_iff (by decide)).mpr isForm
    simp only [ofJson?, found, List.map_cons, List.map_nil, Value.toNat?_ofNat fits.prefixes,
      Value.toNat?_ofNat fits.opcode, Value.toNat?_ofNat fits.addressing,
      Value.toNat?_ofNat fits.immediate]

theorem exchanges : Exchanges toJson read? Fits IsForm :=
  exchanges_of_values ofJson?_eq_some_iff valid_toJson isForm_toJson

theorem IsForm.not_amiss {length : InstructionLength} {value : Value} (fits : length.Fits)
    (isForm : length.IsForm value) : ¬ Amiss value := by
  refine IsRecord.not_amiss (by decide) isForm ?_
  exact .cons (not_noNumber_ofNat fits.prefixes) <| .cons (not_noNumber_ofNat fits.opcode) <|
    .cons (not_noNumber_ofNat fits.addressing) <| .cons (not_noNumber_ofNat fits.immediate) .nil

end InstructionLength

/-! ## Boundaries -/

namespace Boundary

/-- Do all parts of a boundary fit in 64 bits? -/
structure Fits (boundary : Boundary) : Prop where
  offset : boundary.offset < wordLimit
  length : boundary.length.Fits

/-- The forms of a boundary are records of two numbers and any form of its length. -/
def IsForm (boundary : Boundary) (value : Value) : Prop :=
  ∃ item, boundary.length.IsForm item ∧
    IsRecord fieldNames
      [Value.ofNat boundary.address.toNat, Value.ofNat boundary.offset, item] value

/-- May a value not stand under a name in a boundary? -/
def WrongField (name : String) (item : Value) : Prop :=
  if name = "length" then InstructionLength.Amiss item else NoNumber item

/-- What is amiss with a value that should be a boundary. -/
def Amiss : Value → Prop :=
  Json.Amiss fieldNames WrongField

theorem isForm_toJson (boundary : Boundary) : boundary.IsForm boundary.toJson :=
  ⟨_, boundary.length.isForm_toJson, isRecord_record rfl⟩

theorem ofJson?_eq_some_iff {value : Value} {boundary : Boundary} (valid : value.Valid) :
    ofJson? value = some boundary ↔ boundary.Fits ∧ boundary.IsForm value := by
  constructor
  · intro read
    unfold ofJson? at read
    split at read
    next items found =>
      have record := (recordFields?_eq_some_iff (by decide)).mp found
      have validItems := record.valid_items valid
      simp only [List.forall_mem_cons] at validItems
      obtain ⟨validAddress, validOffset, validLength, -⟩ := validItems
      split at read
      next address offset length =>
        cases read
        obtain ⟨fitsAddress, rfl⟩ := (Value.toNat?_eq_some_iff validAddress).mp address
        obtain ⟨fitsOffset, rfl⟩ := (Value.toNat?_eq_some_iff validOffset).mp offset
        obtain ⟨fitsLength, isForm⟩ :=
          (InstructionLength.ofJson?_eq_some_iff validLength).mp length
        refine ⟨⟨fitsOffset, fitsLength⟩, _, isForm, ?_⟩
        rwa [UInt64.toNat_ofNat_of_lt' fitsAddress]
      next => cases read
    next => cases read
  · rintro ⟨fits, item, isForm, record⟩
    have found := (recordFields?_eq_some_iff (by decide)).mpr record
    have validItems := record.valid_items valid
    simp only [List.forall_mem_cons] at validItems
    have length := (InstructionLength.ofJson?_eq_some_iff validItems.2.2.1).mpr
      ⟨fits.length, isForm⟩
    simp only [ofJson?, found, Value.toNat?_ofNat boundary.address.toNat_lt,
      Value.toNat?_ofNat fits.offset, length, UInt64.ofNat_toNat]

theorem exchanges : Exchanges toJson read? Fits IsForm :=
  exchanges_of_values ofJson?_eq_some_iff valid_toJson isForm_toJson

theorem IsForm.not_amiss {boundary : Boundary} {value : Value} (fits : boundary.Fits)
    (isForm : boundary.IsForm value) : ¬ Amiss value := by
  obtain ⟨item, isItem, record⟩ := isForm
  refine record.not_amiss (by decide) ?_
  refine .cons ?_ (.cons ?_ (.cons ?_ .nil))
  · rw [WrongField, if_neg (by decide)]
    exact not_noNumber_ofNat boundary.address.toNat_lt
  · rw [WrongField, if_neg (by decide)]
    exact not_noNumber_ofNat fits.offset
  · rw [WrongField, if_pos rfl]
    exact isItem.not_amiss fits.length

end Boundary

/-! ## Categories -/

namespace Opcode.Category

/-- The forms of a category are its name, alone or with nothing under it. -/
inductive IsForm (category : Category) : Value → Prop where
  | name {body : List Char} (spelled : Spells body category.name) : IsForm category (.string body)
  | field {body : List Char} (spelled : Spells body category.name) :
      IsForm category (.object [(body, .null)])

theorem ofName?_eq_some_iff {text : String} {category : Category} :
    ofName? text = some category ↔ text = category.name := by
  constructor
  · intro found
    unfold ofName? at found
    have named := List.find?_some found
    exact (eq_of_beq named).symm
  · rintro rfl
    exact ofName?_name category

theorem ofBody?_eq_some_iff {body : List Char} {category : Category} :
    ofBody? body = some category ↔ Spells body category.name := by
  rw [ofBody?, Spells, Option.bind_eq_some_iff]
  constructor
  · rintro ⟨text, spelled, named⟩
    rw [spelled, ← ofName?_eq_some_iff.mp named, String.toList_ofList]
  · intro spelled
    exact ⟨_, spelled, by rw [String.ofList_toList, ofName?_name]⟩

theorem ofJson?_eq_some_iff {value : Value} {category : Category} :
    ofJson? value = some category ↔ category.IsForm value := by
  constructor
  · intro read
    unfold ofJson? at read
    split at read
    next => exact .name (ofBody?_eq_some_iff.mp read)
    next => exact .field (ofBody?_eq_some_iff.mp read)
    next => cases read
  · rintro (spelled | spelled)
    · exact ofBody?_eq_some_iff.mpr spelled
    · exact ofBody?_eq_some_iff.mpr spelled

theorem exchanges : Exchanges toJson read? (fun _ => True) IsForm := by
  refine exchanges_of_values ?_ (fun category => Value.valid_ofString category.name) ?_
  · intro value category _
    rw [ofJson?_eq_some_iff, true_and]
  · intro category
    exact .name (spells_escaped category.name)

end Opcode.Category

/-! ## Round trips -/

/-- Lengths, boundaries and categories are read from JSON in all of their forms, and are written in
    one of them.  A length or boundary is refused that lacks a field, or repeats one, or gives for
    one no number that fits in 64 bits; and so is a boundary with such a length. -/
theorem written_forms_round_trip :
    Exchanges InstructionLength.toJson InstructionLength.read? InstructionLength.Fits
        InstructionLength.IsForm ∧
      Exchanges Boundary.toJson Boundary.read? Boundary.Fits Boundary.IsForm ∧
      Exchanges Opcode.Category.toJson Opcode.Category.read? (fun _ => True)
        Opcode.Category.IsForm ∧
      (∀ (text : String) value, Writes text.toList value.tokens → InstructionLength.Amiss value →
        InstructionLength.read? text = none) ∧
      ∀ (text : String) value, Writes text.toList value.tokens → Boundary.Amiss value →
        Boundary.read? text = none := by
  refine ⟨InstructionLength.exchanges, Boundary.exchanges, Opcode.Category.exchanges, ?_, ?_⟩
  · intro text value writes amiss
    apply InstructionLength.exchanges.refuses writes
    intro length fits isForm
    exact isForm.not_amiss fits amiss
  · intro text value writes amiss
    apply Boundary.exchanges.refuses writes
    intro boundary fits isForm
    exact isForm.not_amiss fits amiss

/-- A boundary is read from white space, its fields in another order and with one of another name,
    with an escape in a name and the length as an array.  A length is refused with a number that is
    too large or below zero, and with a field given twice, and a boundary without a field. -/
theorem written_forms_at_limits :
    Boundary.read? "\n\x7b\"\\u006fffset\":3, \"address\":18446744073709551615,
      \"length\":[1,2,0,4], \"x\":\x7b\"offset\":[null]\x7d \x7d" =
        some ⟨UInt64.ofNat (2 ^ 64 - 1), 3, ⟨1, 2, 0, 4⟩⟩ ∧
    InstructionLength.read? "[1,2,0,18446744073709551616]" = none ∧
    InstructionLength.read? "[1,2,0,-1]" = none ∧
    InstructionLength.read? "\x7b\"opcode\":1,\"opcode\":1\x7d" = none ∧
    Boundary.read? "\x7b\"address\":0,\"length\":[1,2,0,4]\x7d" = none := by
  obtain ⟨-, boundaries, -, noLength, noBoundary⟩ := written_forms_round_trip
  refine ⟨?_, ?_, ?_, ?_, ?_⟩
  · have length : IsRecord InstructionLength.fieldNames ([1, 2, 0, 4].map Value.ofNat)
        (.array ([1, 2, 0, 4].map Value.ofNat)) := .array rfl
    have bodies : List.Forall₂ Spells
        ["address".toList, "\\u006fffset".toList, "length".toList] Boundary.fieldNames :=
      .cons rfl (.cons rfl (.cons rfl .nil))
    have others : ∀ field ∈ [("x".toList, Value.object [("offset".toList, .array [.null])])],
        ∃ name, name ∉ Boundary.fieldNames ∧ Spells field.1 name :=
      List.forall_mem_singleton.mpr ⟨"x", by decide, rfl⟩
    have record : IsRecord Boundary.fieldNames
        [.ofNat (2 ^ 64 - 1), .ofNat 3, .array ([1, 2, 0, 4].map Value.ofNat)]
        (.object [("\\u006fffset".toList, .ofNat 3), ("address".toList, .ofNat (2 ^ 64 - 1)),
          ("length".toList, .array ([1, 2, 0, 4].map Value.ofNat)),
          ("x".toList, .object [("offset".toList, .array [.null])])]) :=
      .object rfl bodies (.swap _ _ _) others
    refine (boundaries.read_iff _ _).mpr ⟨⟨by decide, ?_⟩, _, ⟨_, length, record⟩, ?_⟩
    · exact ⟨by decide, by decide, by decide, by decide⟩
    · exact read?_eq_some_iff.mp (by rfl)
  · have writes : Writes "[1,2,0,18446744073709551616]".toList
        (Value.array ([1, 2, 0, 2 ^ 64].map Value.ofNat)).tokens := read?_eq_some_iff.mp rfl
    have last : ("immediate", Value.ofNat (2 ^ 64)) ∈
        InstructionLength.fieldNames.zip ([1, 2, 0, 2 ^ 64].map Value.ofNat) := by
      simp [InstructionLength.fieldNames]
    exact noLength _ _ writes (.wrongItem last (noNumber_ofNat (Nat.le_refl _)))
  · have writes : Writes "[1,2,0,-1]".toList
        (Value.array ([1, 2, 0].map Value.ofNat ++ [.number ['-', '1']])).tokens :=
      read?_eq_some_iff.mp rfl
    have last : ("immediate", Value.number ['-', '1']) ∈
        InstructionLength.fieldNames.zip
          ([1, 2, 0].map Value.ofNat ++ [.number ['-', '1']]) := by
      simp [InstructionLength.fieldNames]
    exact noLength _ _ writes (.wrongItem last (noNumber_negative ['1']))
  · have writes : Writes "\x7b\"opcode\":1,\"opcode\":1\x7d".toList
        (Value.object (List.replicate 2 ("opcode".toList, .ofNat 1))).tokens :=
      read?_eq_some_iff.mp rfl
    have spelled : Spells "opcode".toList "opcode" := rfl
    exact noLength _ _ writes (.repeated (by decide) (List.Sublist.refl _) spelled spelled)
  · have writes : Writes "\x7b\"address\":0,\"length\":[1,2,0,4]\x7d".toList
        (Value.object [("address".toList, .ofNat 0),
          ("length".toList, .array ([1, 2, 0, 4].map Value.ofNat))]).tokens :=
      read?_eq_some_iff.mp rfl
    have absent : ∀ body ∈ ["address".toList, "length".toList], ¬ Spells body "offset" := by
      decide
    have noOffset : "offset" ∈ Boundary.fieldNames := by decide
    refine noBoundary _ _ writes (.missing noOffset ?_)
    simpa using absent

end X86Length
