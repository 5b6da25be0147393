import X86Length.Json.Form
import X86Length.Proofs.JsonGrammar
import X86Length.Proofs.Numerals

/-! # Reading printed JSON back

A value over several lines is one way of writing the value (`Value.lays`), and so it reads back
(`read?_pretty`).  Numbers and texts read back as well once they are values (`isNumeral_toDigits`,
`unescaped?_escaped`). -/

namespace X86Length.Json

/-! ## Several lines -/

theorem endsWord_cons {c : Char} (other : ¬ IsWordChar c) (text : List Char) :
    EndsWord (c :: text) := by
  rintro _ ⟨⟩
  exact other

namespace Writes

/-- A token that is no word may touch anything. -/
theorem mark {text : List Char} {tokens : List Token} (others : Writes text tokens)
    (token : Token) (valid : token.Valid) (noWord : ¬ token.IsWord) :
    Writes (token.text ++ text) (token :: tokens) :=
  .token valid (fun isWord => absurd isWord noWord) others

theorem newLine {text : List Char} {tokens : List Token} (others : Writes text tokens)
    (level : Nat) : Writes (Value.newLine level ++ text) tokens := by
  refine .space (by decide) ?_
  induction 2 * level with
  | zero => exact others
  | succ n ih =>
    rw [List.replicate_succ]
    exact .space (by decide) ih

end Writes

namespace Value

theorem lines_array (level : Nat) (item : Value) (items : List Value) :
    lines level (.array (item :: items)) =
      Token.openBracket.text ++ itemLines (level + 1) (item :: items) ++ newLine level ++
        Token.closeBracket.text := by
  rw [lines]
  exact List.cons_ne_nil item items

theorem itemLines_cons_cons (level : Nat) (item next : Value) (items : List Value) :
    itemLines level (item :: next :: items) =
      newLine level ++ item.lines level ++ Token.comma.text ++
        itemLines level (next :: items) := by
  rw [itemLines]
  exact List.cons_ne_nil next items

theorem lines_object (level : Nat) (field : List Char × Value)
    (fields : List (List Char × Value)) :
    lines level (.object (field :: fields)) =
      Token.openBrace.text ++ fieldLines (level + 1) (field :: fields) ++ newLine level ++
        Token.closeBrace.text := by
  rw [lines]
  exact List.cons_ne_nil field fields

theorem fieldLines_cons_cons (level : Nat) (name : List Char) (value : Value)
    (next : List Char × Value) (fields : List (List Char × Value)) :
    fieldLines level ((name, value) :: next :: fields) =
      newLine level ++ (Token.string name).text ++ Token.colon.text ++ ' ' :: value.lines level ++
        Token.comma.text ++ fieldLines level (next :: fields) := by
  rw [fieldLines]
  exact List.cons_ne_nil next fields

/-- Is every number and every string in a value written as JSON has it? -/
def Valid (value : Value) : Prop :=
  ∀ token ∈ value.tokens, token.Valid

/-- The lines of a value write its tokens, at whatever level and whatever follows. -/
def Lays (value : Value) : Prop :=
  value.Valid → ∀ level text tokens, EndsWord text →
    Writes text tokens → Writes (value.lines level ++ text) (value.tokens ++ tokens)

theorem writes_itemLines {item : Value} {items : List Value}
    (each : ∀ other ∈ item :: items, Lays other)
    (valid : ∀ token ∈ itemTokens (item :: items), token.Valid) (level : Nat) {text : List Char}
    {tokens : List Token} (ends : EndsWord text) (others : Writes text tokens) :
    Writes (itemLines level (item :: items) ++ text) (itemTokens (item :: items) ++ tokens) := by
  induction items generalizing item with
  | nil =>
    rw [itemLines, itemTokens, List.append_assoc]
    exact (each item (by simp) valid level text tokens ends others).newLine level
  | cons next items ih =>
    rw [List.forall_mem_cons] at each
    rw [itemTokens_cons_cons, List.forall_mem_append, List.forall_mem_cons] at valid
    rw [itemLines_cons_cons, itemTokens_cons_cons]
    simp only [List.append_assoc, List.cons_append]
    have behind := (ih each.2 valid.2.2).mark .comma trivial id
    exact (each.1 valid.1 level _ _ (endsWord_cons (by decide) _) behind).newLine level

theorem writes_fieldLines {name : List Char} {value : Value} {fields : List (List Char × Value)}
    (each : ∀ field ∈ (name, value) :: fields, Lays field.2)
    (valid : ∀ token ∈ fieldTokens ((name, value) :: fields), token.Valid) (level : Nat)
    {text : List Char} {tokens : List Token} (ends : EndsWord text) (others : Writes text tokens) :
    Writes (fieldLines level ((name, value) :: fields) ++ text)
      (fieldTokens ((name, value) :: fields) ++ tokens) := by
  induction fields generalizing name value with
  | nil =>
    have lays : Lays value := each (name, value) (by simp)
    rw [fieldTokens, List.forall_mem_cons, List.forall_mem_cons] at valid
    obtain ⟨validName, -, valid⟩ := valid
    rw [fieldLines, fieldTokens]
    simp only [List.append_assoc, List.cons_append]
    have inside := lays valid level text tokens ends others
    exact (((inside.space (by decide)).mark .colon trivial id).mark (.string name) validName
      id).newLine level
  | cons next fields ih =>
    rw [List.forall_mem_cons] at each
    have lays : Lays value := each.1
    rw [fieldTokens_cons_cons, List.forall_mem_cons, List.forall_mem_cons, List.forall_mem_append,
      List.forall_mem_cons] at valid
    obtain ⟨validName, -, valid, -, validOthers⟩ := valid
    rw [fieldLines_cons_cons, fieldTokens_cons_cons]
    simp only [List.append_assoc, List.cons_append]
    have behind := (ih each.2 validOthers).mark .comma trivial id
    have inside := lays valid level _ _ (endsWord_cons (by decide) _) behind
    exact (((inside.space (by decide)).mark .colon trivial id).mark (.string name) validName
      id).newLine level

theorem lays_of_single {value : Value} {token : Token} (single : value.tokens = [token])
    (written : ∀ level, value.lines level = token.text) : Lays value := by
  intro valid level text tokens ends others
  rw [Valid, single] at valid
  rw [single, written]
  exact .token (valid token List.mem_cons_self) (fun _ => ends) others

theorem lays (value : Value) : Lays value := by
  induction value using Value.induction with
  | null => exact lays_of_single rfl fun _ => rfl
  | bool value => exact lays_of_single rfl fun _ => rfl
  | number numeral => exact lays_of_single rfl fun _ => rfl
  | string body => exact lays_of_single rfl fun _ => rfl
  | array items each =>
    intro valid level text tokens ends others
    cases items with
    | nil => exact (others.mark .closeBracket trivial id).mark .openBracket trivial id
    | cons item items =>
      rw [Valid, Value.tokens, List.forall_mem_cons, List.forall_mem_append] at valid
      rw [lines_array, Value.tokens]
      simp only [List.append_assoc, List.cons_append]
      have behind := (others.mark .closeBracket trivial id).newLine level
      have inside := writes_itemLines each valid.2.1 (level + 1) (endsWord_cons (by decide) _)
        behind
      exact inside.mark .openBracket trivial id
  | object fields each =>
    intro valid level text tokens ends others
    cases fields with
    | nil => exact (others.mark .closeBrace trivial id).mark .openBrace trivial id
    | cons field fields =>
      rw [Valid, Value.tokens, List.forall_mem_cons, List.forall_mem_append] at valid
      rw [lines_object, Value.tokens]
      simp only [List.append_assoc, List.cons_append]
      have behind := (others.mark .closeBrace trivial id).newLine level
      have inside := writes_fieldLines each valid.2.1 (level + 1) (endsWord_cons (by decide) _)
        behind
      exact inside.mark .openBrace trivial id

end Value

/-- A value that is written over several lines reads back. -/
theorem read?_pretty {value : Value} (valid : value.Valid) :
    read? (pretty value) = some value := by
  have written := Value.lays value valid 0 [] [] (by simp [EndsWord]) .nil
  rw [List.append_nil, List.append_nil] at written
  apply read?_of_writes
  rwa [pretty, String.toList_ofList]

theorem pretty_inj {value other : Value} (valid : value.Valid) (validOther : other.Valid)
    (same : pretty value = pretty other) :
    value = other := by
  have read := read?_pretty valid
  rw [same, read?_pretty validOther] at read
  cases read
  rfl

/-! ## Numbers and texts -/

theorem isWhole_toDigits (n : Nat) : isWhole (Nat.toDigits 10 n) = true := by
  by_cases zero : n = 0
  · rw [zero]
    decide
  · obtain ⟨digit, rest, nonzero, below, same⟩ :=
      Text.exists_toDigits_eq_cons (by decide : 1 < 10) (Nat.pos_of_ne_zero zero)
    have digits : ∀ c ∈ Nat.toDigits 10 n, c.isDigit = true :=
      fun c isDigit => Nat.isDigit_of_mem_toDigits (by decide) (by decide) isDigit
    have first : Nat.digitChar digit ≠ '0' := by
      rw [ne_eq, Nat.digitChar_eq_zero]
      omega
    rw [same, List.forall_mem_cons] at digits
    rw [same]
    simpa [isWhole, first, digits.1] using digits.2

/-- Digits alone are a number if they have no needless zeros. -/
theorem isNumeral_eq_isWhole {numeral : List Char} (digits : ∀ c ∈ numeral, c.isDigit = true) :
    isNumeral numeral = isWhole numeral := by
  -- Neither a sign nor a fraction nor an exponent stands next to the digits.
  have unsigned : ∀ rest, numeral ≠ '-' :: rest := by
    rintro rest rfl
    exact absurd (digits '-' List.mem_cons_self) (by decide)
  have front : numeral.takeWhile Char.isDigit = numeral :=
    List.takeWhile_eq_self_iff.mpr digits
  have behind : numeral.dropWhile Char.isDigit = [] :=
    List.dropWhile_eq_nil_iff.mpr digits
  unfold isNumeral
  split
  · exact absurd rfl (unsigned _)
  · dsimp only
    rw [front, behind]
    exact Bool.and_true _

theorem isNumeral_toDigits (n : Nat) : isNumeral (Nat.toDigits 10 n) = true := by
  have digits : ∀ c ∈ Nat.toDigits 10 n, c.isDigit = true :=
    fun c isDigit => Nat.isDigit_of_mem_toDigits (by decide) (by decide) isDigit
  rw [isNumeral_eq_isWhole digits]
  exact isWhole_toDigits n

/-- A character is written by a letter, by its number, or as itself. -/
theorem escapedChar_cases (c : Char) :
    (∃ letter ∈ escapeLetters, escapedChar c = ['\\', letter] ∧ escapeLetter? letter = some c) ∨
      (c < ' ' ∧ escapedChar c =
        ['\\', 'u', '0', '0', Nat.digitChar (c.toNat / 16), Nat.digitChar (c.toNat % 16)]) ∨
      (c ≠ '"' ∧ c ≠ '\\' ∧ ¬ c < ' ' ∧ escapedChar c = [c]) := by
  unfold escapedChar
  split_ifs with self backspace feed line carriage tab control
  · have either : c = '"' ∨ c = '\\' := by simpa using self
    obtain rfl | rfl := either <;> exact .inl ⟨_, by decide, rfl, by decide⟩
  · obtain rfl := eq_of_beq backspace
    exact .inl ⟨'b', by decide, rfl, by decide⟩
  · obtain rfl := eq_of_beq feed
    exact .inl ⟨'f', by decide, rfl, by decide⟩
  · obtain rfl := eq_of_beq line
    exact .inl ⟨'n', by decide, rfl, by decide⟩
  · obtain rfl := eq_of_beq carriage
    exact .inl ⟨'r', by decide, rfl, by decide⟩
  · obtain rfl := eq_of_beq tab
    exact .inl ⟨'t', by decide, rfl, by decide⟩
  · exact .inr (.inl ⟨control, rfl⟩)
  · have neither : c ≠ '"' ∧ c ≠ '\\' := by simpa using self
    exact .inr (.inr ⟨neither.1, neither.2, control, rfl⟩)

theorem toNat_lt_of_control {c : Char} (control : c < ' ') : c.toNat < 32 :=
  control

theorem isBody_escaped (text : List Char) : IsBody (escaped text) := by
  induction text with
  | nil => exact .nil
  | cons c text ih =>
    rw [escaped, List.flatMap_cons]
    rcases escapedChar_cases c with
      ⟨letter, known, written, -⟩ | ⟨control, written⟩ | ⟨noQuote, noEscape, printed, written⟩
    · rw [written]
      exact .letter known ih
    · rw [written]
      have digits (digit : Nat) (below : digit < 16) :
          ∃ value, HexBytes.IsDigit (Nat.digitChar digit) value := by
        have value := HexBytes.hexDigitValue?_digitChar digit below
        exact ⟨digit, HexBytes.hexDigitValue?_eq_some_iff.mp value⟩
      have zero : ∃ value, HexBytes.IsDigit '0' value := digits 0 (by decide)
      have := toNat_lt_of_control control
      refine .unit ?_ ih
      simp only [List.forall_mem_cons]
      exact ⟨zero, zero, digits _ (by omega), digits _ (by omega), by simp⟩
    · rw [written]
      exact .plain noQuote noEscape printed ih

theorem unescapedFrom?_control {c : Char} (control : c < ' ') (rest : List Char) :
    unescapedFrom? none
        ('\\' :: 'u' :: '0' :: '0' :: Nat.digitChar (c.toNat / 16) ::
          Nat.digitChar (c.toNat % 16) :: rest) =
      (unescapedFrom? none rest).map (c :: ·) := by
  have small := toNat_lt_of_control control
  have unit : ∀ n < 32,
      unit? ['0', '0', Nat.digitChar (n / 16), Nat.digitChar (n % 16)] = some n := by
    decide
  -- A control character is far below the surrogates.
  have noLow : isLowSurrogate c.toNat = false := by
    simp only [isLowSurrogate, Bool.and_eq_false_iff, decide_eq_false_iff_not]
    omega
  have noHigh : isHighSurrogate c.toNat = false := by
    simp only [isHighSurrogate, Bool.and_eq_false_iff, decide_eq_false_iff_not]
    omega
  simp [unescapedFrom?, unit _ small, noLow, noHigh]

theorem unescapedFrom?_escapedChar (c : Char) (rest : List Char) :
    unescapedFrom? none (escapedChar c ++ rest) = (unescapedFrom? none rest).map (c :: ·) := by
  rcases escapedChar_cases c with
    ⟨letter, known, written, means⟩ | ⟨control, written⟩ | ⟨-, noEscape, -, written⟩
  · have noUnit : letter ≠ 'u' := by
      rintro rfl
      exact absurd known (by decide)
    rw [written, List.cons_append, List.cons_append, List.nil_append, unescapedFrom?]
    · rw [means]
    · simp [noUnit]
  · rw [written]
    exact unescapedFrom?_control control rest
  · rw [written, List.cons_append, List.nil_append, unescapedFrom?]
    · simp [noEscape]
    · simp [noEscape]

theorem unescaped?_escaped (text : List Char) : unescaped? (escaped text) = some text := by
  unfold unescaped?
  induction text with
  | nil => rfl
  | cons c text ih =>
    rw [escaped, List.flatMap_cons, unescapedFrom?_escapedChar, ← escaped, ih]
    rfl

theorem escaped_inj {text other : List Char} (same : escaped text = escaped other) :
    text = other := by
  have read := unescaped?_escaped text
  rw [same, unescaped?_escaped] at read
  cases read
  rfl

/-! ## Valid values -/

namespace Value

theorem valid_ofNat (n : Nat) : (ofNat n).Valid := by
  intro token isToken
  rw [List.mem_singleton.mp isToken]
  exact isNumeral_iff.mp (isNumeral_toDigits n)

theorem valid_ofString (text : String) : (ofString text).Valid := by
  intro token isToken
  rw [List.mem_singleton.mp isToken]
  exact isBody_escaped text.toList

theorem valid_itemTokens {items : List Value} (each : ∀ item ∈ items, item.Valid) :
    ∀ token ∈ itemTokens items, token.Valid := by
  induction items with
  | nil => simp [itemTokens]
  | cons item items ih =>
    rw [List.forall_mem_cons] at each
    cases items with
    | nil => exact each.1
    | cons next items =>
      rw [itemTokens_cons_cons, List.forall_mem_append, List.forall_mem_cons]
      exact ⟨each.1, trivial, ih each.2⟩

theorem valid_array {items : List Value} (each : ∀ item ∈ items, item.Valid) :
    (array items).Valid := by
  rw [Valid, tokens, List.forall_mem_cons, List.forall_mem_append]
  exact ⟨trivial, valid_itemTokens each, by simp [Token.Valid]⟩

theorem valid_fieldTokens {fields : List (List Char × Value)}
    (each : ∀ field ∈ fields, IsBody field.1 ∧ field.2.Valid) :
    ∀ token ∈ fieldTokens fields, token.Valid := by
  induction fields with
  | nil => simp [fieldTokens]
  | cons field fields ih =>
    obtain ⟨name, value⟩ := field
    rw [List.forall_mem_cons] at each
    obtain ⟨⟨isBody, valid⟩, others⟩ := each
    cases fields with
    | nil =>
      rw [fieldTokens, List.forall_mem_cons, List.forall_mem_cons]
      exact ⟨isBody, trivial, valid⟩
    | cons next fields =>
      rw [fieldTokens_cons_cons, List.forall_mem_cons, List.forall_mem_cons,
        List.forall_mem_append, List.forall_mem_cons]
      exact ⟨isBody, trivial, valid, trivial, ih others⟩

theorem valid_object {fields : List (List Char × Value)}
    (each : ∀ field ∈ fields, IsBody field.1 ∧ field.2.Valid) : (object fields).Valid := by
  rw [Valid, tokens, List.forall_mem_cons, List.forall_mem_append]
  exact ⟨trivial, valid_fieldTokens each, by simp [Token.Valid]⟩

theorem valid_record {fields : List (String × Value)} (each : ∀ field ∈ fields, field.2.Valid) :
    (record fields).Valid := by
  apply valid_object
  intro field isField
  obtain ⟨named, isNamed, rfl⟩ := List.mem_map.mp isField
  exact ⟨isBody_escaped named.1.toList, each named isNamed⟩

end Value

end X86Length.Json

namespace X86Length

theorem InstructionLength.valid_toJson (length : InstructionLength) : length.toJson.Valid := by
  apply Json.Value.valid_record
  simp [fieldNames, Json.Value.valid_ofNat]

theorem Boundary.valid_toJson (boundary : Boundary) : boundary.toJson.Valid := by
  apply Json.Value.valid_record
  simp [fieldNames, Json.Value.valid_ofNat, InstructionLength.valid_toJson]

end X86Length
