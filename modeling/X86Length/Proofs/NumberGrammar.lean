import Mathlib.Algebra.GroupWithZero.Nat
import X86Length.Proofs.HexGrammar
import X86Length.Proofs.Numerals

/-! # How numbers may be written

In a numeral each digit counts for itself times a power of the radix (`Numeral`).  A number is
written as a numeral of one digit at least, perhaps behind a plus sign (`IsNumber`), and a marker in
front of it tells that the radix is sixteen and not ten (`IsMarkedNumber`).

Numerals may have any length.  They are read from the left into a number below `wordLimit`, which
more digits can only make greater; so a numeral is read as exactly what it stands for, or refused
because that is too large (`readDigits_of_numeral`), and nothing else is read
(`readMarkedNumber_follows_grammar`). -/

namespace X86Length.Text

open HexBytes

/-! ## The grammar -/

/-- Digits of a radix stand for a number, the one in front for the highest power. -/
inductive Numeral (radix : Nat) : List Char → Nat → Prop where
  | nil : Numeral radix [] 0
  | cons {c : Char} {digits : List Char} {value n : Nat} (isDigit : IsDigit c value)
      (below : value < radix) (others : Numeral radix digits n) :
      Numeral radix (c :: digits) (value * radix ^ digits.length + n)

/-- A number is written with one digit at least, and with one plus sign at most. -/
inductive IsNumber (radix : Nat) : List Char → Nat → Prop where
  | plain {digits : List Char} {n : Nat} (nonempty : digits ≠ [])
      (numeral : Numeral radix digits n) : IsNumber radix digits n
  | plus {digits : List Char} {n : Nat} (nonempty : digits ≠ [])
      (numeral : Numeral radix digits n) : IsNumber radix ('+' :: digits) n

/-- Behind a marker a number is hexadecimal, without one it is decimal. -/
inductive IsMarkedNumber : List Char → Nat → Prop where
  | hexadecimal {marker text : List Char} {n : Nat} (isMarker : marker ∈ markers)
      (number : IsNumber 16 text n) : IsMarkedNumber (marker ++ text) n
  | decimal {text : List Char} {n : Nat} (unmarked : ∀ marker ∈ markers, ¬ marker <+: text)
      (number : IsNumber 10 text n) : IsMarkedNumber text n

/-! ## Digits -/

theorem not_isDigit_plus (value : Nat) : ¬ IsDigit '+' value := by
  rintro (isLower | isUpper)
  · exact absurd (List.mem_of_getElem? isLower) (by decide)
  · exact absurd (List.mem_of_getElem? isUpper) (by decide)

section Radix

variable {radix : Nat}

theorem digitValue?_eq_some_iff {c : Char} {value : Nat} :
    digitValue? radix c = some value ↔ IsDigit c value ∧ value < radix := by
  rw [digitValue?, Option.filter_eq_some_iff, hexDigitValue?_eq_some_iff, decide_eq_true_iff]

/-- A digit may be counted with the digits behind it, or with the number in front of it. -/
theorem shift_add (value digit n length : Nat) :
    value * radix ^ (length + 1) + (digit * radix ^ length + n) =
      (radix * value + digit) * radix ^ length + n := by
  rw [Nat.pow_succ, Nat.add_mul]
  ac_rfl

/-- Digits behind a number that fits are read as long as the whole fits. -/
theorem readDigits_of_numeral {digits : List Char} {n value : Nat}
    (numeral : Numeral radix digits n) (fits : value < wordLimit) :
    readDigits radix value digits =
      if value * radix ^ digits.length + n < wordLimit then
        .ok (value * radix ^ digits.length + n)
      else .error .tooLarge := by
  induction numeral generalizing value with
  | nil => simp [readDigits, fits]
  | @cons c digits digit n isDigit below others ih =>
    rw [readDigits, digitValue?_eq_some_iff.mpr ⟨isDigit, below⟩, List.length_cons, shift_add]
    dsimp only
    by_cases room : radix * value + digit < wordLimit
    · rw [if_pos room, ih room]
    · -- What has been read does not fit, and more digits only make it greater.
      have positive : 0 < radix ^ digits.length := Nat.pow_pos (Nat.zero_lt_of_lt below)
      have grows := Nat.le_mul_of_pos_right (radix * value + digit) positive
      rw [if_neg room, if_neg (by omega)]

theorem exists_numeral_of_readDigits {digits : List Char} {value m : Nat}
    (read : readDigits radix value digits = .ok m) : ∃ n, Numeral radix digits n := by
  induction digits generalizing value with
  | nil => exact ⟨0, .nil⟩
  | cons c digits ih =>
    rw [readDigits] at read
    cases isDigit : digitValue? radix c with
    | none =>
      rw [isDigit] at read
      cases read
    | some digit =>
      rw [isDigit] at read
      dsimp only at read
      split at read
      · obtain ⟨n, others⟩ := ih read
        obtain ⟨isDigit, below⟩ := digitValue?_eq_some_iff.mp isDigit
        exact ⟨_, .cons isDigit below others⟩
      · cases read

theorem readDigits_zero_of_numeral {digits : List Char} {n : Nat}
    (numeral : Numeral radix digits n) :
    readDigits radix 0 digits = if n < wordLimit then .ok n else .error .tooLarge := by
  rw [readDigits_of_numeral numeral (by decide), Nat.zero_mul, Nat.zero_add]

theorem readDigits_ok_iff {digits : List Char} {n : Nat} :
    readDigits radix 0 digits = .ok n ↔ n < wordLimit ∧ Numeral radix digits n := by
  constructor
  · intro read
    obtain ⟨m, numeral⟩ := exists_numeral_of_readDigits read
    rw [readDigits_zero_of_numeral numeral] at read
    split at read
    next fits =>
      cases read
      exact ⟨fits, numeral⟩
    next => cases read
  · rintro ⟨fits, numeral⟩
    rw [readDigits_zero_of_numeral numeral, if_pos fits]

theorem Numeral.isDigit_of_mem {digits : List Char} {n : Nat} (numeral : Numeral radix digits n) :
    ∀ c ∈ digits, ∃ value, IsDigit c value := by
  induction numeral with
  | nil => simp
  | cons isDigit below others ih => exact List.forall_mem_cons.mpr ⟨⟨_, isDigit⟩, ih⟩

/-- Zeros in front make no difference. -/
theorem Numeral.zeros {digits : List Char} {n : Nat} (numeral : Numeral radix digits n)
    (positive : 0 < radix) (count : Nat) :
    Numeral radix (List.replicate count '0' ++ digits) n := by
  induction count with
  | zero => exact numeral
  | succ count ih =>
    have longer := Numeral.cons (.inl rfl : IsDigit '0' 0) positive ih
    rwa [Nat.zero_mul, Nat.zero_add] at longer

/-! ## Signs -/

theorem readNumber_plus {digits : List Char} (nonempty : digits ≠ []) :
    readNumber radix ('+' :: digits) = readDigits radix 0 digits := by
  obtain ⟨c, digits, rfl⟩ := List.exists_cons_of_ne_nil nonempty
  rfl

theorem readNumber_plain {digits : List Char} (nonempty : digits ≠ [])
    (unsigned : digits.head? ≠ some '+') :
    readNumber radix digits = readDigits radix 0 digits := by
  unfold readNumber
  split
  · exact absurd rfl nonempty
  · exact absurd rfl unsigned
  · exact absurd rfl unsigned
  · rfl

/-- A number that is written is read as what its numeral stands for, if that fits. -/
theorem IsNumber.readNumber_eq {text : List Char} {n : Nat} (number : IsNumber radix text n) :
    readNumber radix text = if n < wordLimit then .ok n else .error .tooLarge := by
  cases number with
  | plain nonempty numeral =>
    have unsigned : text.head? ≠ some '+' := by
      intro first
      obtain ⟨value, isDigit⟩ := numeral.isDigit_of_mem '+' (List.mem_of_head? first)
      exact not_isDigit_plus value isDigit
    rw [readNumber_plain nonempty unsigned, readDigits_zero_of_numeral numeral]
  | plus nonempty numeral => rw [readNumber_plus nonempty, readDigits_zero_of_numeral numeral]

theorem isNumber_of_readNumber {text : List Char} {n : Nat}
    (read : readNumber radix text = .ok n) : IsNumber radix text n := by
  by_cases empty : text = []
  · rw [empty] at read
    cases read
  by_cases signed : text.head? = some '+'
  · obtain ⟨digits, rfl⟩ := List.head?_eq_some_iff.mp signed
    by_cases bare : digits = []
    · rw [bare] at read
      cases read
    · rw [readNumber_plus bare, readDigits_ok_iff] at read
      exact .plus bare read.2
  · rw [readNumber_plain empty signed, readDigits_ok_iff] at read
    exact .plain empty read.2

end Radix

/-! ## Decimal numerals -/

theorem eq_digitChar_of_isDigit {c : Char} {value : Nat} (isDigit : IsDigit c value)
    (below : value < 10) : c = Nat.digitChar value := by
  have lower : ∀ value < 10, lowerDigits[value]? = some (Nat.digitChar value) := by decide
  have upper : ∀ value < 10, upperDigits[value]? = some (Nat.digitChar value) := by decide
  rcases isDigit with isLower | isUpper
  · rw [lower value below] at isLower
    exact (Option.some.inj isLower).symm
  · rw [upper value below] at isUpper
    exact (Option.some.inj isUpper).symm

theorem Numeral.isDigit {digits : List Char} {n : Nat} (numeral : Numeral 10 digits n) :
    ∀ c ∈ digits, c.isDigit = true := by
  have decimal : ∀ value < 10, (Nat.digitChar value).isDigit = true := by decide
  induction numeral with
  | nil => simp
  | cons isDigit below others ih =>
    rw [List.forall_mem_cons, eq_digitChar_of_isDigit isDigit below]
    exact ⟨decimal _ below, ih⟩

/-- Digits behind the numeral of a number above zero make the numeral of a greater one. -/
theorem toDigits_append_numeral {digits : List Char} {n value : Nat}
    (numeral : Numeral 10 digits n) (positive : 0 < value) :
    Nat.toDigits 10 value ++ digits = Nat.toDigits 10 (value * 10 ^ digits.length + n) := by
  induction numeral generalizing value with
  | nil => simp
  | @cons c digits digit n isDigit below others ih =>
    have longer := Nat.toDigits_append_toDigits (by decide : 1 < 10) positive below
    rw [Nat.toDigits_of_lt_base below, ← eq_digitChar_of_isDigit isDigit below] at longer
    rw [List.length_cons, shift_add, ← ih (by omega), ← longer, List.append_assoc,
      List.singleton_append]

/-! ## Markers -/

theorem hexDigits?_eq_some_iff {text rest : List Char} :
    hexDigits? text = some rest ↔ ∃ marker ∈ markers, text = marker ++ rest := by
  constructor
  · intro marked
    unfold hexDigits? at marked
    split at marked
    · cases marked
      exact ⟨['0', 'x'], by decide, rfl⟩
    · cases marked
      exact ⟨['0', 'X'], by decide, rfl⟩
    · cases marked
  · rintro ⟨marker, isMarker, rfl⟩
    simp only [markers, List.mem_cons, List.not_mem_nil, or_false] at isMarker
    obtain rfl | rfl := isMarker <;> rfl

theorem hexDigits?_eq_none_iff {text : List Char} :
    hexDigits? text = none ↔ ∀ marker ∈ markers, ¬ marker <+: text := by
  rw [Option.eq_none_iff_forall_ne_some]
  constructor
  · rintro none marker isMarker ⟨rest, rfl⟩
    exact none rest (hexDigits?_eq_some_iff.mpr ⟨marker, isMarker, rfl⟩)
  · intro unmarked rest marked
    obtain ⟨marker, isMarker, rfl⟩ := hexDigits?_eq_some_iff.mp marked
    exact unmarked marker isMarker (List.prefix_append marker rest)

theorem IsMarkedNumber.read_eq {text : List Char} {n : Nat} (number : IsMarkedNumber text n) :
    readMarkedNumber text = if n < wordLimit then .ok n else .error .tooLarge := by
  cases number with
  | @hexadecimal marker text _ isMarker number =>
    rw [readMarkedNumber, hexDigits?_eq_some_iff.mpr ⟨marker, isMarker, rfl⟩]
    exact number.readNumber_eq
  | decimal unmarked number =>
    rw [readMarkedNumber, hexDigits?_eq_none_iff.mpr unmarked]
    exact number.readNumber_eq

theorem isMarkedNumber_of_read {text : List Char} {n : Nat}
    (read : readMarkedNumber text = .ok n) : IsMarkedNumber text n := by
  unfold readMarkedNumber at read
  split at read
  next digits marked =>
    obtain ⟨marker, isMarker, rfl⟩ := hexDigits?_eq_some_iff.mp marked
    exact .hexadecimal isMarker (isNumber_of_readNumber read)
  next unmarked =>
    exact .decimal (hexDigits?_eq_none_iff.mp unmarked) (isNumber_of_readNumber read)

/-! ## Numbers as they are printed -/

theorem numeral_toDigits {radix n : Nat} (several : 1 < radix) (known : radix ≤ 16)
    (fits : n < wordLimit) : Numeral radix (Nat.toDigits radix n) n :=
  (readDigits_ok_iff.mp (readDigits_toDigits several known fits)).2

theorem isMarkedNumber_decimal {n : Nat} (fits : n < wordLimit) :
    IsMarkedNumber (decimal n).toList n := by
  rw [decimal, String.toList_ofList]
  have numeral := numeral_toDigits (by decide : 1 < 10) (by decide) fits
  exact .decimal (not_prefix_of_isDigit numeral.isDigit_of_mem) (.plain Nat.toDigits_ne_nil numeral)

theorem isMarkedNumber_hexadecimal {n : Nat} (fits : n < wordLimit) :
    IsMarkedNumber (hexadecimal n).toList n := by
  have isMarker : ['0', 'x'] ∈ markers := by decide
  have numeral := numeral_toDigits (by decide : 1 < 16) (by decide) fits
  have number := IsMarkedNumber.hexadecimal isMarker (.plain Nat.toDigits_ne_nil numeral)
  simpa [hexadecimal] using number

/-- A text is read as a number if and only if it is written as the grammar has it and the number
    fits in 64 bits; one that is too large is refused for this.  In particular what is printed for a
    number reads back, in decimal and in hexadecimal. -/
theorem readMarkedNumber_follows_grammar :
    (∀ (text : String) (n : Nat),
      readMarkedNumber text.toList = .ok n ↔ n < 2 ^ 64 ∧ IsMarkedNumber text.toList n) ∧
    (∀ (text : String) (n : Nat), IsMarkedNumber text.toList n → 2 ^ 64 ≤ n →
      readMarkedNumber text.toList = .error .tooLarge) ∧
    ∀ n < 2 ^ 64, readMarkedNumber (decimal n).toList = .ok n ∧
      readMarkedNumber (hexadecimal n).toList = .ok n := by
  have limit : wordLimit = 2 ^ 64 := rfl
  rw [← limit]
  refine ⟨?_, ?_, ?_⟩
  · intro text n
    constructor
    · intro read
      have number := isMarkedNumber_of_read read
      rw [number.read_eq] at read
      split at read
      next fits => exact ⟨fits, number⟩
      next => cases read
    · rintro ⟨fits, number⟩
      rw [number.read_eq, if_pos fits]
  · intro text n number large
    rw [number.read_eq, if_neg (Nat.not_lt.mpr large)]
  · intro n fits
    constructor
    · rw [(isMarkedNumber_decimal fits).read_eq, if_pos fits]
    · rw [(isMarkedNumber_hexadecimal fits).read_eq, if_pos fits]

/-- The least number that does not fit is refused behind a marker, a sign and zeros, and the number
    in front of it is read. -/
theorem readMarkedNumber_at_limit :
    IsMarkedNumber "0X+0010000000000000000".toList (2 ^ 64) ∧
      readMarkedNumber "0X+0010000000000000000".toList = .error .tooLarge ∧
      readMarkedNumber (decimal (2 ^ 64 - 1)).toList = .ok (2 ^ 64 - 1) := by
  obtain ⟨-, refused, printed⟩ := readMarkedNumber_follows_grammar
  have one : Numeral 16 ('1' :: List.replicate 16 '0') (1 * 16 ^ 16 + 0) :=
    .cons (.inl rfl) (by decide) (Numeral.nil.zeros (by decide) 16)
  have number := one.zeros (by decide) 2
  have large : IsMarkedNumber "0X+0010000000000000000".toList (2 ^ 64) :=
    @IsMarkedNumber.hexadecimal ['0', 'X'] _ _ (by decide) (.plus (List.cons_ne_nil _ _) number)
  exact ⟨large, refused _ _ large (Nat.le_refl _), (printed _ (by decide)).1⟩

end X86Length.Text
