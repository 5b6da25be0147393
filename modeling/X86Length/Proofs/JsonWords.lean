import Mathlib.Data.List.TakeWhile
import X86Length.Json.Token

/-! # The words of JSON text

A number is a whole number, perhaps with a sign in front of it, and perhaps with a fraction and an
exponent behind it (`Number`).  The scanner takes just these words for numbers (`isNumeral_iff`),
and it knows the end of a word by the next character (`IsWordChar`). -/

namespace X86Length.Json

/-! ## Characters -/

/-- The white space between tokens. -/
def spaces : List Char :=
  [' ', '\n', '\t', '\r']

def IsDecimal (c : Char) : Prop :=
  '0' ≤ c ∧ c ≤ '9'

/-- A letter, a digit, a sign or a point: what may stand in a number or in a literal name. -/
def IsWordChar (c : Char) : Prop :=
  ('A' ≤ c ∧ c ≤ 'Z') ∨ ('a' ≤ c ∧ c ≤ 'z') ∨ IsDecimal c ∨ c ∈ ['+', '-', '.']

instance decidableIsDecimal (c : Char) : Decidable (IsDecimal c) :=
  inferInstanceAs (Decidable ('0' ≤ c ∧ c ≤ '9'))

instance decidableIsWordChar (c : Char) : Decidable (IsWordChar c) :=
  inferInstanceAs (Decidable
    (('A' ≤ c ∧ c ≤ 'Z') ∨ ('a' ≤ c ∧ c ≤ 'z') ∨ IsDecimal c ∨ c ∈ ['+', '-', '.']))

theorem isSpace_iff {c : Char} : isSpace c = true ↔ c ∈ spaces := by
  simp [isSpace, spaces, or_assoc]

theorem isDigit_iff {c : Char} : c.isDigit = true ↔ IsDecimal c := by
  simp [Char.isDigit, IsDecimal, Char.le_def]

theorem isWordChar_iff {c : Char} : isWordChar c = true ↔ IsWordChar c := by
  have upper : c.isUpper = decide ('A' ≤ c ∧ c ≤ 'Z') := rfl
  have lower : c.isLower = (decide ('a' ≤ c) && decide (c ≤ 'z')) := rfl
  have letter : c.isAlpha = (c.isUpper || c.isLower) := rfl
  simp [isWordChar, Char.isAlphanum, letter, upper, lower, isDigit_iff, IsWordChar, or_assoc]

/-! ## The grammar of numbers -/

/-- One digit at least, and nothing else. -/
def Digits (digits : List Char) : Prop :=
  digits ≠ [] ∧ ∀ c ∈ digits, IsDecimal c

/-- The digits of a whole number, without needless zeros in front. -/
inductive Whole : List Char → Prop where
  | zero : Whole ['0']
  | leading {first : Char} {others : List Char} (nonzero : first ≠ '0') (isDigit : IsDecimal first)
      (digits : ∀ c ∈ others, IsDecimal c) : Whole (first :: others)

/-- A fraction, or nothing. -/
inductive Fraction : List Char → Prop where
  | none : Fraction []
  | point {digits : List Char} (isDigits : Digits digits) : Fraction ('.' :: digits)

/-- An exponent, or nothing. -/
inductive Exponent : List Char → Prop where
  | none : Exponent []
  | plain {letter : Char} {digits : List Char} (isLetter : letter = 'e' ∨ letter = 'E')
      (isDigits : Digits digits) : Exponent (letter :: digits)
  | signed {letter sign : Char} {digits : List Char} (isLetter : letter = 'e' ∨ letter = 'E')
      (isSign : sign = '+' ∨ sign = '-') (isDigits : Digits digits) :
      Exponent (letter :: sign :: digits)

/-- A number as JSON writes it. -/
inductive Number : List Char → Prop where
  | plain {whole fraction exponent : List Char} (isWhole : Whole whole)
      (isFraction : Fraction fraction) (isExponent : Exponent exponent) :
      Number (whole ++ (fraction ++ exponent))
  | negative {whole fraction exponent : List Char} (isWhole : Whole whole)
      (isFraction : Fraction fraction) (isExponent : Exponent exponent) :
      Number ('-' :: (whole ++ (fraction ++ exponent)))

/-! ## Where digits end -/

theorem digits_iff {digits : List Char} :
    (!digits.isEmpty && digits.all Char.isDigit) = true ↔ Digits digits := by
  simp [Digits, isDigit_iff]

theorem IsDecimal.ne {c other : Char} (isDigit : IsDecimal c) (noDigit : other.isDigit = false) :
    c ≠ other := by
  rintro rfl
  rw [isDigit_iff.mpr isDigit] at noDigit
  cases noDigit

/-- Digits are cut off where anything else follows. -/
theorem span_digits {digits rest : List Char} (isDigits : ∀ c ∈ digits, IsDecimal c)
    (ends : ∀ c ∈ rest.head?, c.isDigit = false) :
    (digits ++ rest).takeWhile Char.isDigit = digits ∧
      (digits ++ rest).dropWhile Char.isDigit = rest := by
  have all : ∀ c ∈ digits, c.isDigit = true := fun c isIn => isDigit_iff.mpr (isDigits c isIn)
  rw [List.takeWhile_append_of_pos all, List.dropWhile_append_of_pos all]
  cases rest with
  | nil => simp
  | cons c rest => simp [ends c rfl]

theorem isDecimal_of_mem_takeWhile {word : List Char} :
    ∀ c ∈ word.takeWhile Char.isDigit, IsDecimal c :=
  fun _ isIn => isDigit_iff.mp (List.mem_takeWhile_imp isIn)

theorem Exponent.head {word : List Char} (exponent : Exponent word) :
    ∀ c ∈ word.head?, c = 'e' ∨ c = 'E' := by
  cases exponent with
  | none => simp
  | plain isLetter _ | signed isLetter _ _ => simpa using isLetter

/-- Behind the digits of a whole number stands a point or the letter of an exponent. -/
theorem head_fraction_append {fraction exponent : List Char} (isFraction : Fraction fraction)
    (isExponent : Exponent exponent) :
    ∀ c ∈ (fraction ++ exponent).head?, c.isDigit = false := by
  cases isFraction with
  | none =>
    intro c first
    obtain rfl | rfl := isExponent.head c first <;> decide
  | point => simp

/-! ## What the scanner takes for a number -/

theorem isExponent_iff {word : List Char} : isExponent word = true ↔ Exponent word := by
  constructor
  · intro exponent
    unfold isExponent at exponent
    split at exponent
    next => exact .none
    next letter rest =>
      rw [Bool.and_eq_true] at exponent
      have isLetter : letter = 'e' ∨ letter = 'E' := by simpa using exponent.1
      obtain ⟨-, digits⟩ := exponent
      split at digits
      next => exact .signed isLetter (.inl rfl) (digits_iff.mp digits)
      next => exact .signed isLetter (.inr rfl) (digits_iff.mp digits)
      next => exact .plain isLetter (digits_iff.mp digits)
  · intro exponent
    cases exponent with
    | none => rfl
    | @plain letter digits isLetter isDigits =>
      obtain ⟨first, others, rfl⟩ := List.exists_cons_of_ne_nil isDigits.1
      have isFirst := isDigits.2 first List.mem_cons_self
      have noPlus := isFirst.ne (show '+'.isDigit = false by decide)
      have noMinus := isFirst.ne (show '-'.isDigit = false by decide)
      have all := digits_iff.mpr isDigits
      obtain rfl | rfl := isLetter <;> simpa [isExponent, noPlus, noMinus] using all
    | signed isLetter isSign isDigits =>
      have all := digits_iff.mpr isDigits
      obtain rfl | rfl := isLetter <;> obtain rfl | rfl := isSign <;> simpa [isExponent] using all

theorem isFractionExponent_iff {word : List Char} :
    isFractionExponent word = true ↔
      ∃ fraction exponent, word = fraction ++ exponent ∧ Fraction fraction ∧ Exponent exponent := by
  constructor
  · intro known
    unfold isFractionExponent at known
    split at known
    next rest =>
      rw [Bool.and_eq_true, isExponent_iff] at known
      refine ⟨'.' :: rest.takeWhile Char.isDigit, rest.dropWhile Char.isDigit, ?_, .point ?_,
        known.2⟩
      · rw [List.cons_append, List.takeWhile_append_dropWhile]
      · exact ⟨by simpa using known.1, isDecimal_of_mem_takeWhile⟩
    next => exact ⟨[], word, rfl, .none, isExponent_iff.mp known⟩
  · rintro ⟨fraction, exponent, rfl, isFraction, known⟩
    have isExponent := isExponent_iff.mpr known
    cases isFraction with
    | none =>
      cases known with
      | none => rfl
      | plain isLetter | signed isLetter =>
        obtain rfl | rfl := isLetter <;> exact isExponent
    | @point digits isDigits =>
      have ends := head_fraction_append .none known
      obtain ⟨front, behind⟩ := span_digits isDigits.2 ends
      rw [List.nil_append] at front behind
      simp [isFractionExponent, front, behind, isExponent, isDigits.1]

theorem isWhole_iff {word : List Char} : isWhole word = true ↔ Whole word := by
  constructor
  · intro whole
    unfold isWhole at whole
    split at whole
    next => cases whole
    next => exact .zero
    next first others _ =>
      simp only [Bool.and_eq_true, bne_iff_ne, List.all_eq_true, isDigit_iff] at whole
      exact .leading whole.1.1 whole.1.2 whole.2
  · intro whole
    cases whole with
    | zero => rfl
    | leading nonzero isDigit digits =>
      simpa [isWhole, nonzero, isDigit_iff.mpr isDigit, isDigit_iff] using digits

theorem Whole.digits {word : List Char} (whole : Whole word) : Digits word := by
  cases whole with
  | zero => exact ⟨List.cons_ne_nil _ _, by simp [IsDecimal]⟩
  | leading _ isDigit digits =>
    exact ⟨List.cons_ne_nil _ _, List.forall_mem_cons.mpr ⟨isDigit, digits⟩⟩

/-- A number without a sign is cut at the end of its whole part. -/
theorem isUnsigned_iff {word : List Char} :
    (isWhole (word.takeWhile Char.isDigit) &&
        isFractionExponent (word.dropWhile Char.isDigit)) = true ↔
      ∃ whole fraction exponent, word = whole ++ (fraction ++ exponent) ∧ Whole whole ∧
        Fraction fraction ∧ Exponent exponent := by
  rw [Bool.and_eq_true, isWhole_iff, isFractionExponent_iff]
  constructor
  · rintro ⟨isWhole, fraction, exponent, behind, isFraction, isExponent⟩
    refine ⟨_, fraction, exponent, ?_, isWhole, isFraction, isExponent⟩
    rw [← behind, List.takeWhile_append_dropWhile]
  · rintro ⟨whole, fraction, exponent, rfl, isWhole, isFraction, isExponent⟩
    obtain ⟨front, behind⟩ :=
      span_digits isWhole.digits.2 (head_fraction_append isFraction isExponent)
    rw [front, behind]
    exact ⟨isWhole, fraction, exponent, rfl, isFraction, isExponent⟩

theorem isNumeral_iff {word : List Char} : isNumeral word = true ↔ Number word := by
  unfold isNumeral
  constructor
  · intro numeral
    split at numeral
    next rest =>
      obtain ⟨whole, fraction, exponent, rfl, isWhole, isFraction, isExponent⟩ :=
        isUnsigned_iff.mp numeral
      exact .negative isWhole isFraction isExponent
    next =>
      obtain ⟨whole, fraction, exponent, rfl, isWhole, isFraction, isExponent⟩ :=
        isUnsigned_iff.mp numeral
      exact .plain isWhole isFraction isExponent
  · intro number
    cases number with
    | negative isWhole isFraction isExponent =>
      exact isUnsigned_iff.mpr ⟨_, _, _, rfl, isWhole, isFraction, isExponent⟩
    | plain isWhole isFraction isExponent =>
      have unsigned := isUnsigned_iff.mpr ⟨_, _, _, rfl, isWhole, isFraction, isExponent⟩
      split
      next rest same =>
        -- The first character is a digit.
        obtain ⟨nonempty, digits⟩ := isWhole.digits
        obtain ⟨first, others, rfl⟩ := List.exists_cons_of_ne_nil nonempty
        have isFirst := digits first List.mem_cons_self
        exact absurd (List.cons.inj same).1 (isFirst.ne (by decide))
      next => exact unsigned

/-! ## The characters of a number -/

theorem Digits.isWordChar {digits : List Char} (isDigits : Digits digits) :
    ∀ c ∈ digits, IsWordChar c :=
  fun c isIn => .inr (.inr (.inl (isDigits.2 c isIn)))

theorem Fraction.isWordChar {word : List Char} (fraction : Fraction word) :
    ∀ c ∈ word, IsWordChar c := by
  cases fraction with
  | none => simp
  | point isDigits => exact List.forall_mem_cons.mpr ⟨by decide, isDigits.isWordChar⟩

theorem Exponent.isWordChar {word : List Char} (exponent : Exponent word) :
    ∀ c ∈ word, IsWordChar c := by
  have ofLetter {letter : Char} (isLetter : letter = 'e' ∨ letter = 'E') : IsWordChar letter := by
    obtain rfl | rfl := isLetter <;> decide
  cases exponent with
  | none => simp
  | plain isLetter isDigits =>
    exact List.forall_mem_cons.mpr ⟨ofLetter isLetter, isDigits.isWordChar⟩
  | signed isLetter isSign isDigits =>
    rw [List.forall_mem_cons, List.forall_mem_cons]
    refine ⟨ofLetter isLetter, ?_, isDigits.isWordChar⟩
    obtain rfl | rfl := isSign <;> decide

theorem Number.isWordChar {word : List Char} (number : Number word) :
    ∀ c ∈ word, IsWordChar c := by
  cases number with
  | plain isWhole isFraction isExponent =>
    rw [List.forall_mem_append, List.forall_mem_append]
    exact ⟨isWhole.digits.isWordChar, isFraction.isWordChar, isExponent.isWordChar⟩
  | negative isWhole isFraction isExponent =>
    rw [List.forall_mem_cons, List.forall_mem_append, List.forall_mem_append]
    exact ⟨by decide, isWhole.digits.isWordChar, isFraction.isWordChar, isExponent.isWordChar⟩

end X86Length.Json
