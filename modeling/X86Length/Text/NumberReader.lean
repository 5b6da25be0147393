import X86Length.Word

/-! # Reading numbers

A number is one or more digits with at most one `+` in front, and has to fit in 64 bits.  Digits
are looked at from the left: of a wrong character and an excess, the one that comes first is
reported. -/

namespace X86Length.Text

/-- Why a text is no number. -/
inductive NumberError where
  | empty
  | invalidDigit
  | tooLarge
  deriving DecidableEq, Repr

/-- The text of an error. -/
def NumberError.message : NumberError → String
  | empty => "cannot parse integer from empty string"
  | invalidDigit => "invalid digit found in string"
  | tooLarge => "number too large to fit in target type"

/-- The value of a hexadecimal digit of either case. -/
def hexDigitValue? (c : Char) : Option Nat :=
  if '0' ≤ c ∧ c ≤ '9' then some (c.toNat - '0'.toNat)
  else if 'a' ≤ c ∧ c ≤ 'f' then some (c.toNat - 'a'.toNat + 10)
  else if 'A' ≤ c ∧ c ≤ 'F' then some (c.toNat - 'A'.toNat + 10)
  else none

/-- The value of a digit in a radix of at most sixteen. -/
def digitValue? (radix : Nat) (c : Char) : Option Nat :=
  (hexDigitValue? c).filter (· < radix)

/-- The number that digits make behind a number read so far. -/
def readDigits (radix : Nat) : Nat → List Char → Except NumberError Nat
  | value, [] => .ok value
  | value, c :: rest =>
    match digitValue? radix c with
    | none => .error .invalidDigit
    | some digit =>
      if radix * value + digit < wordLimit then readDigits radix (radix * value + digit) rest
      else .error .tooLarge

/-- The number that a text stands for in a radix.  A sign alone has a wrong digit. -/
def readNumber (radix : Nat) : List Char → Except NumberError Nat
  | [] => .error .empty
  | ['+'] => .error .invalidDigit
  | '+' :: digits => readDigits radix 0 digits
  | digits => readDigits radix 0 digits

/-- The digits behind a hexadecimal marker, if there is one. -/
def hexDigits? : List Char → Option (List Char)
  | '0' :: 'x' :: digits => some digits
  | '0' :: 'X' :: digits => some digits
  | _ => none

/-- The number that a text stands for: hexadecimal behind a marker, else decimal. -/
def readMarkedNumber (text : List Char) : Except NumberError Nat :=
  match hexDigits? text with
  | some digits => readNumber 16 digits
  | none => readNumber 10 text

end X86Length.Text
