/-! # Numbers as text

Decimal and hexadecimal numerals without leading zeros, and the two digits of a byte. -/

namespace X86Length.Text

/-- The decimal numeral of a number. -/
def decimal (n : Nat) : String :=
  String.ofList (Nat.toDigits 10 n)

/-- The hexadecimal numeral of a number, in lower case, behind `0x`. -/
def hexadecimal (n : Nat) : String :=
  "0x" ++ String.ofList (Nat.toDigits 16 n)

/-- The two hexadecimal digits of a byte, in lower case. -/
def hexPair (byte : UInt8) : List Char :=
  [Nat.digitChar (byte.toNat / 16), Nat.digitChar (byte.toNat % 16)]

/-- The two hexadecimal digits of a byte as a text. -/
def hexByte (byte : UInt8) : String :=
  String.ofList (hexPair byte)

/-- The bytes of a list in hexadecimal, with a blank between each two. -/
def spacedHex (bytes : List UInt8) : String :=
  String.ofList (List.intercalate [' '] (bytes.map hexPair))

/-! ## Columns -/

/-- Blanks in front, up to a width; a longer text stays whole. -/
def alignRight (width : Nat) (text : String) : String :=
  String.ofList (List.replicate (width - text.length) ' ') ++ text

/-- Blanks behind, up to a width; a longer text stays whole. -/
def alignLeft (width : Nat) (text : String) : String :=
  text ++ String.ofList (List.replicate (width - text.length) ' ')

end X86Length.Text
