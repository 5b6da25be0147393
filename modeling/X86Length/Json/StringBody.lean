import X86Length.Text.NumberReader

/-! # Strings in JSON

The body of a string is written with escapes.  `escaped` writes a text, escaping only what has to
be escaped; `unescaped?` reads every way of writing.  A character beyond the first plane may be
written as a pair of numbered surrogates, and a surrogate without its partner stands for nothing. -/

namespace X86Length.Json

/-! ## Writing -/

/-- One character as it is written in a string. -/
def escapedChar (c : Char) : List Char :=
  if c == '"' || c == '\\' then ['\\', c]
  else if c == '\x08' then ['\\', 'b']
  else if c == '\x0c' then ['\\', 'f']
  else if c == '\n' then ['\\', 'n']
  else if c == '\r' then ['\\', 'r']
  else if c == '\t' then ['\\', 't']
  else if c < ' ' then
    ['\\', 'u', '0', '0', Nat.digitChar (c.toNat / 16), Nat.digitChar (c.toNat % 16)]
  else [c]

/-- A text as it is written in a string. -/
def escaped (text : List Char) : List Char :=
  text.flatMap escapedChar

/-! ## Reading -/

/-- The number that four hexadecimal digits make. -/
def unit? (digits : List Char) : Option Nat :=
  (Text.readDigits 16 0 digits).toOption

/-- Is a unit the first of a surrogate pair? -/
def isHighSurrogate (unit : Nat) : Bool :=
  decide (0xD800 ≤ unit) && decide (unit < 0xDC00)

/-- Is a unit the second of a surrogate pair? -/
def isLowSurrogate (unit : Nat) : Bool :=
  decide (0xDC00 ≤ unit) && decide (unit < 0xE000)

/-- The character that a surrogate pair stands for. -/
def joinSurrogates (high low : Nat) : Char :=
  Char.ofNat (0x10000 + 0x400 * (high - 0xD800) + (low - 0xDC00))

/-- The character that a backslash and a letter stand for. -/
def escapeLetter? (c : Char) : Option Char :=
  if c == '"' || c == '\\' || c == '/' then some c
  else if c == 'b' then some '\x08'
  else if c == 'f' then some '\x0c'
  else if c == 'n' then some '\n'
  else if c == 'r' then some '\r'
  else if c == 't' then some '\t'
  else none

/-- The text of the rest of a body, behind the first half of a surrogate pair if there is one. -/
def unescapedFrom? : Option Nat → List Char → Option (List Char)
  | none, [] => some []
  | some _, [] => none
  | pending, '\\' :: 'u' :: a :: b :: c :: d :: rest =>
    match pending, unit? [a, b, c, d] with
    | _, none => none
    | none, some unit =>
      if isLowSurrogate unit then none
      else if isHighSurrogate unit then unescapedFrom? (some unit) rest
      else (unescapedFrom? none rest).map (Char.ofNat unit :: ·)
    | some high, some low =>
      if isLowSurrogate low then (unescapedFrom? none rest).map (joinSurrogates high low :: ·)
      else none
  | some _, _ => none
  | none, '\\' :: letter :: rest =>
    match escapeLetter? letter with
    | none => none
    | some c => (unescapedFrom? none rest).map (c :: ·)
  | none, c :: rest => (unescapedFrom? none rest).map (c :: ·)

/-- The text that the body of a string stands for. -/
def unescaped? (body : List Char) : Option (List Char) :=
  unescapedFrom? none body

end X86Length.Json
