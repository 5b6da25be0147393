import X86Length.Pattern.Tree
import X86Length.Text.Blank
import X86Length.Text.NumberReader

/-! # The smallest parts of a pattern

Everything that reads a pattern takes what is left of it, and gives what it has read with what is
left then.  Where a pattern is spaced, blanks and comments between its characters are left out. -/

namespace X86Length.Pattern

/-- What has been read, and what is left. -/
abbrev Read (α : Type) := α × List Char

/-- Something that cannot be read. -/
def fault {α : Type} (cause : Cause) (span : Span) : Except Fault α :=
  .error { cause, span }

/-! ## Blanks -/

/-- What is left behind blanks and comments, inside a comment or not.  A comment goes from a number
    sign to the end of its line. -/
def skipBlanks : Bool → List Char → List Char
  | _, [] => []
  | true, c :: rest => skipBlanks (c != '\n') rest
  | false, c :: rest =>
    if Text.isBlank c then skipBlanks false rest
    else if c == '#' then skipBlanks true rest
    else c :: rest

/-- What is left behind blanks, if they are left out. -/
def skip (spaced : Bool) (text : List Char) : List Char :=
  if spaced then skipBlanks false text else text

/-- What is left behind one character and the blanks that follow it. -/
def advance (spaced : Bool) (text : List Char) : List Char :=
  skip spaced (text.drop 1)

/-- At most so many leading characters that pass a test, and what is left. -/
def collectUpTo (spaced : Bool) (test : Char → Bool) : Nat → List Char → Read (List Char)
  | 0, rest => ([], rest)
  | _, [] => ([], [])
  | limit + 1, c :: rest =>
    if test c then
      let (taken, left) := collectUpTo spaced test limit (skip spaced rest)
      (c :: taken, left)
    else ([], c :: rest)

/-- The leading characters that pass a test, and what is left. -/
def collect (spaced : Bool) (test : Char → Bool) (text : List Char) : Read (List Char) :=
  collectUpTo spaced test text.length text

/-! ## Numbered characters -/

/-- The character of a number, if there is one. -/
def charOf? (code : Nat) : Option Char :=
  if code.isValidChar then some (Char.ofNat code) else none

/-- The number that digits make in a radix. -/
def valueOf (radix : Nat) (digits : List Char) : Nat :=
  (digits.filterMap Text.hexDigitValue?).foldl (radix * · + ·) 0

/-- Just so many hexadecimal digits. -/
def hexDigits (spaced : Bool) : Nat → Nat → List Char → Except Fault (Read Nat)
  | 0, value, rest => .ok (value, rest)
  | _, _, [] => fault .unclosedEscape (.before [])
  | count + 1, value, c :: rest =>
    match Text.hexDigitValue? c with
    | none => fault .invalidHexDigit (.first (c :: rest))
    | some digit => hexDigits spaced count (16 * value + digit) (skip spaced rest)

/-- The character whose number has just so many digits.  `start` is where the escape starts. -/
def fixedHex (spaced : Bool) (count : Nat) (start digits : List Char) :
    Except Fault (Read Literal) := do
  let (code, rest) ← hexDigits spaced count 0 digits
  match charOf? code with
  | none => fault .noScalarValue (.between digits rest)
  | some char => .ok ({ char, asByte := count = 2, span := .between start rest }, rest)

/-- The character whose number is between braces. -/
def bracedHex (spaced : Bool) (start brace : List Char) : Except Fault (Read Literal) :=
  let (digits, rest) :=
    collect spaced (fun c => (Text.hexDigitValue? c).isSome) (advance spaced brace)
  match rest with
  | [] => fault .unclosedEscape (.between brace [])
  | '}' :: _ =>
    let left := advance spaced rest
    if digits.isEmpty then fault .emptyHexNumber (.between brace left)
    else
      match charOf? (valueOf 16 digits) with
      | none => fault .noScalarValue (.between (brace.drop 1) rest)
      | some char => .ok ({ char, asByte := false, span := .between start left }, left)
  | _ => fault .invalidHexDigit (.first rest)

/-- A numbered character, whose number follows. -/
def numberedChar (spaced : Bool) (count : Nat) (start number : List Char) :
    Except Fault (Read Atom) := do
  let (it, rest) ←
    match number with
    | '{' :: _ => bracedHex spaced start number
    | _ => fixedHex spaced count start number
  .ok (.literal it, rest)

/-! ## Properties -/

/-- The name between braces, unless it gives a value to a property. -/
def plainName? (name : List Char) : Option (List Char) :=
  if name.any fun c => c == '=' || c == ':' then none else some name

/-- A class of characters that is named for a property. -/
def property (spaced : Bool) (start name : List Char) : Except Fault (Read Atom) :=
  match name with
  | [] => fault .unclosedEscape (.before [])
  | '{' :: _ =>
    match collect spaced (· != '}') (advance spaced name) with
    | (_, []) => fault .unclosedEscape (.before [])
    | (letters, _ :: rest) => .ok (.property (plainName? letters) (.between start rest), rest)
  | '\\' :: _ => fault .invalidProperty (.first name)
  | letter :: _ =>
    let rest := advance spaced name
    .ok (.property (some [letter]) (.between start rest), rest)

/-! ## Word boundaries -/

/-- The boundaries that have a name. -/
def namedBoundaries : List (String × Anchor) :=
  [ ("start", .wordStart), ("end", .wordEnd), ("start-half", .wordStartHalf),
    ("end-half", .wordEndHalf) ]

/-- A word boundary, with its name between braces or without.  Braces that hold no letter first are
    left: they belong to a repetition. -/
def boundary (spaced : Bool) (start rest : List Char) : Except Fault (Read Atom) :=
  let plain : Except Fault (Read Atom) := .ok (.anchor .wordBoundary (.between start rest), rest)
  let isLetter : Char → Bool := fun c => c.isAlpha || c == '-'
  match rest with
  | '{' :: _ =>
    let inner := advance spaced rest
    match inner with
    | [] => fault .unclosedBoundaryOrCount (.between start [])
    | c :: _ =>
      if isLetter c then
        let (name, left) := collect spaced isLetter inner
        match left with
        | '}' :: after =>
          match namedBoundaries.lookup (String.ofList name) with
          | none => fault .unknownBoundary (.between inner left)
          | some kind => .ok (.anchor kind (.between start after), after)
        | _ => fault .unclosedBoundary (.between rest left)
      else plain
  | _ => plain

/-! ## Escapes -/

/-- May a character stand for itself behind a backslash?  Letters, digits and angle brackets may
    not, as they mean something there or may come to. -/
def isEscapable (c : Char) : Bool :=
  c < '\x80' && !c.isAlphanum && c != '<' && c != '>'

/-- What a single letter behind a backslash stands for. -/
def letterEscape? (c : Char) (span : Span) : Option Atom :=
  match c with
  | 'd' => some (.letterClass .digit false span)
  | 's' => some (.letterClass .space false span)
  | 'w' => some (.letterClass .word false span)
  | 'D' => some (.letterClass .digit true span)
  | 'S' => some (.letterClass .space true span)
  | 'W' => some (.letterClass .word true span)
  | 'a' => some (.literal { char := '\x07', asByte := false, span })
  | 'f' => some (.literal { char := '\x0c', asByte := false, span })
  | 't' => some (.literal { char := '\t', asByte := false, span })
  | 'n' => some (.literal { char := '\n', asByte := false, span })
  | 'r' => some (.literal { char := '\r', asByte := false, span })
  | 'v' => some (.literal { char := '\x0b', asByte := false, span })
  | 'A' => some (.anchor .textStart span)
  | 'z' => some (.anchor .textEnd span)
  | 'B' => some (.anchor .noWordBoundary span)
  | '<' => some (.anchor .wordStart span)
  | '>' => some (.anchor .wordEnd span)
  | _ => none

/-- What a backslash at the start of a text begins. -/
def escape (spaced : Bool) (start : List Char) : Except Fault (Read Atom) :=
  match start.drop 1 with
  | [] => fault .unclosedEscape (.between start [])
  | c :: rest =>
    let span := Span.between start rest
    if c.isDigit then fault .backreference span
    else if c == 'x' then numberedChar spaced 2 start (skip spaced rest)
    else if c == 'u' then numberedChar spaced 4 start (skip spaced rest)
    else if c == 'U' then numberedChar spaced 8 start (skip spaced rest)
    else if c == 'p' || c == 'P' then property spaced start (skip spaced rest)
    else if c == 'b' then boundary spaced start rest
    else if isEscapable c then .ok (.literal { char := c, asByte := false, span }, rest)
    else
      match letterEscape? c span with
      | none => fault .unknownEscape span
      | some it => .ok (it, rest)

end X86Length.Pattern
