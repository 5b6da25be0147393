import X86Length.Pattern.Escape
import X86Length.Text.Letter

/-! # What opens a group, and how often something is repeated

A parenthesis opens a group, which may have a name or flags of its own, or sets flags for the rest
of the group that it stands in. -/

namespace X86Length.Pattern

/-! ## Flags -/

/-- Flags that have been read so far. -/
structure FlagReader where
  changes : FlagChanges := []
  places : List (Flag × Span) := []
  negation : Option Span := none

/-- Flags up to the colon or parenthesis behind them, which is left.  `dangling` is where a sign of
    negation stands that nothing follows yet. -/
def readFlags (reader : FlagReader) (dangling : Option Span) :
    List Char → Except Fault (Read FlagChanges)
  | [] => fault .unclosedFlags (.before [])
  | c :: rest =>
    let span := Span.first (c :: rest)
    if c == ':' || c == ')' then
      match dangling with
      | some sign => fault .danglingNegation sign
      | none => .ok (reader.changes, c :: rest)
    else if c == '-' then
      match reader.negation with
      | some earlier => .error { cause := .repeatedNegation, span, earlier := some earlier }
      | none => readFlags { reader with negation := some span } (some span) rest
    else
      match flagLetters.lookup c with
      | none => fault .unknownFlag span
      | some flag =>
        match reader.places.lookup flag with
        | some earlier => .error { cause := .repeatedFlag, span, earlier := some earlier }
        | none =>
          let changes := reader.changes ++ [(flag, reader.negation.isNone)]
          readFlags { reader with changes, places := (flag, span) :: reader.places } none rest

/-! ## Names -/

/-- The names of the groups so far, with their places. -/
abbrev GroupNames := List (List Char × Span)

/-- May a character stand in the name of a group? -/
def isNameChar (first : Bool) (c : Char) : Bool :=
  if first then Text.isLetter c || c == '_'
  else Text.isLetterOrNumber c || c == '_' || c == '.' || c == '[' || c == ']'

/-- The end of a name, behind what has been read of it.  `start` is where the name starts. -/
def readNameFrom (names : GroupNames) (start : List Char) : List Char → List Char →
    Except Fault (Read GroupNames)
  | _, [] => fault .unclosedGroupName (.before [])
  | taken, c :: rest =>
    if c == '>' then
      let name := taken.reverse
      let span := Span.between start (c :: rest)
      if name.isEmpty then fault .emptyGroupName (.before start)
      else
        match names.lookup name with
        | some earlier => .error { cause := .repeatedGroupName, span, earlier := some earlier }
        | none => .ok ((name, span) :: names, rest)
    else if isNameChar taken.isEmpty c then readNameFrom names start (c :: taken) rest
    else fault .invalidGroupName (.first (c :: rest))

/-! ## Groups -/

/-- What a parenthesis begins. -/
inductive Opening where
  | flags (changes : FlagChanges)
  -- A group with flags of its own, behind which the given names are taken.
  | group (changes : FlagChanges) (names : GroupNames)

/-- What is behind a question mark that asks what is ahead or behind, if one stands here. -/
def behindLookAround? : List Char → Option (List Char)
  | '?' :: '=' :: rest | '?' :: '!' :: rest => some rest
  | '?' :: '<' :: '=' :: rest | '?' :: '<' :: '!' :: rest => some rest
  | _ => none

/-- What a parenthesis at the start of a text begins. -/
def readOpening (spaced : Bool) (names : GroupNames) (start : List Char) :
    Except Fault (Read Opening) :=
  let inner := advance spaced start
  match behindLookAround? inner with
  | some rest => fault .lookAround (.between start rest)
  | none =>
    match inner with
    | '?' :: 'P' :: '<' :: name | '?' :: '<' :: name =>
      (readNameFrom names name [] name).map fun (names, rest) => (.group [] names, rest)
    | ['?'] => fault .unclosedGroup (.first start)
    | '?' :: text =>
      match readFlags {} none text with
      | .error wrong => .error wrong
      | .ok (changes, rest) =>
        if rest.head? == some ':' then .ok (.group changes names, rest.drop 1)
        else if changes.isEmpty then fault .nothingToRepeat (.before inner)
        else .ok (.flags changes, rest.drop 1)
    | _ => .ok (.group [] names, inner)

/-! ## Repetitions -/

/-- How often something is repeated. -/
structure Count where
  least : Nat
  most : Option Nat
  deriving DecidableEq, Repr

/-- The limit of the numbers in a count. -/
def countLimit : Nat := 4294967296

/-- A decimal number with blanks around it, and what is left whether it can be read or not. -/
def readCountNumber (spaced : Bool) (text : List Char) : Except Fault Nat × List Char :=
  let start := text.dropWhile Text.isBlank
  let (digits, rest) := collect spaced Char.isDigit start
  let value := valueOf 10 digits
  let number :=
    if digits.isEmpty then fault .missingCount (.between start rest)
    else if value < countLimit then .ok value
    else fault .excessiveCount (.between start rest)
  (number, rest.dropWhile Text.isBlank)

/-- The end of a count, up to the closing brace and a question mark behind it. -/
def closeCount (spaced : Bool) (start : List Char) (count : Count) :
    List Char → Except Fault (Read Count)
  | '}' :: rest =>
    let left :=
      match skip spaced rest with
      | '?' :: left => left
      | left => left
    if count.most.any (· < count.least) then fault .reversedCount (.between start left)
    else .ok (count, left)
  | rest => fault .unclosedCount (.between start rest)

/-- A count between braces at the start of a text.  That the first number is missing is reported
    only if the count goes on behind it. -/
def readCount (spaced : Bool) (start : List Char) : Except Fault (Read Count) :=
  let inner := advance spaced start
  let (first, rest) := readCountNumber spaced inner
  if inner.isEmpty || rest.isEmpty then fault .unclosedCount (.between start [])
  else if rest.head? == some ',' then
    let behind := advance spaced rest
    if behind.isEmpty then fault .unclosedCount (.between start [])
    else do
      let least ← first
      if behind.head? == some '}' then closeCount spaced start { least, most := none } behind
      else
        let (last, left) := readCountNumber spaced behind
        let most ← last
        closeCount spaced start { least, most := some most } left
  else do
    let least ← first
    closeCount spaced start { least, most := some least } rest

end X86Length.Pattern
