import X86Length.Text.Numeral

/-! # What is wrong with a pattern

A fault has a cause and a place in the pattern.  `Fault.message` shows the pattern with the place
marked below it. -/

namespace X86Length.Pattern

/-! ## Places -/

/-- A part of a pattern.  Its ends are given by how many characters of the pattern are left there,
    so that a reader that holds what is left needs no other position. -/
structure Span where
  start : Nat
  stop : Nat
  deriving DecidableEq, Repr

namespace Span

/-- The part between two rests of a pattern. -/
def between (start stop : List Char) : Span where
  start := start.length
  stop := stop.length

/-- The first character of a rest. -/
def first (rest : List Char) : Span :=
  between rest (rest.drop 1)

/-- The place in front of a rest. -/
def before (rest : List Char) : Span :=
  between rest rest

end Span

/-! ## Causes -/

/-- How deep parentheses and brackets may be nested. -/
def depthLimit : Nat := 250

/-- What can be wrong at a place of a pattern. -/
inductive Cause where
  | unclosedGroup
  | unopenedGroup
  | lookAround
  | unclosedGroupName
  | invalidGroupName
  | emptyGroupName
  | repeatedGroupName
  | unclosedFlags
  | unknownFlag
  | repeatedFlag
  | repeatedNegation
  | danglingNegation
  | nothingToRepeat
  | unclosedCount
  | missingCount
  | excessiveCount
  | reversedCount
  | unclosedEscape
  | unknownEscape
  | backreference
  | invalidHexDigit
  | emptyHexNumber
  | noScalarValue
  | invalidProperty
  | unclosedBoundary
  | unknownBoundary
  | unclosedBoundaryOrCount
  | unclosedSet
  | invalidSetEscape
  | reversedRange
  | invalidRangeEnd
  | tooDeep
  | invalidEncoding
  | notInBytes
  | unknownProperty
  | unknownPropertyValue
  | noWideClasses
  | noWideCases
  deriving DecidableEq, Repr

/-- The text of a cause. -/
def Cause.message : Cause → String
  | unclosedGroup => "unclosed group"
  | unopenedGroup => "unopened group"
  | lookAround => "look-around, including look-ahead and look-behind, is not supported"
  | unclosedGroupName => "unclosed capture group name"
  | invalidGroupName => "invalid capture group character"
  | emptyGroupName => "empty capture group name"
  | repeatedGroupName => "duplicate capture group name"
  | unclosedFlags => "expected flag but got end of regex"
  | unknownFlag => "unrecognized flag"
  | repeatedFlag => "duplicate flag"
  | repeatedNegation => "flag negation operator repeated"
  | danglingNegation => "dangling flag negation operator"
  | nothingToRepeat => "repetition operator missing expression"
  | unclosedCount => "unclosed counted repetition"
  | missingCount => "repetition quantifier expects a valid decimal"
  | excessiveCount => "decimal literal invalid"
  | reversedCount => "invalid repetition count range, the start must be <= the end"
  | unclosedEscape => "incomplete escape sequence, reached end of pattern prematurely"
  | unknownEscape => "unrecognized escape sequence"
  | backreference => "backreferences are not supported"
  | invalidHexDigit => "invalid hexadecimal digit"
  | emptyHexNumber => "hexadecimal literal empty"
  | noScalarValue => "hexadecimal literal is not a Unicode scalar value"
  | invalidProperty => "invalid Unicode character class"
  | unclosedBoundary =>
    "special word boundary assertion is either unclosed or contains an invalid character"
  | unknownBoundary =>
    "unrecognized special word boundary assertion, " ++
      "valid choices are: start, end, start-half or end-half"
  | unclosedBoundaryOrCount =>
    "found either the beginning of a special word boundary or a bounded repetition on a \\b " ++
      "with an opening brace, but no closing brace"
  | unclosedSet => "unclosed character class"
  | invalidSetEscape => "invalid escape sequence found in character class"
  | reversedRange => "invalid character class range, the start must be <= the end"
  | invalidRangeEnd => "invalid range boundary, must be a literal"
  | tooDeep =>
    "exceed the maximum number of nested parentheses/brackets (" ++ Text.decimal depthLimit ++ ")"
  | invalidEncoding => "pattern can match invalid UTF-8"
  | notInBytes => "Unicode not allowed here"
  | unknownProperty => "Unicode property not found"
  | unknownPropertyValue => "Unicode property value not found"
  | noWideClasses =>
    "Unicode-aware Perl class not found (make sure the unicode-perl feature is enabled)"
  | noWideCases =>
    "Unicode-aware case insensitivity matching is not available " ++
      "(make sure the unicode-case feature is enabled)"

/-- Something that is wrong at a place of a pattern. -/
structure Fault where
  cause : Cause
  span : Span
  -- Where the same thing stands already, if it must not stand twice.
  earlier : Option Span := none
  deriving DecidableEq, Repr

/-! ## Showing a place -/

/-- A line and a column, both from zero on. -/
structure Spot where
  line : Nat
  -- How many characters of the line are before.
  column : Nat
  deriving DecidableEq, Repr

/-- The spot of a pattern at which so many characters are left. -/
def Spot.of (pattern : List Char) (left : Nat) : Spot :=
  let before := pattern.take (pattern.length - left)
  { line := before.count '\n', column := (before.reverse.takeWhile (· != '\n')).length }

/-- A line without the carriage return in front of a line feed. -/
def withoutReturn (line : List Char) : List Char :=
  if line.getLast? = some '\r' then line.dropLast else line

/-- The lines of a text.  A line feed at the end starts no further line. -/
def linesOf (text : List Char) : List (List Char) :=
  let pieces := text.splitOn '\n'
  pieces.dropLast.map withoutReturn ++ [pieces.getLastD []].filter fun last => !last.isEmpty

/-- Marks below some columns of a line, from a column on.  Each pair is marked at least once. -/
def marksFrom (column : Nat) : List (Nat × Nat) → List Char
  | [] => []
  | (start, stop) :: rest =>
    let blank := start - column
    let width := max 1 (stop - start)
    List.replicate blank ' ' ++ List.replicate width '^' ++ marksFrom (column + blank + width) rest

/-- A line and, if something is marked in it, the marks below it. -/
def markedLine (label : String) (line : List Char) (marks : List (Nat × Nat)) : String :=
  label ++ String.ofList line ++ "\n" ++
    if marks.isEmpty then ""
    else String.ofList (List.replicate label.length ' ' ++ marksFrom 0 marks) ++ "\n"

/-- The label of a line: its number, or nothing but a margin if there is a single line. -/
def lineLabel (width line : Nat) : String :=
  if width = 0 then "    " else Text.alignRight width (Text.decimal (line + 1)) ++ ": "

namespace Fault

/-- The places to mark, from left to right. -/
def places (fault : Fault) (pattern : List Char) : List (Spot × Spot) :=
  let spans :=
    match fault.earlier with
    | none => [fault.span]
    | some earlier =>
      if earlier.start < fault.span.start then [fault.span, earlier] else [earlier, fault.span]
  spans.map fun span => (Spot.of pattern span.start, Spot.of pattern span.stop)

/-- The marked lines of a pattern. -/
def excerpt (fault : Fault) (pattern : List Char) : String :=
  let count := pattern.count '\n' + 1
  let width := if count = 1 then 0 else (Text.decimal count).length
  let marks := (fault.places pattern).filter fun (start, stop) => start.line = stop.line
  String.join ((linesOf pattern).mapIdx fun line text =>
    markedLine (lineLabel width line) text
      ((marks.filter (·.1.line = line)).map fun (start, stop) => (start.column, stop.column)))

/-- Notes on the places that go over several lines, each note on a line of its own. -/
def notes (fault : Fault) (pattern : List Char) : String :=
  String.join (((fault.places pattern).filter fun (start, stop) => start.line ≠ stop.line).map
    fun (start, stop) =>
      "on line " ++ Text.decimal (start.line + 1) ++
        " (column " ++ Text.decimal (start.column + 1) ++
        ") through line " ++ Text.decimal (stop.line + 1) ++
        " (column " ++ Text.decimal stop.column ++ ")\n")

/-- The text of a fault in a pattern. -/
def message (fault : Fault) (pattern : List Char) : String :=
  let divider := if pattern.contains '\n' then String.ofList (List.replicate 79 '~') ++ "\n" else ""
  "regex parse error:\n" ++ divider ++ fault.excerpt pattern ++ divider ++ fault.notes pattern ++
    "error: " ++ fault.cause.message

end Fault

end X86Length.Pattern
