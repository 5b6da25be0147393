import X86Length.Pattern.Escape

/-! # Sets between brackets

A bracket holds characters, ranges, classes and further brackets, of which it is the union.  The
operations between such unions are carried out from left to right.  The reader keeps the brackets
that are still open on a stack. -/

namespace X86Length.Pattern

/-! ## Items -/

/-- What may stand at an end of a range: an escape, or any other character as it is. -/
def setAtom (spaced : Bool) : List Char → Except Fault (Read Atom)
  | [] => fault .unclosedSet (.before [])
  | '\\' :: rest => escape spaced ('\\' :: rest)
  | c :: rest => .ok (.literal { char := c, asByte := false, span := .first (c :: rest) }, rest)

/-- An atom as an item of a set. -/
def Atom.asItem : Atom → Except Fault SetTree
  | .literal it => .ok (.literal it)
  | .letterClass kind negated span => .ok (.letterClass kind negated span)
  | .property name span => .ok (.property name span)
  | .anchor _ span | .dot span => fault .invalidSetEscape span

/-- An atom as an end of a range. -/
def Atom.asEnd : Atom → Except Fault Literal
  | .literal it => .ok it
  | other => fault .invalidRangeEnd other.span

/-- The character behind a hyphen.  Of a comment, it is the first one behind the number sign. -/
def peek? (spaced : Bool) (text : List Char) : Option Char :=
  let found :=
    match text.dropWhile Text.isBlank with
    | '#' :: comment => comment.dropWhile Text.isBlank
    | other => other
  if spaced then found.head?.or text.head? else text.head?

/-- Does a range go on here?  A hyphen in front of a closing bracket stands for itself, and two of
    them are an operation. -/
def isRangeMark (spaced : Bool) : List Char → Bool
  | '-' :: rest => peek? spaced rest != some ']' && peek? spaced rest != some '-'
  | _ => false

/-- The range between two atoms. -/
def rangeOf (first last : Atom) : Except Fault SetTree := do
  let low ← first.asEnd
  let high ← last.asEnd
  let span : Span := { start := first.span.start, stop := last.span.stop }
  if high.char < low.char then fault .reversedRange span else .ok (.range low high span)

/-- An atom or a range.  `unclosed` is what is wrong if the pattern ends here. -/
def setItem (spaced : Bool) (unclosed : Fault) (text : List Char) :
    Except Fault (Read SetTree) := do
  let (first, rest) ← setAtom spaced text
  let left := skip spaced rest
  if left.isEmpty then .error unclosed
  else if isRangeMark spaced left then
    let behind := advance spaced left
    if behind.isEmpty then .error unclosed
    else do
      let (last, rest) ← setAtom spaced behind
      let item ← rangeOf first last
      .ok (item, rest)
  else do
    let item ← first.asItem
    .ok (item, left)

/-- A set by name, if one stands here. -/
def namedSet? (start : List Char) : Option (Read SetTree) :=
  match start with
  | '[' :: ':' :: text =>
    let negated := text.head? == some '^'
    let body := if negated then text.drop 1 else text
    match body.dropWhile (· != ':') with
    | ':' :: ']' :: rest =>
      (namedRanges.lookup (String.ofList (body.takeWhile (· != ':')))).map fun ranges =>
        (.named ranges negated (.between start rest), rest)
    | _ => none
  | _ => none

/-! ## Open brackets -/

/-- A bracket that is still open. -/
structure Bracket where
  span : Span
  negated : Bool
  -- The last operation, and what it is carried out on.
  pending : Option (SetOperation × SetTree)
  -- The items behind the last operation, backwards.
  items : List SetTree
  place : Nat

namespace Bracket

/-- The fault of a bracket that never closes. -/
def unclosed (bracket : Bracket) : Fault where
  cause := .unclosedSet
  span := bracket.span

/-- One more item. -/
def push (bracket : Bracket) (item : SetTree) : Bracket :=
  { bracket with items := item :: bracket.items }

/-- All that a bracket holds so far. -/
def body (bracket : Bracket) : SetTree :=
  let right := SetTree.ofItems bracket.place bracket.items
  match bracket.pending with
  | none => right
  | some (operation, left) =>
    .combined operation left right { start := left.span.start, stop := right.span.stop }

/-- An operation, behind which so much is left. -/
def operate (bracket : Bracket) (operation : SetOperation) (rest : List Char) : Bracket :=
  { bracket with pending := some (operation, bracket.body), items := [], place := rest.length }

/-- The set that is complete when so much is left. -/
def close (bracket : Bracket) (rest : List Char) : SetTree :=
  .bracket bracket.negated bracket.body { start := bracket.span.start, stop := rest.length }

end Bracket

/-- At most so many hyphens at the start of a bracket, which stand for themselves.  They are put in
    front of the items before them. -/
def openingHyphens (spaced : Bool) : Nat → List SetTree → List Char → Read (List SetTree)
  | limit + 1, items, '-' :: rest =>
    let item := SetTree.literal { char := '-', asByte := false, span := .first ('-' :: rest) }
    openingHyphens spaced limit (item :: items) (skip spaced rest)
  | _, items, rest => (items, rest)

/-- What opens a bracket: a negation, and hyphens or a closing bracket that stand for themselves. -/
def openBracket (spaced : Bool) (start : List Char) : Except Fault (Read Bracket) :=
  let text := advance spaced start
  let negated := text.head? == some '^'
  let inner := if negated then advance spaced text else text
  if inner.isEmpty then fault .unclosedSet (.between start [])
  else
    let (hyphens, rest) := openingHyphens spaced inner.length [] inner
    match hyphens, rest with
    | _ :: _, [] => fault .unclosedSet (.before start)
    | [], ']' :: _ =>
      let left := advance spaced rest
      let item := SetTree.literal { char := ']', asByte := false, span := .first rest }
      let span := Span.between start left
      if left.isEmpty then fault .unclosedSet span
      else .ok ({ span, negated, pending := none, items := [item], place := inner.length }, left)
    | items, _ =>
      let span := Span.between start rest
      .ok ({ span, negated, pending := none, items, place := inner.length }, rest)

/-! ## Reading -/

/-- The set that the outermost of the open brackets makes.  At most so many items are read. -/
def readBracket (spaced : Bool) : Nat → Bracket → List Bracket → List Char →
    Except Fault (Read SetTree)
  | 0, bracket, _, _ => .error bracket.unclosed
  | limit + 1, bracket, outer, text =>
    match skip spaced text with
    | [] => .error bracket.unclosed
    | '&' :: '&' :: rest =>
      readBracket spaced limit (bracket.operate .intersection rest) outer rest
    | '-' :: '-' :: rest =>
      readBracket spaced limit (bracket.operate .difference rest) outer rest
    | '~' :: '~' :: rest =>
      readBracket spaced limit (bracket.operate .symmetricDifference rest) outer rest
    | ']' :: rest =>
      match outer with
      | [] => .ok (bracket.close rest, rest)
      | parent :: outer => readBracket spaced limit (parent.push (bracket.close rest)) outer rest
    | '[' :: rest =>
      match namedSet? ('[' :: rest) with
      | some (item, rest) => readBracket spaced limit (bracket.push item) outer rest
      | none =>
        match openBracket spaced ('[' :: rest) with
        | .error wrong => .error wrong
        | .ok (inner, rest) => readBracket spaced limit inner (bracket :: outer) rest
    | start =>
      match setItem spaced bracket.unclosed start with
      | .error wrong => .error wrong
      | .ok (item, rest) => readBracket spaced limit (bracket.push item) outer rest

/-- The set that a bracket at the start of a text begins. -/
def readSet (spaced : Bool) (start : List Char) : Except Fault (Read SetTree) :=
  match openBracket spaced start with
  | .error wrong => .error wrong
  | .ok (bracket, rest) => readBracket spaced (rest.length + 1) bracket [] rest

end X86Length.Pattern
