import X86Length.Pattern.Bracket
import X86Length.Pattern.Group

/-! # Reading patterns

A pattern is read from left to right.  The reader keeps the groups that are still open on a stack,
with what stands in front of each in the group around it. -/

namespace X86Length.Pattern

/-! ## Open groups -/

/-- A part of a group that is still being read. -/
structure Branch where
  -- The branches of the group that are complete, backwards.
  before : List Tree
  first : Nat
  -- The items of this branch, backwards.
  items : List Tree
  start : Nat

namespace Branch

/-- The first branch of a group, in front of a rest. -/
def fresh (rest : List Char) : Branch where
  before := []
  first := rest.length
  items := []
  start := rest.length

/-- One more item. -/
def push (branch : Branch) (item : Tree) : Branch :=
  { branch with items := item :: branch.items }

/-- The branches up to this one, which ends in front of a rest. -/
def complete (branch : Branch) (rest : List Char) : List Tree :=
  Tree.ofItems { start := branch.start, stop := rest.length } branch.items :: branch.before

/-- The next branch, behind the bar at the start of a text. -/
def next (branch : Branch) (bar : List Char) : Branch :=
  { branch with before := branch.complete bar, items := [], start := bar.length - 1 }

/-- All branches as one pattern, which ends in front of a rest. -/
def close (branch : Branch) (rest : List Char) : Tree :=
  Tree.ofBranches { start := branch.first, stop := rest.length } (branch.complete rest)

end Branch

/-- A group that is still open. -/
structure OpenGroup where
  around : Branch
  -- Are blanks left out around it?
  spaced : Bool
  changes : FlagChanges
  span : Span

/-! ## The reader -/

/-- What has been read of a pattern. -/
structure Reader where
  branch : Branch
  -- The groups that are open, from the innermost one outwards.
  outer : List OpenGroup
  names : GroupNames
  spaced : Bool

namespace Reader

/-- The reader in front of a pattern. -/
def initial (pattern : List Char) : Reader where
  branch := .fresh pattern
  outer := []
  names := []
  spaced := false

/-- One more item. -/
def push (reader : Reader) (item : Tree) : Reader :=
  { reader with branch := reader.branch.push item }

/-- A parenthesis that opens a group or sets flags. -/
def openGroup (reader : Reader) (start : List Char) : Except Fault (Read Reader) := do
  match ← readOpening reader.spaced reader.names start with
  | (.flags changes, rest) =>
    let spaced := (changes.setting? .spaced).getD reader.spaced
    .ok ({ reader.push (.flags changes (.between start rest)) with spaced }, rest)
  | (.group changes names, rest) =>
    let opened : OpenGroup :=
      { around := reader.branch, spaced := reader.spaced, changes, span := .first start }
    .ok ({ branch := .fresh rest, outer := opened :: reader.outer, names,
           spaced := (changes.setting? .spaced).getD reader.spaced }, rest)

/-- A parenthesis that closes a group. -/
def closeGroup (reader : Reader) (start : List Char) : Except Fault (Read Reader) :=
  match reader.outer with
  | [] => fault .unopenedGroup (.first start)
  | group :: outer =>
    let rest := start.drop 1
    let body := reader.branch.close start
    let span : Span := { start := group.span.start, stop := rest.length }
    let branch := group.around.push (.group group.changes body span)
    .ok ({ reader with branch, outer, spaced := group.spaced }, rest)

/-- The item that an operator at the start of a text repeats, and the items in front of it. -/
def lastItem (reader : Reader) (start : List Char) : Except Fault (Tree × List Tree) :=
  match reader.branch.items with
  | [] | .flags _ _ :: _ => fault .nothingToRepeat (.before start)
  | item :: items => .ok (item, items)

/-- An item repeated up to a rest, behind the items in front of it. -/
def pushRepeated (reader : Reader) (item : Tree) (items : List Tree) (count : Count)
    (rest : List Char) : Reader :=
  let span : Span := { start := item.span.start, stop := rest.length }
  { reader with
    branch := { reader.branch with
      items := .repeated count.least count.most item span :: items } }

/-- A repetition with an operator of one character and, maybe, a question mark behind it. -/
def repeatBy (reader : Reader) (count : Count) (start : List Char) :
    Except Fault (Read Reader) := do
  let (item, items) ← reader.lastItem start
  let rest :=
    match start.drop 1 with
    | '?' :: rest => rest
    | rest => rest
  .ok (reader.pushRepeated item items count rest, rest)

/-- A repetition with a count between braces. -/
def repeatCounted (reader : Reader) (start : List Char) : Except Fault (Read Reader) := do
  let (item, items) ← reader.lastItem start
  let (count, rest) ← readCount reader.spaced start
  .ok (reader.pushRepeated item items count rest, rest)

/-- An anchor or an atom at the start of a text. -/
def readAtom (spaced : Bool) : List Char → Except Fault (Read Atom)
  | [] => fault .unclosedEscape (.before [])
  | '\\' :: rest => escape spaced ('\\' :: rest)
  | c :: rest =>
    let span := Span.first (c :: rest)
    .ok (match c with
      | '.' => .dot span
      | '^' => .anchor .lineStart span
      | '$' => .anchor .lineEnd span
      | _ => .literal { char := c, asByte := false, span }, rest)

/-- What the first characters of a text add. -/
def step (reader : Reader) (start : List Char) : Except Fault (Read Reader) :=
  match start with
  | '(' :: _ => reader.openGroup start
  | ')' :: _ => reader.closeGroup start
  | '|' :: rest => .ok ({ reader with branch := reader.branch.next start }, rest)
  | '[' :: _ => (readSet reader.spaced start).map fun (set, rest) => (reader.push (.set set), rest)
  | '?' :: _ => reader.repeatBy { least := 0, most := some 1 } start
  | '*' :: _ => reader.repeatBy { least := 0, most := none } start
  | '+' :: _ => reader.repeatBy { least := 1, most := none } start
  | '{' :: _ => reader.repeatCounted start
  | _ => (readAtom reader.spaced start).map fun (it, rest) => (reader.push (.atom it), rest)

/-- The pattern that is complete at the end of the text. -/
def finish (reader : Reader) : Except Fault Tree :=
  match reader.outer with
  | [] => .ok (reader.branch.close [])
  | group :: _ => fault .unclosedGroup group.span

/-- The pattern that the rest of the text completes, in at most so many steps. -/
def run : Nat → Reader → List Char → Except Fault Tree
  | 0, reader, _ => reader.finish
  | limit + 1, reader, text =>
    match skip reader.spaced text with
    | [] => reader.finish
    | start =>
      match reader.step start with
      | .error wrong => .error wrong
      | .ok (next, rest) => run limit next rest

end Reader

/-- The tree of a pattern. -/
def Tree.read (pattern : List Char) : Except Fault Tree := do
  let tree ← Reader.run (pattern.length + 1) (.initial pattern) pattern
  tree.checkDepthFrom 0
  .ok tree

end X86Length.Pattern
