import X86Length.Pattern.CharSet
import X86Length.Pattern.Fault

/-! # Patterns as they are written

The tree of a pattern keeps what was written and where.  What it means depends on the flags that
are in force, which the tree does not decide yet. -/

namespace X86Length.Pattern

/-! ## Leaves -/

/-- The settings that a pattern can change on its way. -/
inductive Flag where
  | anyCase
  -- Line anchors hold at every line.
  | lines
  | dotAll
  -- Repetitions prefer less.
  | preferLess
  -- The text is read as characters and not as bytes.
  | wide
  -- Lines end with a carriage return, a line feed or both.
  | returns
  | spaced
  deriving DecidableEq, Repr

/-- The letter of each flag. -/
def flagLetters : List (Char × Flag) :=
  [ ('i', .anyCase), ('m', .lines), ('s', .dotAll), ('U', .preferLess), ('u', .wide),
    ('R', .returns), ('x', .spaced) ]

/-- Flags with what they are set to. -/
abbrev FlagChanges := List (Flag × Bool)

/-- What a list of changes sets a flag to, if it does. -/
def FlagChanges.setting? (changes : FlagChanges) (flag : Flag) : Option Bool :=
  changes.lookup flag

/-- Conditions on a place of a text, which take no character. -/
inductive Anchor where
  | lineStart
  | lineEnd
  | textStart
  | textEnd
  | wordBoundary
  | noWordBoundary
  | wordStart
  | wordEnd
  | wordStartHalf
  | wordEndHalf
  deriving DecidableEq, Repr

/-- The classes of characters that have a letter of their own. -/
inductive LetterClass where
  | digit
  | space
  | word
  deriving DecidableEq, Repr

/-- A character that stands for itself. -/
structure Literal where
  char : Char
  -- Is it written as a byte, with just two hexadecimal digits?
  asByte : Bool
  span : Span
  deriving DecidableEq, Repr

/-- The smallest parts of a pattern.  An anchor may be written where a set allows none. -/
inductive Atom where
  | literal (it : Literal)
  | dot (span : Span)
  | anchor (kind : Anchor) (span : Span)
  | letterClass (kind : LetterClass) (negated : Bool) (span : Span)
  -- The characters with a property of the given name, or with a value of a property.
  | property (name : Option (List Char)) (span : Span)
  deriving DecidableEq, Repr

/-- Where an atom stands. -/
def Atom.span : Atom → Span
  | .literal it => it.span
  | dot span | anchor _ span | letterClass _ _ span | property _ span => span

/-! ## Sets -/

/-- A set between brackets, and what it is made of. -/
inductive SetTree where
  | empty (span : Span)
  | literal (it : Literal)
  | range (first last : Literal) (span : Span)
  | named (ranges : List (Char × Char)) (negated : Bool) (span : Span)
  | letterClass (kind : LetterClass) (negated : Bool) (span : Span)
  | property (name : Option (List Char)) (span : Span)
  | bracket (negated : Bool) (body : SetTree) (span : Span)
  | union (items : List SetTree) (span : Span)
  | combined (operation : SetOperation) (left right : SetTree) (span : Span)

namespace SetTree

/-- Where a set stands. -/
def span : SetTree → Span
  | .literal it => it.span
  | empty span | range _ _ span | named _ _ span | letterClass _ _ span | property _ span
  | bracket _ _ span | union _ span | combined _ _ _ span => span

/-- Items, given backwards, as one set.  Where there are none, the set stands at a place. -/
def ofItems (place : Nat) : List SetTree → SetTree
  | [] => empty { start := place, stop := place }
  | [item] => item
  | last :: before =>
    union (last :: before).reverse
      { start := (before.getLastD last).span.start, stop := last.span.stop }

end SetTree

/-! ## Patterns -/

/-- A pattern, and what it is made of. -/
inductive Tree where
  | empty (span : Span)
  | flags (changes : FlagChanges) (span : Span)
  | atom (it : Atom)
  | set (it : SetTree)
  | repeated (least : Nat) (most : Option Nat) (body : Tree) (span : Span)
  | group (changes : FlagChanges) (body : Tree) (span : Span)
  | sequence (items : List Tree) (span : Span)
  | choice (branches : List Tree) (span : Span)

namespace Tree

/-- Where a pattern stands. -/
def span : Tree → Span
  | .atom it => it.span
  | .set it => it.span
  | empty span | flags _ span | repeated _ _ _ span | group _ _ span | sequence _ span
  | choice _ span => span

/-- Items, given backwards, as one pattern. -/
def ofItems (span : Span) : List Tree → Tree
  | [] => empty span
  | [item] => item
  | items => sequence items.reverse span

/-- Branches, given backwards, as one pattern. -/
def ofBranches (span : Span) : List Tree → Tree
  | [branch] => branch
  | branches => choice branches.reverse span

end Tree

/-! ## Depth -/

/-- A fault where something stands too deep. -/
def checkDepth (depth : Nat) (span : Span) : Except Fault Unit :=
  if depthLimit < depth then .error { cause := .tooDeep, span } else .ok ()

mutual

/-- Is a set, which stands at some depth, nested too deep? -/
def SetTree.checkDepthFrom (depth : Nat) : SetTree → Except Fault Unit
  | .bracket _ body span => do
    checkDepth (depth + 1) span
    body.checkDepthFrom (depth + 1)
  | .union items span => do
    checkDepth (depth + 1) span
    checkItemDepths (depth + 1) items
  | .combined _ left right span => do
    checkDepth (depth + 1) span
    left.checkDepthFrom (depth + 1)
    right.checkDepthFrom (depth + 1)
  | _ => .ok ()

/-- Is one of several sets nested too deep? -/
def checkItemDepths (depth : Nat) : List SetTree → Except Fault Unit
  | [] => .ok ()
  | item :: rest => do
    item.checkDepthFrom depth
    checkItemDepths depth rest

end

mutual

/-- Is a pattern, which stands at some depth, nested too deep? -/
def Tree.checkDepthFrom (depth : Nat) : Tree → Except Fault Unit
  | .set set => set.checkDepthFrom depth
  | .repeated _ _ body span | .group _ body span => do
    checkDepth (depth + 1) span
    body.checkDepthFrom (depth + 1)
  | .sequence parts span | .choice parts span => do
    checkDepth (depth + 1) span
    checkPartDepths (depth + 1) parts
  | _ => .ok ()

/-- Is one of several patterns nested too deep? -/
def checkPartDepths (depth : Nat) : List Tree → Except Fault Unit
  | [] => .ok ()
  | part :: rest => do
    part.checkDepthFrom depth
    checkPartDepths depth rest

end

end X86Length.Pattern
