/-! # Sets of characters

A set is described by how it is put together.  `contains` is its meaning. -/

namespace X86Length.Pattern

/-- Operations that a bracket may hold between two sets. -/
inductive SetOperation where
  | intersection
  | difference
  | symmetricDifference
  deriving DecidableEq, Repr

/-- The description of a set of characters. -/
inductive CharSet where
  | empty
  -- The characters from the first to the last, both included.
  | range (first last : Char)
  | union (left right : CharSet)
  | combined (operation : SetOperation) (left right : CharSet)
  | complement (set : CharSet)
  -- What is in a set or differs from one in it by the case of an ASCII letter.
  | anyCase (set : CharSet)
  deriving DecidableEq, Repr

/-- Does an operation keep a character that is or is not in the two sets? -/
def SetOperation.keeps : SetOperation → Bool → Bool → Bool
  | intersection, left, right => left && right
  | difference, left, right => left && !right
  | symmetricDifference, left, right => left != right

/-- An ASCII letter in its other case; any other character as it is. -/
def otherCase (c : Char) : Char :=
  if c.isUpper then c.toLower else c.toUpper

namespace CharSet

/-- Is a character in a set? -/
def contains : CharSet → Char → Bool
  | empty, _ => false
  | range first last, c => decide (first ≤ c) && decide (c ≤ last)
  | union left right, c => left.contains c || right.contains c
  | combined operation left right, c => operation.keeps (left.contains c) (right.contains c)
  | complement set, c => !set.contains c
  | anyCase set, c => set.contains c || set.contains (otherCase c)

/-- The set of a single character. -/
def single (c : Char) : CharSet :=
  range c c

/-- The union of ranges. -/
def ofRanges (ranges : List (Char × Char)) : CharSet :=
  ranges.foldl (fun set range => set.union (.range range.1 range.2)) empty

/-- The set or its complement. -/
def negatedIf (negated : Bool) (set : CharSet) : CharSet :=
  if negated then set.complement else set

/-- Is a set, read as one of bytes, free of bytes beyond ASCII? -/
def isAscii (set : CharSet) : Bool :=
  (List.range' 128 128).all fun code => !set.contains (Char.ofNat code)

end CharSet

/-! ## Named sets -/

/-- The decimal digits of ASCII. -/
def digitRanges : List (Char × Char) := [('0', '9')]

/-- The blanks of ASCII, the vertical tab among them. -/
def spaceRanges : List (Char × Char) := [('\t', '\r'), (' ', ' ')]

/-- The characters of words in ASCII. -/
def wordRanges : List (Char × Char) := [('0', '9'), ('A', 'Z'), ('_', '_'), ('a', 'z')]

/-- Is a character one of a word in ASCII? -/
def isWordChar (c : Char) : Bool :=
  wordRanges.any fun range => decide (range.1 ≤ c) && decide (c ≤ range.2)

/-- The sets that a bracket may hold by name. -/
def namedRanges : List (String × List (Char × Char)) :=
  [ ("alnum", [('0', '9'), ('A', 'Z'), ('a', 'z')]),
    ("alpha", [('A', 'Z'), ('a', 'z')]),
    ("ascii", [('\x00', '\x7f')]),
    ("blank", [('\t', '\t'), (' ', ' ')]),
    ("cntrl", [('\x00', '\x1f'), ('\x7f', '\x7f')]),
    ("digit", digitRanges),
    ("graph", [('!', '~')]),
    ("lower", [('a', 'z')]),
    ("print", [(' ', '~')]),
    ("punct", [('!', '/'), (':', '@'), ('[', '\x60'), ('\x7b', '~')]),
    ("space", spaceRanges),
    ("upper", [('A', 'Z')]),
    ("word", wordRanges),
    ("xdigit", [('0', '9'), ('A', 'F'), ('a', 'f')]) ]

end X86Length.Pattern
