/-! # Control sequences of terminals

A text may hold sequences that a terminal would obey instead of showing them: escape sequences,
control sequences, device control strings, commands to the operating system, and strings that are
private.  `visible` leaves out such sequences, and the control characters that are no blanks.

Blanks inside a sequence are shown.  What follows such a blank is shown too, up to the next control
character, and the sequence goes on behind it. -/

namespace X86Length.Text

/-- The parts of a control sequence or of the head of a device control string. -/
inductive SequencePart where
  | entry
  | parameters
  | intermediates
  | malformed
  deriving DecidableEq, Repr

/-- Where in a sequence a terminal is. -/
inductive Sequence where
  | outside
  | escape
  | escapeIntermediates
  | control (part : SequencePart)
  | device (part : SequencePart)
  -- In a string that a string terminator ends.
  | string
  -- In a command to the operating system, which a bell ends.
  | command
  deriving DecidableEq, Repr

namespace SequencePart

/-- The part behind one more character, or `none` behind the character that ends the sequence. -/
def next? (part : SequencePart) (c : Char) : Option SequencePart :=
  if c < ' ' || c == '\x7f' then some part
  else if c < '0' then some (if part = malformed then malformed else intermediates)
  else if c < '@' then
    match part with
    | entry => some parameters
    | parameters => some (if c < '<' then parameters else malformed)
    | intermediates | malformed => some malformed
  else none

end SequencePart

namespace Sequence

/-- Does a character hold the byte that ends a string?  It ends a string even inside a longer
    character. -/
def holdsTerminator (c : Char) : Bool :=
  (String.singleton c).toUTF8.toList.contains 0x9C

/-- The sequence that a character behind an escape character begins or ends. -/
def introduced (c : Char) : Sequence :=
  if c == '[' then control .entry
  else if c == ']' then command
  else if c == 'P' then device .entry
  else if c == 'X' || c == '^' || c == '_' then string
  else outside

/-- Where a terminal is behind one more character, unless it stays where it is. -/
def moved? (sequence : Sequence) (c : Char) : Option Sequence :=
  if c == '\x18' || c == '\x1a' then some outside
  else if c == '\x1b' then some escape
  else
    match sequence with
    | outside => if c < '\x80' then none else some outside
    | string => if holdsTerminator c then some outside else none
    | command => if c == '\x07' then some outside else none
    | escape =>
      if c < ' ' || '\x7f' ≤ c then none
      else if c < '0' then some escapeIntermediates
      else some (introduced c)
    | escapeIntermediates =>
      if c < '0' || '\x7f' ≤ c then none else some outside
    | control part =>
      if '\x80' ≤ c then none else some (((part.next? c).map control).getD outside)
    | device part =>
      if '\x80' ≤ c then none
      else
        match part.next? c with
        | some .malformed | none => some string
        | some other => some (device other)

/-- Is a character a blank that terminals carry out even inside a sequence? -/
def isObeyedBlank (c : Char) : Bool :=
  c == '\t' || c == '\n' || c == '\x0c' || c == '\r'

/-- Is a character shown? -/
def shows (sequence : Sequence) (c : Char) : Bool :=
  match sequence with
  | outside => (' ' ≤ c && c != '\x7f') || isObeyedBlank c
  | escape | escapeIntermediates | control _ => isObeyedBlank c
  | device _ | string | command => false

end Sequence

/-- What is shown of a text.  Behind a character that is shown, the next one is read as if it stood
    outside of the sequence. -/
def visibleFrom (shown : Bool) : Sequence → List Char → List Char
  | _, [] => []
  | sequence, c :: rest =>
    let place := if shown then Sequence.outside else sequence
    let next := (place.moved? c).getD sequence
    if place.shows c then c :: visibleFrom true next rest else visibleFrom false next rest

/-- What a terminal shows of a text. -/
def visible (text : String) : String :=
  String.ofList (visibleFrom false .outside text.toList)

end X86Length.Text
