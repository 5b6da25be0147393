import X86Length.Pattern.Matching
import X86Length.Pattern.Reader

/-! # Patterns

A pattern is a regular expression that may be found anywhere in a text.  A text is read as a
pattern in two steps, its tree and the form of that, and the form must not need more than there
is: not the classes of words beyond ASCII, and not too much memory. -/

namespace X86Length

/-- A pattern to look for. -/
structure Pattern where
  form : Pattern.Form
  deriving DecidableEq, Repr

namespace Pattern

/-- Why a text is no pattern. -/
inductive Error where
  | fault (it : Fault)
  -- It has a word boundary that is not about ASCII.
  | wideWords
  | tooLarge
  deriving DecidableEq, Repr

/-! ## Limits -/

/-- How many bytes the automaton of a pattern may take. -/
def sizeLimit : Nat := 10485760

/-- The bytes of a state of an automaton. -/
def stateSize : Nat := 32

/-- The bytes of a state from which two ways lead on. -/
def forkSize : Nat := stateSize + 8

/-- About how many bytes the automaton of a form takes: a state for each byte of a character, and
    as many copies of what is repeated as there may be. -/
def Form.size : Form → Nat
  | empty => 0
  | char (.range first last) =>
    if first = last then stateSize * first.utf8Size else 2 * stateSize + 8
  | char _ => 2 * stateSize + 8
  | place _ => stateSize
  | append first second => first.size + second.size
  | either first second => forkSize + first.size + second.size
  | repeated least most body =>
    match most with
    | none => max least 1 * body.size + forkSize
    | some most => least * body.size + (most - least) * (body.size + forkSize)

/-- Does a form need to know words beyond ASCII? -/
def Form.needsWideWords : Form → Bool
  | place condition => condition == .wideWords
  | append first second | either first second => first.needsWideWords || second.needsWideWords
  | repeated _ most body => most != some 0 && body.needsWideWords
  | empty | char _ => false

/-! ## Reading and finding -/

/-- The text of an error in a pattern. -/
def Error.message (error : Error) (pattern : List Char) : String :=
  match error with
  | fault it => it.message pattern
  | wideWords => "error building NFA"
  | tooLarge => "Compiled regex exceeds size limit of " ++ Text.decimal sizeLimit ++ " bytes."

/-- The form that a text describes. -/
def formOf (text : List Char) : Except Fault Form := do
  let tree ← Tree.read text
  let (form, _) ← tree.form {}
  .ok form

/-- The pattern that a text describes. -/
def read (text : List Char) : Except Error Pattern :=
  match formOf text with
  | .error wrong => .error (.fault wrong)
  | .ok form =>
    if form.needsWideWords then .error .wideWords
    else if sizeLimit < form.size then .error .tooLarge
    else .ok { form }

/-- Is a pattern found in a text? -/
def isIn (pattern : Pattern) (text : String) : Bool :=
  pattern.form.isIn text.toList

end Pattern

end X86Length
