import X86Length.Pattern.Tree

/-! # What patterns mean

A form says which texts a pattern takes, with the flags already applied.  Classes of characters are
known for ASCII alone, so a pattern that asks for more has no form: a class with a letter of its
own, a property, or letters of any case are only allowed where the text is read as bytes. -/

namespace X86Length.Pattern

/-! ## Forms -/

/-- A condition on a place of a text. -/
inductive Condition where
  | textStart
  | textEnd
  -- A line starts, by the line ends that are in force.
  | lineStart (returns : Bool)
  | lineEnd (returns : Bool)
  -- A condition on whether a word character of ASCII stands before, and whether one stands behind.
  | words (anchor : Anchor)
  -- The same for word characters beyond ASCII, which are not known.
  | wideWords
  deriving DecidableEq, Repr

/-- Which texts are taken. -/
inductive Form where
  | empty
  | char (set : CharSet)
  | place (condition : Condition)
  | append (first second : Form)
  | either (first second : Form)
  | repeated (least : Nat) (most : Option Nat) (body : Form)
  deriving DecidableEq, Repr

/-! ## Settings -/

/-- The flags that are in force. -/
structure Settings where
  anyCase : Bool := false
  lines : Bool := false
  dotAll : Bool := false
  wide : Bool := true
  returns : Bool := false
  deriving DecidableEq, Repr

/-- The settings behind some changes. -/
def Settings.change (settings : Settings) (changes : FlagChanges) : Settings where
  anyCase := (changes.setting? .anyCase).getD settings.anyCase
  lines := (changes.setting? .lines).getD settings.lines
  dotAll := (changes.setting? .dotAll).getD settings.dotAll
  wide := (changes.setting? .wide).getD settings.wide
  returns := (changes.setting? .returns).getD settings.returns

/-! ## Sets -/

/-- The meaning of a set, and whether it holds each letter in both cases by the way it is put
    together. -/
structure SetForm where
  set : CharSet
  closed : Bool
  deriving DecidableEq, Repr

namespace SetForm

/-- Nothing, which is closed. -/
def empty : SetForm where
  set := .empty
  closed := true

/-- A set that nothing is known about. -/
def plain (set : CharSet) : SetForm where
  set := set
  closed := false

/-- The set in either case, if the case does not matter. -/
def fold (settings : Settings) (span : Span) (form : SetForm) : Except Fault SetForm :=
  if !settings.anyCase || form.closed then .ok form
  else if settings.wide then .error { cause := .noWideCases, span }
  else .ok { set := form.set.anyCase, closed := true }

/-- The set of a bracket.  Where bytes are read, it has to stay within ASCII. -/
def finish (settings : Settings) (negated : Bool) (span : Span) (form : SetForm) :
    Except Fault SetForm := do
  let folded ← form.fold settings span
  let set := folded.set.negatedIf negated
  if !settings.wide && !set.isAscii then .error { cause := .invalidEncoding, span }
  else .ok { folded with set }

/-- The union of two sets. -/
def union (left right : SetForm) : SetForm where
  set := left.set.union right.set
  closed := left.closed && right.closed

/-- What an operation makes of two sets. -/
def combined (operation : SetOperation) (left right : SetForm) : SetForm where
  set := .combined operation left.set right.set
  closed := left.closed && right.closed

end SetForm

/-- The characters of a class with a letter of its own. -/
def LetterClass.set : LetterClass → CharSet
  | digit => .ofRanges digitRanges
  | space => .ofRanges spaceRanges
  | word => .ofRanges wordRanges

/-- The form of a class with a letter of its own. -/
def LetterClass.form (kind : LetterClass) (negated : Bool) (span : Span) (settings : Settings) :
    Except Fault SetForm :=
  if settings.wide then .error { cause := .noWideClasses, span }
  else if negated then .error { cause := .invalidEncoding, span }
  else .ok (.plain kind.set)

/-- A name in lower case, without the marks that do not matter in names of properties. -/
def simplifiedName (name : List Char) : List Char :=
  let lower := name.map Char.toLower
  let body := if lower.take 2 == ['i', 's'] then lower.drop 2 else lower
  body.filter fun c => c < '\x80' && c != ' ' && c != '_' && c != '-'

/-- The names that are looked up as values before they are looked up as properties. -/
def valueNames : List (List Char) :=
  ["cf".toList, "sc".toList, "lc".toList]

/-- The fault of a class that is named for a property, as no property is known. -/
def propertyFault (name : Option (List Char)) (span : Span) (settings : Settings) : Fault :=
  if !settings.wide then { cause := .notInBytes, span }
  else if name.any fun letters => valueNames.contains (simplifiedName letters) then
    { cause := .unknownPropertyValue, span }
  else { cause := .unknownProperty, span }

/-- The character that a literal stands for.  A byte beyond ASCII is none. -/
def Literal.char? (it : Literal) (settings : Settings) : Except Fault Char :=
  if !settings.wide && it.asByte && '\x80' ≤ it.char then
    .error { cause := .invalidEncoding, span := it.span }
  else .ok it.char

/-- The character that a literal in a set stands for.  A set of bytes holds ASCII alone. -/
def Literal.item (it : Literal) (settings : Settings) : Except Fault Char := do
  let c ← it.char? settings
  if !settings.wide && '\x80' ≤ c then .error { cause := .notInBytes, span := it.span } else .ok c

mutual

/-- The form of a set. -/
def SetTree.form (settings : Settings) : SetTree → Except Fault SetForm
  | .empty _ => .ok .empty
  | .literal it => do
    let c ← it.item settings
    .ok (.plain (.single c))
  | .range low high _ => do
    let first ← low.item settings
    let last ← high.item settings
    .ok (.plain (.range first last))
  | .named ranges negated span => (SetForm.plain (.ofRanges ranges)).finish settings negated span
  | .letterClass kind negated span => kind.form negated span settings
  | .property name span => .error (propertyFault name span settings)
  | .bracket negated body span => do
    let inner ← body.form settings
    inner.finish settings negated span
  | .union items _ => unionForm settings .empty items
  | .combined operation left right _ => do
    let leftForm ← left.form settings
    let rightForm ← right.form settings
    let rightFolded ← rightForm.fold settings right.span
    let leftFolded ← leftForm.fold settings left.span
    .ok (.combined operation leftFolded rightFolded)

/-- The form of some sets together, with what is before them. -/
def unionForm (settings : Settings) (before : SetForm) : List SetTree → Except Fault SetForm
  | [] => .ok before
  | item :: rest => do
    let form ← item.form settings
    unionForm settings (before.union form) rest

end

/-! ## Patterns -/

/-- The characters that a dot takes. -/
def dotSet (settings : Settings) : CharSet :=
  if settings.dotAll then .complement .empty
  else if settings.returns then .complement (.union (.single '\n') (.single '\r'))
  else .complement (.single '\n')

/-- The condition of an anchor. -/
def Anchor.condition (anchor : Anchor) (settings : Settings) : Condition :=
  match anchor with
  | textStart => .textStart
  | textEnd => .textEnd
  | lineStart => if settings.lines then .lineStart settings.returns else .textStart
  | lineEnd => if settings.lines then .lineEnd settings.returns else .textEnd
  | other => if settings.wide then .wideWords else .words other

/-- The form of a character in a pattern. -/
def Literal.form (it : Literal) (settings : Settings) : Except Fault Form := do
  let c ← it.char? settings
  if !settings.anyCase then .ok (.char (.single c))
  else if settings.wide then .error { cause := .noWideCases, span := it.span }
  else .ok (.char (CharSet.single c).anyCase)

/-- The form of an atom. -/
def Atom.form (settings : Settings) : Atom → Except Fault Form
  | .literal it => it.form settings
  | .dot span =>
    if settings.wide then .ok (.char (dotSet settings))
    else .error { cause := .invalidEncoding, span }
  | .anchor kind _ => .ok (.place (kind.condition settings))
  | .letterClass kind negated span =>
    (kind.form negated span settings).map fun it => .char it.set
  | .property name span => .error (propertyFault name span settings)

mutual

/-- The form of a pattern under some settings, and the settings behind it. -/
def Tree.form (settings : Settings) : Tree → Except Fault (Form × Settings)
  | .empty _ => .ok (.empty, settings)
  | .flags changes _ => .ok (.empty, settings.change changes)
  | .atom it => (it.form settings).map fun form => (form, settings)
  | .set it => (it.form settings).map fun form => (.char form.set, settings)
  | .repeated least most body _ => do
    let (form, settings) ← body.form settings
    .ok (.repeated least most form, settings)
  | .group changes body _ => do
    let (form, _) ← body.form (settings.change changes)
    .ok (form, settings)
  | .sequence items _ => sequenceForm settings items
  | .choice branches _ => choiceForm settings branches

/-- The form of patterns one behind the other. -/
def sequenceForm (settings : Settings) : List Tree → Except Fault (Form × Settings)
  | [] => .ok (.empty, settings)
  | item :: rest => do
    let (first, settings) ← item.form settings
    let (second, settings) ← sequenceForm settings rest
    .ok (.append first second, settings)

/-- The form of patterns of which one is enough.  The settings behind one go on in the next. -/
def choiceForm (settings : Settings) : List Tree → Except Fault (Form × Settings)
  | [] => .ok (.char .empty, settings)
  | branch :: rest => do
    let (first, settings) ← branch.form settings
    let (second, settings) ← choiceForm settings rest
    .ok (.either first second, settings)

end

end X86Length.Pattern
