import X86Length.Pattern
import X86Length.Text.Blank
import X86Length.Text.Numeral
import X86Length.Text.Terminal

/-! # Log records and their filter

A record has a level, a target, which names the part of the program that it comes from, and a text.
A filter has directives, each of which limits the level under a name, and may have a pattern.  A
record is under the longest name that its target starts with, and its text has to hold the pattern.

A specification is a text of directives with commas between them, and may have a slash and a
pattern behind them.  A directive is `name=level`, a level alone, which stands under the empty name,
or a name alone, which has no limit. -/

namespace X86Length.Log

/-! ## Records -/

/-- How grave a record is. -/
inductive Level where
  | error
  | warn
  | info
  | debug
  | trace
  deriving DecidableEq, Repr

namespace Level

/-- The levels, from grave to chatty. -/
def all : List Level :=
  [error, warn, info, debug, trace]

/-- The name of a level. -/
def name : Level → String
  | error => "ERROR"
  | warn => "WARN"
  | info => "INFO"
  | debug => "DEBUG"
  | trace => "TRACE"

/-- The place of a level in the list of levels, from one on. -/
def rank (level : Level) : Nat :=
  all.idxOf level + 1

end Level

/-- One log record. -/
structure Record where
  level : Level
  target : String
  text : String
  deriving DecidableEq, Repr

/-- A text whose further lines are indented. -/
def indented (text : String) : String :=
  String.ofList (text.toList.flatMap fun c => if c == '\n' then "\n    ".toList else [c])

/-- A record as it is written: a terminal shows all of it. -/
def Record.written (record : Record) : String :=
  Text.visible ("[" ++ Text.alignLeft 5 record.level.name ++ " " ++ record.target ++ "] " ++
    indented record.text ++ "\n")

/-! ## Directives -/

/-- The most chatty level that passes; `none` lets nothing pass. -/
abbrev Limit := Option Level

/-- The rank of a limit. -/
def Limit.rank (limit : Limit) : Nat :=
  match limit with
  | none => 0
  | some level => level.rank

/-- A limit on the records under a name. -/
structure Directive where
  -- What the targets have to start with.
  name : String
  limit : Limit
  deriving DecidableEq, Repr

/-- What passes of the records. -/
structure Filter where
  directives : List Directive
  pattern : Option Pattern := none
  deriving DecidableEq, Repr

namespace Filter

/-- The filter with one more directive, which replaces an earlier one of its name. -/
def set (filter : Filter) (directive : Directive) : Filter :=
  { filter with
    directives := filter.directives.filter (·.name != directive.name) ++ [directive] }

/-- The directive with the longer name. -/
def longer (chosen : Option Directive) (directive : Directive) : Option Directive :=
  match chosen with
  | some other => if directive.name.length < other.name.length then chosen else some directive
  | none => some directive

/-- The directive with the longest name that a target starts with. -/
def governing? (filter : Filter) (target : String) : Option Directive :=
  (filter.directives.filter fun directive =>
    directive.name.toList.isPrefixOf target.toList).foldl longer none

/-- Does the level of a record pass? -/
def admitsLevel (filter : Filter) (record : Record) : Bool :=
  match filter.governing? record.target with
  | none => false
  | some directive => decide (record.level.rank ≤ Limit.rank directive.limit)

/-- Does a record pass? -/
def admits (filter : Filter) (record : Record) : Bool :=
  filter.admitsLevel record && filter.pattern.all fun pattern => pattern.isIn record.text

end Filter

/-! ## Complaints -/

/-- What is wrong in a specification. -/
inductive Complaint where
  | invalidDirective (text : List Char)
  | invalidPattern (text : List Char) (error : Pattern.Error)
  -- A whole specification with more than one slash.
  | repeatedSlash (specification : List Char)
  deriving DecidableEq, Repr

/-- The text of a complaint. -/
def Complaint.message (complaint : Complaint) : String :=
  "warning: " ++ (match complaint with
    | invalidDirective text => "invalid logging spec '" ++ String.ofList text ++ "'"
    | invalidPattern text error => "invalid regex filter - " ++ error.message text
    | repeatedSlash specification =>
      "invalid logging spec '" ++ String.ofList specification ++ "' (too many '/'s)") ++
    ", ignoring it\n"

/-! ## Specifications -/

/-- The limit of a name; the case of its letters does not matter. -/
def limit? (text : List Char) : Option Limit :=
  let lower := text.map Char.toLower
  if lower == "off".toList then some none
  else (Level.all.find? fun level => lower == level.name.toList.map Char.toLower).map some

/-- The directive that a part of a specification stands for, or what is wrong in it. -/
def readDirective (part : List Char) : Except Complaint Directive :=
  match part.splitOn '=' with
  | [name] =>
    match limit? (Text.trimmed name) with
    | some limit => .ok { name := "", limit }
    | none => .ok { name := String.ofList name, limit := some .trace }
  | [name, level] =>
    if (Text.trimmed level).isEmpty then
      .ok { name := String.ofList name, limit := some .trace }
    else
      match limit? (Text.trimmed level) with
      | some limit => .ok { name := String.ofList name, limit }
      | none => .error (.invalidDirective (Text.trimmed level))
  | _ => .error (.invalidDirective part)

/-- What is known after a part of a specification: the filter, and the complaints so far. -/
def addPart (state : Filter × List Complaint) (part : List Char) : Filter × List Complaint :=
  if part.isEmpty then state
  else
    match readDirective part with
    | .ok directive => (state.1.set directive, state.2)
    | .error complaint => (state.1, state.2 ++ [complaint])

/-- The filter with some directives, and the complaints about wrong ones. -/
def Filter.addDirectives (filter : Filter) (text : List Char) : Filter × List Complaint :=
  ((text.splitOn ',').map Text.trimmed).foldl addPart (filter, [])

/-- The filter as a specification changes it, and the complaints about what is wrong there.  With
    more than one slash a specification changes nothing. -/
def Filter.specify (filter : Filter) (specification : List Char) : Filter × List Complaint :=
  match specification.splitOn '/' with
  | [directives] => filter.addDirectives directives
  | [directives, text] =>
    let (filter, complaints) := filter.addDirectives directives
    match Pattern.read text with
    | .ok pattern => ({ filter with pattern := some pattern }, complaints)
    | .error error => (filter, complaints ++ [.invalidPattern text error])
  | _ => (filter, [.repeatedSlash specification])

end X86Length.Log
