import X86Length.Text.NumberReader
import X86Length.Text.Terminal

/-! # Commands and options

The program has three commands.  Two switches may stand in front of the command and behind it; the
other options belong to a command and take a number. -/

namespace X86Length.CommandLine

/-! ## Commands -/

/-- A command by its name. -/
inductive Verb where
  | hex
  | file
  | cover
  deriving DecidableEq, Repr

/-- The names of the commands. -/
def Verb.names : List (String × Verb) :=
  [("hex", .hex), ("file", .file), ("cover", .cover)]

/-- A command with all that it needs. -/
inductive Command where
  | hex (texts : List String)
  | file (path : String) (offset count : Nat)
  | cover (texts : List String) (required : Nat)
  deriving DecidableEq, Repr

/-- What the arguments ask for. -/
structure Invocation where
  json : Bool
  verbose : Bool
  command : Command
  deriving DecidableEq, Repr

/-! ## Options with a number -/

/-- An option that takes a number. -/
inductive Setting where
  | offset
  | count
  | min
  deriving DecidableEq, Repr

namespace Setting

/-- The long name, without its dashes. -/
def name : Setting → String
  | offset => "offset"
  | count => "count"
  | min => "min"

/-- The short name, without its dash. -/
def letter : Setting → Char
  | offset => 'o'
  | count => 'c'
  | min => 'm'

/-- The option as messages show it. -/
def shown : Setting → String
  | offset => "--offset <OFFSET>"
  | count => "--count <COUNT>"
  | min => "--min <MIN>"

/-- The number where none is given. -/
def default : Setting → Nat
  | offset => 0
  | count => 100
  | min => 5

/-- The number that a text stands for.  An offset may be hexadecimal. -/
def read (setting : Setting) (text : String) : Except Text.NumberError Nat :=
  match setting with
  | offset => Text.readMarkedNumber text.toList
  | count | min => Text.readNumber 10 text.toList

end Setting

/-- The options that a command has. -/
def Verb.settings : Verb → List Setting
  | hex => []
  | file => [.offset, .count]
  | cover => [.min]

/-! ## Options without a number -/

/-- An option that takes nothing. -/
inductive Switch where
  | json
  | verbose
  | help
  | version
  deriving DecidableEq, Repr

namespace Switch

/-- The long name, without its dashes. -/
def name : Switch → String
  | json => "json"
  | verbose => "verbose"
  | help => "help"
  | version => "version"

/-- The short name, without its dash. -/
def letter? : Switch → Option Char
  | json => none
  | verbose => some 'v'
  | help => some 'h'
  | version => some 'V'

end Switch

/-! ## Errors -/

/-- Why arguments make no command. -/
inductive UsageError where
  | missingCommand
  | unknownCommand (name : String)
  | unexpected (argument : String)
  | repeated (option : String)
  | missingValue (option : String)
  | unwantedValue (option value : String)
  | missingOperand (operand : String)
  | invalidValue (setting : Setting) (value : String) (reason : Text.NumberError)
  deriving DecidableEq, Repr

/-- A text of the command line as messages show it. -/
def quoted (text : String) : String :=
  "'" ++ Text.visible text ++ "'"

/-- The text of an error. -/
def UsageError.message (error : UsageError) : String :=
  "error: " ++ (match error with
    | missingCommand => "a command is required"
    | unknownCommand name => "unrecognized command " ++ quoted name
    | unexpected argument => "unexpected argument " ++ quoted argument ++ " found"
    | repeated option => "the argument '" ++ option ++ "' cannot be used multiple times"
    | missingValue option => "a value is required for '" ++ option ++ "' but none was supplied"
    | unwantedValue option value =>
      "unexpected value " ++ quoted value ++ " for '" ++ option ++ "' found"
    | missingOperand operand => "the required argument '" ++ operand ++ "' was not provided"
    | invalidValue setting value reason =>
      "invalid value " ++ quoted value ++ " for '" ++ setting.shown ++ "': " ++ reason.message) ++
    "\n\nFor more information, try '--help'.\n"

end X86Length.CommandLine
