import X86Length.CommandLine.Options
import X86Length.Text.Numeral

/-! # Pages of help

Help on the program, on a command or on help itself is one page: what it is about, how it is used,
and what commands, operands and options there are. -/

namespace X86Length.CommandLine

/-- What help is asked for. -/
inductive Topic where
  | program
  | command (verb : Verb)
  | help
  deriving DecidableEq, Repr

/-! ## Layout -/

/-- What may stand on the command line, and its explanation. -/
structure Entry where
  shown : String
  about : String
  deriving DecidableEq, Repr

structure Section where
  title : String
  entries : List Entry
  deriving DecidableEq, Repr

structure Page where
  about : String
  -- What may stand on the command line.
  usage : String
  sections : List Section
  deriving DecidableEq, Repr

/-- The entries of a section have their explanations in one column. -/
def Section.text (part : Section) : String :=
  let width := (part.entries.map (·.shown.length)).foldl max 0
  part.title ++ ":\n" ++
    String.join (part.entries.map fun entry =>
      "  " ++ Text.alignLeft width entry.shown ++ "  " ++ entry.about ++ "\n")

def Page.text (page : Page) : String :=
  page.about ++ "\n\nUsage: " ++ page.usage ++ "\n" ++
    String.join (page.sections.map fun part => "\n" ++ part.text)

/-! ## Commands and operands -/

def Verb.name : Verb → String
  | hex => "hex"
  | file => "file"
  | cover => "cover"

def Verb.about : Verb → String
  | hex => "Split hex bytes into instructions"
  | file => "Scan instructions in a raw binary file"
  | cover => "Length of the whole instructions spanning at least `--min` bytes"

/-- What a command works on. -/
def Verb.operand : Verb → Entry
  | hex => ⟨"<BYTES>...", "Bytes as hex, e.g. `48 89 e5`, `4889e5` or `0x48,0x89,0xe5`"⟩
  | file => ⟨"<PATH>", "Path to the file"⟩
  | cover => ⟨"<BYTES>...", "Bytes as hex"⟩

def Verb.entry (verb : Verb) : Entry :=
  ⟨verb.name, verb.about⟩

def helpEntry : Entry :=
  ⟨"help", "Print this message or the help of the given subcommand(s)"⟩

/-! ## Options -/

/-- The short name of an option in front of its long name, or the room for it. -/
def shortName : Option Char → String
  | some letter => String.ofList ['-', letter, ',', ' ']
  | none => "    "

def Switch.about : Switch → String
  | json => "Emit output as JSON instead of human-readable text"
  | verbose => "Enable debug logging on stderr"
  | help => "Print help"
  | version => "Print version"

def Switch.entry (which : Switch) : Entry :=
  ⟨shortName which.letter? ++ "--" ++ which.name, which.about⟩

def Setting.about : Setting → String
  | offset => "Start offset in the file (hex with 0x, or decimal)"
  | count => "Maximum number of instructions to decode"
  | min => "Number of bytes that must be covered"

def Setting.entry (setting : Setting) : Entry :=
  ⟨shortName (some setting.letter) ++ setting.shown,
    setting.about ++ " [default: " ++ Text.decimal setting.default ++ "]"⟩

/-! ## Pages -/

/-- The page on a topic. -/
def Topic.page : Topic → Page
  | program =>
    { about := "Measure x86/x86-64 instruction lengths"
      usage := "oplen [OPTIONS] <COMMAND>"
      sections :=
        [⟨"Commands", [Verb.hex, Verb.file, Verb.cover].map Verb.entry ++ [helpEntry]⟩,
         ⟨"Options", [Switch.json, Switch.verbose, Switch.help, Switch.version].map Switch.entry⟩] }
  | command verb =>
    { about := verb.about
      usage := "oplen " ++ verb.name ++ " [OPTIONS] " ++ verb.operand.shown
      sections :=
        [⟨"Arguments", [verb.operand]⟩,
         ⟨"Options", Switch.json.entry :: verb.settings.map Setting.entry ++
           [Switch.verbose, Switch.help].map Switch.entry⟩] }
  | help =>
    { about := helpEntry.about
      usage := "oplen help [COMMAND]..."
      sections := [⟨"Arguments", [⟨"[COMMAND]...", "Print help for the subcommand(s)"⟩]⟩] }

end X86Length.CommandLine
