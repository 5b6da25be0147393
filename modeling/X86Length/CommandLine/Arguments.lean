import X86Length.CommandLine.Help

/-! # Reading the arguments

The arguments are read from left to right.  One that starts with a dash is an option, `--` makes
all that follow it operands, and any other is the number that the option before it still waits
for, the name of the command, or an operand.

A number given as an argument of its own, and the path of a file, are checked late: with the next
argument that is understood, or at the end.  So an argument that is not understood is reported in
front of a wrong number before it, and a wrong number in front of a repetition behind it. -/

namespace X86Length.CommandLine

/-- Why reading ends early. -/
inductive Stop where
  | usage (error : UsageError)
  | help (topic : Topic)
  | version
  deriving DecidableEq, Repr

/-! ## Shapes of arguments -/

/-- An argument by its shape. -/
inductive Argument where
  -- Two dashes alone: no option follows.
  | escape
  | long (text : List Char)
  | short (letters : List Char)
  -- Anything else, a dash alone included.
  | word (text : String)
  deriving DecidableEq, Repr

/-- The shape of an argument. -/
def Argument.ofString (argument : String) : Argument :=
  match argument.toList with
  | ['-', '-'] => escape
  | '-' :: '-' :: text => long text
  | '-' :: letter :: letters => short (letter :: letters)
  | _ => word argument

/-! ## What has been read -/

/-- What is still to be checked. -/
inductive Pending where
  -- The number of an option, which may be still missing.
  | number (setting : Setting) (text : Option String)
  | path
  deriving DecidableEq, Repr

/-- What has been read at one place, in front of the command or behind it. -/
structure Progress where
  json : Bool := false
  verbose : Bool := false
  -- The numbers that have been checked.
  numbers : List (Setting × Nat) := []
  operands : List String := []
  pending : Option Pending := none
  deriving DecidableEq, Repr

namespace Progress

/-- Take the number of an option. -/
def give (progress : Progress) (setting : Setting) (text : String) : Except Stop Progress :=
  if (progress.numbers.lookup setting).isSome then
    .error (.usage (.repeated setting.shown))
  else
    match setting.read text with
    | .ok number => .ok { progress with numbers := (setting, number) :: progress.numbers }
    | .error reason => .error (.usage (.invalidValue setting text reason))

/-- Check what is still to be checked. -/
def settle (progress : Progress) : Except Stop Progress :=
  let settled := { progress with pending := none }
  match progress.pending with
  | none => .ok settled
  | some (.number setting none) => .error (.usage (.missingValue setting.shown))
  | some (.number setting (some text)) => settled.give setting text
  | some .path =>
    if progress.operands == [""] then .error (.usage (.missingValue "<PATH>")) else .ok settled

/-- An option that waits for its number. -/
def await (progress : Progress) (setting : Setting) : Except Stop Progress :=
  match progress.settle with
  | .error stop => .error stop
  | .ok settled => .ok { settled with pending := some (.number setting none) }

/-- An option with its number in the same argument. -/
def attach (progress : Progress) (setting : Setting) (text : List Char) : Except Stop Progress :=
  match progress.settle with
  | .error stop => .error stop
  | .ok settled => settled.give setting (String.ofList text)

/-- An option without a number, where help is on the topic. -/
def switch (progress : Progress) (topic : Topic) (which : Switch) : Except Stop Progress :=
  match progress.settle with
  | .error stop => .error stop
  | .ok settled =>
    match which with
    | .help => .error (.help topic)
    | .version => .error .version
    | .json =>
      if settled.json then .error (.usage (.repeated "--json"))
      else .ok { settled with json := true }
    | .verbose =>
      if settled.verbose then .error (.usage (.repeated "--verbose"))
      else .ok { settled with verbose := true }

/-- An operand.  A file has only one. -/
def operand (verb : Verb) (progress : Progress) (text : String) : Except Stop Progress :=
  if verb == .file && !progress.operands.isEmpty then
    .error (.usage (.unexpected text))
  else
    match progress.settle with
    | .error stop => .error stop
    | .ok settled =>
      .ok { settled with
        operands := settled.operands ++ [text]
        pending := if verb == .file then some .path else none }

end Progress

/-! ## Options -/

/-- The options that may stand at a place. -/
structure Place where
  -- What help is on at this place.
  topic : Topic
  switches : List Switch
  settings : List Setting
  deriving DecidableEq, Repr

/-- The place in front of the command. -/
def Place.front : Place where
  topic := .program
  switches := [.json, .verbose, .help, .version]
  settings := []

/-- The place behind a command. -/
def Place.behind (verb : Verb) : Place where
  topic := .command verb
  switches := [.json, .verbose, .help]
  settings := verb.settings

/-- An option by its long name; a value stands behind the first equals sign. -/
def readLong (place : Place) (progress : Progress) (text : List Char) : Except Stop Progress :=
  let name := String.ofList (text.takeWhile (· != '='))
  let value := text.dropWhile (· != '=')
  match place.settings.find? (·.name == name), place.switches.find? (·.name == name) with
  | some setting, _ =>
    match value with
    | [] => progress.await setting
    | _ :: number => progress.attach setting number
  | none, some which =>
    match value with
    | [] => progress.switch place.topic which
    | _ :: rest => .error (.usage (.unwantedValue ("--" ++ name) (String.ofList rest)))
  | none, none => .error (.usage (.unexpected ("--" ++ name)))

/-- Options by their short names.  One that takes a number takes the rest of the argument, with or
    without an equals sign in front. -/
def readShort (place : Place) (progress : Progress) : List Char → Except Stop Progress
  | [] => .ok progress
  | letter :: rest =>
    match place.settings.find? (·.letter == letter),
        place.switches.find? (·.letter? == some letter) with
    | some setting, _ =>
      match rest with
      | [] => progress.await setting
      | '=' :: number => progress.attach setting number
      | number => progress.attach setting number
    | none, some which =>
      match progress.switch place.topic which with
      | .error stop => .error stop
      | .ok next => readShort place next rest
    | none, none => .error (.usage (.unexpected (String.ofList ['-', letter])))

/-! ## Behind the command -/

/-- Operands only, to the end. -/
def readOperands (verb : Verb) (progress : Progress) : List String → Except Stop Progress
  | [] => progress.settle
  | text :: rest =>
    match progress.operand verb text with
    | .error stop => .error stop
    | .ok next => readOperands verb next rest

/-- The next argument behind a command, if it is none that makes all others operands. -/
def readArgument (verb : Verb) (progress : Progress) : Argument → Except Stop Progress
  | .escape => .ok progress
  | .long text => readLong (Place.behind verb) progress text
  | .short letters => readShort (Place.behind verb) progress letters
  | .word text =>
    match progress.pending with
    | some (.number setting none) =>
      .ok { progress with pending := some (.number setting (some text)) }
    | _ => progress.operand verb text

/-- All arguments behind a command. -/
def readArguments (verb : Verb) (progress : Progress) : List String → Except Stop Progress
  | [] => progress.settle
  | argument :: rest =>
    match Argument.ofString argument with
    | .escape => readOperands verb progress rest
    | shape =>
      match readArgument verb progress shape with
      | .error stop => .error stop
      | .ok next => readArguments verb next rest

/-- The command that has been read. -/
def Progress.command (progress : Progress) (verb : Verb) : Except Stop Command :=
  let number (setting : Setting) := (progress.numbers.lookup setting).getD setting.default
  match verb, progress.operands with
  | .file, path :: _ => .ok (.file path (number .offset) (number .count))
  | .file, [] => .error (.usage (.missingOperand "<PATH>"))
  | _, [] => .error (.usage (.missingOperand "<BYTES>..."))
  | .hex, texts => .ok (.hex texts)
  | .cover, texts => .ok (.cover texts (number .min))

/-- A command with its arguments, `front` being what stands before it. -/
def readVerb (verb : Verb) (front : Progress) (arguments : List String) :
    Except Stop Invocation :=
  match readArguments verb {} arguments with
  | .error stop => .error stop
  | .ok progress =>
    match progress.command verb with
    | .error stop => .error stop
    | .ok command =>
      .ok { json := front.json || progress.json, verbose := front.verbose || progress.verbose,
            command }

/-! ## The whole -/

/-- What the help command is asked for: help on the program, or on one command. -/
def readHelp : List String → Stop
  | [] => .help .program
  | [name] =>
    match Verb.names.lookup name with
    | some verb => .help (.command verb)
    | none => if name == "help" then .help .help else .usage (.unknownCommand name)
  | _ :: extra :: _ => .usage (.unexpected extra)

/-- Arguments from the front on. -/
def readFront (front : Progress) : List String → Except Stop Invocation
  | [] => .error (.usage .missingCommand)
  | argument :: rest =>
    match Argument.ofString argument with
    | .escape =>
      match rest with
      | [] => .error (.usage .missingCommand)
      | text :: _ => .error (.usage (.unexpected text))
    | .long text =>
      match readLong Place.front front text with
      | .error stop => .error stop
      | .ok next => readFront next rest
    | .short letters =>
      match readShort Place.front front letters with
      | .error stop => .error stop
      | .ok next => readFront next rest
    | .word name =>
      match Verb.names.lookup name with
      | some verb => readVerb verb front rest
      | none =>
        if name == "help" then .error (readHelp rest)
        else .error (.usage (.unknownCommand name))

/-- What the arguments of the program ask for. -/
def Invocation.read (arguments : List String) : Except Stop Invocation :=
  readFront {} arguments

end X86Length.CommandLine
