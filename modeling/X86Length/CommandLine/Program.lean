import X86Length.CommandLine.Arguments
import X86Length.CommandLine.Report

/-! # The program

The whole program as a function: from the arguments, the log specification and a way to read files
to the exit code and the two texts that are written. -/

namespace X86Length.CommandLine

/-- What the program leaves behind. -/
structure Outcome where
  exit : Nat
  stdout : String
  stderr : String
  deriving DecidableEq, Repr

/-- The answer to a question for the version. -/
def versionText : String :=
  "oplen 0.1.0\n"

/-- The filter that holds without a log specification. -/
def defaultFilter (verbose : Bool) : Log.Filter :=
  let limit : Log.Limit := some (if verbose then .debug else .warn)
  { directives := [{ name := "oplen", limit }, { name := "oplen_decode", limit }] }

/-- The outcome of a report, of whose records the filter lets some pass. -/
def Report.outcome (report : Report) (filter : Log.Filter) (complaints : List Log.Complaint) :
    Outcome :=
  let log :=
    String.join (complaints.map (·.message)) ++
      String.join ((report.records.filter filter.admits).map (·.written))
  match report.result with
  | .ok text => { exit := 0, stdout := text, stderr := log }
  | .error failure => { exit := 1, stdout := "", stderr := log ++ failure.message }

/-- The outcome of arguments that are not carried out. -/
def Stop.outcome : Stop → Outcome
  | .usage error => { exit := 2, stdout := "", stderr := error.message }
  | .help topic => { exit := 0, stdout := topic.page.text, stderr := "" }
  | .version => { exit := 0, stdout := versionText, stderr := "" }

/-- The outcome of an invocation. -/
def Invocation.outcome (invocation : Invocation) (specification : Option String)
    (read : String → Except ReadError (List UInt8)) : Outcome :=
  let (filter, complaints) :=
    (defaultFilter invocation.verbose).specify (specification.getD "").toList
  (invocation.command.report invocation.json read).outcome filter complaints

/-- The outcome of the program. -/
def run (arguments : List String) (specification : Option String)
    (read : String → Except ReadError (List UInt8)) : Outcome :=
  match Invocation.read arguments with
  | .error stop => stop.outcome
  | .ok invocation => invocation.outcome specification read

end X86Length.CommandLine
