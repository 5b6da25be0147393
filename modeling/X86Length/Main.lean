import X86Length.CommandLine.Program

/-! # The executable

Reads the arguments, the log specification of the environment and the file that is named, runs the
program on them and writes what it leaves behind. -/

namespace X86Length.CommandLine

/-- The number of an error in the operating system; the runtime may give it with a minus sign. -/
def systemCode (code : UInt32) : Nat :=
  if code < 0x80000000 then code.toNat else (0 - code).toNat

/-- What the operating system said about a file that could not be read. -/
def ReadError.ofSystem (error : IO.Error) : ReadError :=
  match error with
  | .noFileOrDirectory _ code reason
  | .permissionDenied _ code reason
  | .inappropriateType _ code reason
  | .invalidArgument _ code reason
  | .resourceExhausted _ code reason => .ofCode (systemCode code) reason
  | .otherError code reason => .ofCode (systemCode code) reason
  | other => .ofCode 5 other.toString

/-- The contents of the file at a path. -/
def readFile (path : String) : IO (Except ReadError (List UInt8)) := do
  try
    return .ok (← IO.FS.readBinFile path).toList
  catch error =>
    return .error (.ofSystem error)

/-- The contents of the file that the arguments name, if they name one. -/
def readNamedFile (arguments : List String) : IO (Except ReadError (List UInt8)) :=
  match Invocation.read arguments with
  | .ok { command := .file path _ _, .. } => readFile path
  | _ => return .error .notFound

end X86Length.CommandLine

open X86Length.CommandLine in
/-- Runs the program. -/
def main (arguments : List String) : IO UInt32 := do
  let specification ← IO.getEnv "RUST_LOG"
  let contents ← readNamedFile arguments
  let outcome := run arguments specification fun _ => contents
  IO.print outcome.stdout
  IO.eprint outcome.stderr
  return UInt32.ofNat outcome.exit
