import X86Length.CommandLine.Folder
import X86Length.CommandLine.Options
import X86Length.HexBytes
import X86Length.Listing
import X86Length.Log

/-! # What the commands do

Each command is a function from what it is given to a report: the log records on the way, and the
text to print or the reason of a failure. -/

namespace X86Length.CommandLine

/-! ## Reports -/

/-- Why a command failed. -/
structure Failure where
  text : String
  -- What stood in the way, where that is an error of its own.
  cause : Option String := none
  deriving DecidableEq, Repr

/-- The text of a failure. -/
def Failure.message (failure : Failure) : String :=
  "Error: " ++ failure.text ++
    match failure.cause with
    | none => "\n"
    | some cause => "\n\nCaused by:\n    " ++ cause ++ "\n"

/-- What a command did. -/
structure Report where
  records : List Log.Record
  result : Except Failure String

/-! ## Log records -/

/-- Where the records of the decoder come from. -/
def decoderTarget : String := "oplen_decode::x86_64::decoder"

/-- Where the records of a sweep come from. -/
def sweepTarget : String := "oplen_decode::traits"

/-- Where the records of a command come from. -/
def Verb.target : Verb → String
  | hex => "oplen::commands::hex"
  | file => "oplen::commands::file"
  | cover => "oplen::commands::cover"

/-- The record of bytes that do not decode. -/
def faultRecord (error : DecodeError) : Log.Record where
  level := .trace
  target := decoderTarget
  text := error.message

/-- The record of a sweep that goes on behind an error. -/
def resyncRecord (error : DecodeError) : Log.Record where
  level := .debug
  target := sweepTarget
  text := "resyncing after " ++ error.message

/-- The records of a sweep: two for each error. -/
def sweepRecords (base : UInt64) (code : List UInt8) : List Log.Record :=
  (sweep base code).flatMap fun
    | .ok _ => []
    | .error error => [faultRecord error, resyncRecord error]

/-! ## Bytes on the command line -/

/-- Split bytes into instructions.  A listing has no more rows than bytes. -/
def reportHex (json : Bool) (texts : List String) : Report :=
  match HexBytes.read texts with
  | .error error => { records := [], result := .error { text := error.message } }
  | .ok code =>
    { records :=
        { level := .debug, target := Verb.hex.target,
          text := "scanning " ++ Text.decimal code.length ++ " bytes" } :: sweepRecords 0 code
      result := .ok (printedRows json (listing 0 code.length code)) }

/-! ## Files -/

/-- The end of the part of a file that can hold `count` instructions from `start` on. -/
def extractEnd (size start count : Nat) : Nat :=
  min size (saturate (start + saturate (count * lengthLimit)))

/-- The part of a file that can hold `count` instructions from `start` on. -/
def extract (data : List UInt8) (start count : Nat) : List UInt8 :=
  (data.drop start).take (extractEnd data.length start count - start)

/-- The rows for `count` instructions of a file at most, from `start` on. -/
def fileRows (data : List UInt8) (start count : Nat) : List Row :=
  listing (UInt64.ofNat start) count (extract data start count)

/-- A warning with the number of rows that did not decode, if there are any. -/
def badRecords (rows : List Row) (size : Nat) : List Log.Record :=
  let bad := rows.countP (·.isBad)
  if bad = 0 then []
  else
    [{ level := .warn, target := Verb.file.target,
       text := Text.decimal bad ++ " of " ++ Text.decimal size ++ " bytes did not decode" }]

/-- Split the contents of a file into `count` instructions at most, from an offset on. -/
def reportFile (json : Bool) (path : String) (offset count : Nat)
    (contents : Except ReadError (List UInt8)) : Report :=
  match contents with
  | .error error =>
    { records := []
      result := .error { text := "Failed to read file: " ++ path, cause := some error.message } }
  | .ok data =>
    if data.length < offset then
      { records := []
        result := .error
          { text := "offset " ++ Text.hexadecimal offset ++ " is past the end of " ++ path ++
              " (" ++ Text.decimal data.length ++ " bytes)" } }
    else if count = 0 then
      { records := [], result := .error { text := "--count must be at least 1" } }
    else
      let stop := extractEnd data.length offset count
      let rows := fileRows data offset count
      { records :=
          { level := .debug, target := Verb.file.target,
            text := "scanning " ++ Text.hexadecimal offset ++ ".." ++ Text.hexadecimal stop ++
              " of " ++ path ++ " (" ++ Text.decimal data.length ++ " bytes)" } ::
            (sweepRecords (UInt64.ofNat offset) (extract data offset count) ++
              badRecords rows (stop - offset))
        result := .ok (printedRows json rows) }

/-! ## Covering a number of bytes -/

/-- The leading instructions that span a number of bytes. -/
structure Coverage where
  required : Nat
  length : Nat
  starts : List Nat
  bytes : List UInt8
  deriving DecidableEq, Repr

namespace Coverage

/-- The fewest leading instructions that span a number of bytes of some code. -/
def of (code : List UInt8) (required : Nat) : Except DecodeError Coverage :=
  match spanningLength required code with
  | .error error => .error error
  | .ok length =>
    .ok { required, length, starts := leadingStarts length code, bytes := code.take length }

/-- The coverage as JSON. -/
def toJson (coverage : Coverage) : Json.Value :=
  Json.Value.record
    [("required", Json.Value.ofNat coverage.required),
     ("length", Json.Value.ofNat coverage.length),
     ("boundaries", .array (coverage.starts.map Json.Value.ofNat)),
     ("bytes", Json.Value.ofString (Text.spacedHex coverage.bytes))]

/-- The record of the starts, which the printed number leaves out. -/
def startRecord (coverage : Coverage) : Log.Record where
  level := .debug
  target := Verb.cover.target
  text := "instructions start at [" ++ String.intercalate ", " (coverage.starts.map Text.decimal) ++
    "]: " ++ Text.spacedHex coverage.bytes

end Coverage

/-- Find the leading instructions that span a number of bytes. -/
def reportCover (json : Bool) (texts : List String) (required : Nat) : Report :=
  match HexBytes.read texts with
  | .error error => { records := [], result := .error { text := error.message } }
  | .ok code =>
    match Coverage.of code required with
    | .error error =>
      { records := [faultRecord error]
        result := .error
          { text := "cannot cover " ++ Text.decimal required ++ " bytes"
            cause := some error.message } }
    | .ok coverage =>
      if json then
        { records := [], result := .ok (Json.pretty coverage.toJson ++ "\n") }
      else
        { records := [coverage.startRecord]
          result := .ok (Text.decimal coverage.length ++ "\n") }

/-! ## Any command -/

/-- What a command does, where `read` gives the contents of a file. -/
def Command.report (json : Bool) (read : String → Except ReadError (List UInt8)) :
    Command → Report
  | .hex texts => reportHex json texts
  | .file path offset count => reportFile json path offset count (read path)
  | .cover texts required => reportCover json texts required

end X86Length.CommandLine
