import X86Length.Sweep
import X86Length.Json.Form

/-! # Listings

A listing has one row for each step of a sweep: an instruction with its length, or a byte at which
nothing decodes.  It is written as aligned text or as JSON. -/

namespace X86Length

/-- One row of a listing. -/
structure Row where
  address : UInt64
  -- Its distance from the start of the listing.
  offset : Nat
  bytes : List UInt8
  found : Except DecodeError InstructionLength

namespace Row

/-- The row of a sweep step, in code that stands at an address. -/
def ofStep (base : UInt64) (step : SweepStep) : Row :=
  let address := step.address base
  { address, offset := step.offset, bytes := step.bytes,
    found := step.found.mapError fun fault => { address, fault } }

/-- Did nothing decode here? -/
def isBad (row : Row) : Bool :=
  match row.found with
  | .ok _ => false
  | .error _ => true

/-- The number of bytes that the row accounts for. -/
def size (row : Row) : Nat :=
  match row.found with
  | .ok length => length.total
  | .error _ => 1

/-- A row as a line of text: address, bytes, and the size or a note that nothing decoded. -/
def line (row : Row) : String :=
  Text.alignRight 10 (Text.hexadecimal row.address.toNat) ++ "  " ++
    Text.alignLeft 44 (Text.spacedHex row.bytes) ++ "  " ++
    match row.found with
    | .ok length => Text.alignRight 2 (Text.decimal length.total)
    | .error _ => "(bad)"

/-- A row as JSON. -/
def toJson (row : Row) : Json.Value :=
  Json.Value.record <|
    [("address", Json.Value.ofNat row.address.toNat), ("offset", Json.Value.ofNat row.offset),
      ("bytes", Json.Value.ofString (Text.spacedHex row.bytes))] ++
    match row.found with
    | .ok length => [("length", length.toJson)]
    | .error error => [("error", Json.Value.ofString error.message)]

end Row

/-- The first rows, `limit` at most, of code that stands at an address. -/
def listing (base : UInt64) (limit : Nat) (code : List UInt8) : List Row :=
  ((sweepSteps 0 code).take limit).map (Row.ofStep base)

/-- Rows as they are printed, a line each or one JSON list. -/
def printedRows (json : Bool) (rows : List Row) : String :=
  if json then
    Json.pretty (.array (rows.map (·.toJson))) ++ "\n"
  else
    String.join (rows.map (·.line ++ "\n"))

end X86Length
