import X86Length.Sweep
import X86Length.Json.Reader

/-! # The JSON forms of lengths, boundaries and categories

A length and a boundary are records, a category is its name.  Each form is written in one way and
read in several: fields may come in any order and among others, a record may be an array, and a
category may be an object whose only field is its name, with the value `null`. -/

namespace X86Length

open Json (Value)

/-! ## Lengths -/

namespace InstructionLength

/-- The names of the fields of a length, in order. -/
def fieldNames : List String :=
  ["prefixes", "opcode", "addressing", "immediate"]

/-- A length as JSON. -/
def toJson (length : InstructionLength) : Value :=
  Value.record <| fieldNames.zip <|
    [length.prefixes, length.opcode, length.addressing, length.immediate].map Value.ofNat

/-- The length that a value stands for. -/
def ofJson? (value : Value) : Option InstructionLength :=
  match value.recordFields? fieldNames with
  | some [prefixes, opcode, addressing, immediate] =>
    match prefixes.toNat?, opcode.toNat?, addressing.toNat?, immediate.toNat? with
    | some prefixes, some opcode, some addressing, some immediate =>
      some { prefixes, opcode, addressing, immediate }
    | _, _, _, _ => none
  | _ => none

/-- The length that a text stands for. -/
def read? (text : String) : Option InstructionLength :=
  (Json.read? text).bind ofJson?

end InstructionLength

/-! ## Boundaries -/

namespace Boundary

/-- The names of the fields of a boundary, in order. -/
def fieldNames : List String :=
  ["address", "offset", "length"]

/-- A boundary as JSON. -/
def toJson (boundary : Boundary) : Value :=
  Value.record <| fieldNames.zip
    [Value.ofNat boundary.address.toNat, Value.ofNat boundary.offset, boundary.length.toJson]

/-- The boundary that a value stands for. -/
def ofJson? (value : Value) : Option Boundary :=
  match value.recordFields? fieldNames with
  | some [address, offset, length] =>
    match address.toNat?, offset.toNat?, InstructionLength.ofJson? length with
    | some address, some offset, some length =>
      some { address := UInt64.ofNat address, offset, length }
    | _, _, _ => none
  | _ => none

/-- The boundary that a text stands for. -/
def read? (text : String) : Option Boundary :=
  (Json.read? text).bind ofJson?

end Boundary

/-! ## Categories -/

namespace Opcode.Category

/-- A category as JSON. -/
def toJson (category : Category) : Value :=
  Value.ofString category.name

/-- The category of a name as it is written in a string. -/
def ofBody? (body : List Char) : Option Category :=
  (Json.unescaped? body).bind fun name => ofName? (String.ofList name)

/-- The category that a value stands for. -/
def ofJson? : Value → Option Category
  | .string body => ofBody? body
  | .object [(body, .null)] => ofBody? body
  | _ => none

/-- The category that a text stands for. -/
def read? (text : String) : Option Category :=
  (Json.read? text).bind ofJson?

end Opcode.Category

end X86Length
