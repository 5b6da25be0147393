import X86Length.Json.Value

/-! # Reading JSON

A text is cut into tokens, and the tokens are read from left to right.  The reader keeps the
arrays and objects that are still open on a stack, and at any time knows what may come next.  Any
depth of nesting is read. -/

namespace X86Length.Json

/-- An array or object that is still open while one of its values is being read.  What is complete
    of it is kept backwards. -/
inductive Frame where
  -- An array with the items before the one being read.
  | item (before : List Value)
  -- An object with the fields before the one being read, and the name of that one.
  | field (before : List (List Char × Value)) (name : List Char)

/-- What the reader has read and what may come next. -/
inductive Reader where
  | needValue (stack : List Frame)
  | firstItem (stack : List Frame)
  | firstField (stack : List Frame)
  | needName (before : List (List Char × Value)) (stack : List Frame)
  | needColon (before : List (List Char × Value)) (name : List Char) (stack : List Frame)
  | complete (value : Value) (stack : List Frame)

namespace Reader

/-- A token at the start of a value. -/
def enter (stack : List Frame) : Token → Option Reader
  | .openBrace => some (firstField stack)
  | .openBracket => some (firstItem stack)
  | .null => some (complete .null stack)
  | .bool value => some (complete (.bool value) stack)
  | .number numeral => some (complete (.number numeral) stack)
  | .string body => some (complete (.string body) stack)
  | _ => none

/-- A token behind a complete value. -/
def follow (value : Value) : List Frame → Token → Option Reader
  | .item before :: stack, .comma => some (needValue (.item (value :: before) :: stack))
  | .item before :: stack, .closeBracket => some (complete (.array (value :: before).reverse) stack)
  | .field before name :: stack, .comma => some (needName ((name, value) :: before) stack)
  | .field before name :: stack, .closeBrace =>
    some (complete (.object ((name, value) :: before).reverse) stack)
  | _, _ => none

/-- One more token. -/
def step : Reader → Token → Option Reader
  | needValue stack, token => enter stack token
  | firstItem stack, .closeBracket => some (complete (.array []) stack)
  | firstItem stack, token => enter (.item [] :: stack) token
  | firstField stack, .closeBrace => some (complete (.object []) stack)
  | firstField stack, .string name => some (needColon [] name stack)
  | firstField _, _ => none
  | needName before stack, .string name => some (needColon before name stack)
  | needName _ _, _ => none
  | needColon before name stack, .colon => some (needValue (.field before name :: stack))
  | needColon _ _ _, _ => none
  | complete value stack, token => follow value stack token

/-- The value that is complete at the end of the text. -/
def finish : Reader → Option Value
  | complete value [] => some value
  | _ => none

/-- The value that the rest of the tokens completes. -/
def run : Reader → List Token → Option Value
  | reader, [] => reader.finish
  | reader, token :: rest =>
    match reader.step token with
    | none => none
    | some next => run next rest

end Reader

/-- The value that tokens make. -/
def ofTokens? (tokens : List Token) : Option Value :=
  Reader.run (.needValue []) tokens

/-- The value that a text stands for. -/
def read? (text : String) : Option Value :=
  (tokens? text.toList).bind ofTokens?

/-! ## Using a value -/

namespace Value

/-- The number that a value stands for: a whole number that fits in 64 bits, written with digits
    alone. -/
def toNat? : Value → Option Nat
  | number numeral => (Text.readDigits 10 0 numeral).toOption
  | _ => none

/-- The fields of an object under their names, if each name stands for a text. -/
def namedFields? : List (List Char × Value) → Option (List (List Char × Value))
  | [] => some []
  | (body, value) :: rest =>
    match unescaped? body, namedFields? rest with
    | some name, some fields => some ((name, value) :: fields)
    | _, _ => none

/-- The value of the only field of a name. -/
def onlyField? (fields : List (List Char × Value)) (name : String) : Option Value :=
  match fields.filter (·.1 == name.toList) with
  | [(_, value)] => some value
  | _ => none

/-- The values of the fields that a record has, in their order.  A record is written as an object
    that has each of the fields once, among any others, or as an array of just their values. -/
def recordFields? (names : List String) : Value → Option (List Value)
  | array items => if items.length = names.length then some items else none
  | object fields => (namedFields? fields).bind fun named => names.mapM (onlyField? named)
  | _ => none

end Value

end X86Length.Json
