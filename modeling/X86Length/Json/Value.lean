import X86Length.Json.StringBody
import X86Length.Json.Token
import X86Length.Text.Numeral

/-! # JSON values

A value is a tree.  It is written compactly, as the texts of its tokens one after the other, or
over several lines with an indentation of two blanks for each level. -/

namespace X86Length.Json

/-- A JSON value.  Numbers and strings, the names of fields among them, are kept as they are
    written; fields are kept in order and with repetitions. -/
inductive Value where
  | null
  | bool (value : Bool)
  | number (numeral : List Char)
  | string (body : List Char)
  | array (items : List Value)
  | object (fields : List (List Char × Value))
  deriving Repr

namespace Value

/-- The value of a number. -/
def ofNat (n : Nat) : Value :=
  number (Nat.toDigits 10 n)

/-- The value of a text. -/
def ofString (text : String) : Value :=
  string (escaped text.toList)

/-- The value that has these fields in this order. -/
def record (fields : List (String × Value)) : Value :=
  object (fields.map fun field => (escaped field.1.toList, field.2))

/-! ## Tokens -/

mutual

/-- The tokens of a value. -/
def tokens : Value → List Token
  | null => [.null]
  | bool value => [.bool value]
  | number numeral => [.number numeral]
  | string body => [.string body]
  | array items => .openBracket :: (itemTokens items ++ [.closeBracket])
  | object fields => .openBrace :: (fieldTokens fields ++ [.closeBrace])

/-- The tokens of the items of an array, with commas between them. -/
def itemTokens : List Value → List Token
  | [] => []
  | [item] => item.tokens
  | item :: rest => item.tokens ++ .comma :: itemTokens rest

/-- The tokens of the fields of an object, with commas between them. -/
def fieldTokens : List (List Char × Value) → List Token
  | [] => []
  | [(name, value)] => .string name :: .colon :: value.tokens
  | (name, value) :: rest =>
    .string name :: .colon :: (value.tokens ++ .comma :: fieldTokens rest)

end

/-! ## Lines -/

/-- A new line at a level. -/
def newLine (level : Nat) : List Char :=
  '\n' :: List.replicate (2 * level) ' '

mutual

/-- A value over several lines, inside a value at a level. -/
def lines (level : Nat) : Value → List Char
  | null => Token.null.text
  | bool value => (Token.bool value).text
  | number numeral => (Token.number numeral).text
  | string body => (Token.string body).text
  | array [] => Token.openBracket.text ++ Token.closeBracket.text
  | array items =>
    Token.openBracket.text ++ itemLines (level + 1) items ++ newLine level ++
      Token.closeBracket.text
  | object [] => Token.openBrace.text ++ Token.closeBrace.text
  | object fields =>
    Token.openBrace.text ++ fieldLines (level + 1) fields ++ newLine level ++ Token.closeBrace.text

/-- The items of an array, each on new lines. -/
def itemLines (level : Nat) : List Value → List Char
  | [] => []
  | [item] => newLine level ++ item.lines level
  | item :: rest => newLine level ++ item.lines level ++ Token.comma.text ++ itemLines level rest

/-- The fields of an object, each on new lines. -/
def fieldLines (level : Nat) : List (List Char × Value) → List Char
  | [] => []
  | [(name, value)] =>
    newLine level ++ (Token.string name).text ++ Token.colon.text ++ ' ' :: value.lines level
  | (name, value) :: rest =>
    newLine level ++ (Token.string name).text ++ Token.colon.text ++ ' ' :: value.lines level ++
      Token.comma.text ++ fieldLines level rest

end

end Value

/-- A value on one line, without white space. -/
def compact (value : Value) : String :=
  String.ofList (value.tokens.flatMap Token.text)

/-- A value over several lines. -/
def pretty (value : Value) : String :=
  String.ofList (value.lines 0)

end X86Length.Json
