import X86Length.Text.NumberReader

/-! # Tokens of JSON text

JSON text is a sequence of tokens with white space between them.  `Token.text` writes a token;
`tokens?` cuts a text into tokens, and refuses a text that holds anything else.

A string token keeps its body as it is written, escapes included, and a number token keeps its
numeral: what they stand for matters only where a value is used. -/

namespace X86Length.Json

/-- One token of JSON text. -/
inductive Token where
  | openBrace
  | closeBrace
  | openBracket
  | closeBracket
  | comma
  | colon
  | null
  | bool (value : Bool)
  | number (numeral : List Char)
  -- A string, as it is written between its quotes.
  | string (body : List Char)
  deriving DecidableEq, Repr

/-- A token as it is written. -/
def Token.text : Token → List Char
  | openBrace => ['\x7b']
  | closeBrace => ['\x7d']
  | openBracket => ['[']
  | closeBracket => [']']
  | comma => [',']
  | colon => [':']
  | null => "null".toList
  | bool true => "true".toList
  | bool false => "false".toList
  | number numeral => numeral
  | string body => '"' :: (body ++ ['"'])

/-! ## Character classes -/

/-- Is a character white space between tokens? -/
def isSpace (c : Char) : Bool :=
  c == ' ' || c == '\n' || c == '\t' || c == '\r'

/-- Can a character be part of a number or of a literal name? -/
def isWordChar (c : Char) : Bool :=
  c.isAlphanum || c == '+' || c == '-' || c == '.'

/-- The token that a single character makes. -/
def punctuation? (c : Char) : Option Token :=
  if c == '\x7b' then some .openBrace
  else if c == '\x7d' then some .closeBrace
  else if c == '[' then some .openBracket
  else if c == ']' then some .closeBracket
  else if c == ',' then some .comma
  else if c == ':' then some .colon
  else none

/-- The characters that may follow a backslash, other than the `u` of a numbered character. -/
def escapeLetters : List Char :=
  ['"', '\\', '/', 'b', 'f', 'n', 'r', 't']

/-! ## Words -/

/-- Is this an exponent, or nothing? -/
def isExponent : List Char → Bool
  | [] => true
  | e :: rest =>
    (e == 'e' || e == 'E') &&
      match rest with
      | '+' :: digits | '-' :: digits | digits => !digits.isEmpty && digits.all Char.isDigit

/-- Is this a fraction with an exponent, either of which may be missing? -/
def isFractionExponent : List Char → Bool
  | '.' :: rest =>
    !(rest.takeWhile Char.isDigit).isEmpty && isExponent (rest.dropWhile Char.isDigit)
  | rest => isExponent rest

/-- Are these the digits of a whole number without needless zeros? -/
def isWhole : List Char → Bool
  | [] => false
  | ['0'] => true
  | first :: rest => first != '0' && first.isDigit && rest.all Char.isDigit

/-- Is this a number as JSON writes it? -/
def isNumeral (word : List Char) : Bool :=
  let unsigned := match word with
    | '-' :: rest => rest
    | rest => rest
  isWhole (unsigned.takeWhile Char.isDigit) && isFractionExponent (unsigned.dropWhile Char.isDigit)

/-- The token that a word makes: a literal name or a number. -/
def wordToken? (word : List Char) : Option Token :=
  if word == Token.null.text then some .null
  else if word == (Token.bool true).text then some (.bool true)
  else if word == (Token.bool false).text then some (.bool false)
  else if isNumeral word then some (.number word)
  else none

/-! ## Cutting a text into tokens -/

/-- Where the reader of a text stands.  What it has read of the present token is kept backwards. -/
inductive Scanner where
  | between
  | word (read : List Char)
  | string (read : List Char)
  | escape (read : List Char)
  -- In a string, in the number of a character, with this many more digits to come than one.
  | numbered (left : Nat) (read : List Char)
  deriving DecidableEq, Repr

namespace Scanner

/-- A character between two tokens: where it leads, and the token that it makes. -/
def start (c : Char) : Option (Scanner × List Token) :=
  if isSpace c then some (between, [])
  else if c == '"' then some (string [], [])
  else if isWordChar c then some (word [c], [])
  else (punctuation? c).map fun token => (between, [token])

/-- One more character: where it leads, and the tokens that it completes. -/
def step (c : Char) : Scanner → Option (Scanner × List Token)
  | between => start c
  | word read =>
    if isWordChar c then some (word (c :: read), [])
    else
      match wordToken? read.reverse, start c with
      | some token, some (next, done) => some (next, token :: done)
      | _, _ => none
  | string read =>
    if c == '"' then some (between, [.string read.reverse])
    else if c == '\\' then some (escape (c :: read), [])
    else if c < ' ' then none
    else some (string (c :: read), [])
  | escape read =>
    if c == 'u' then some (numbered 3 (c :: read), [])
    else if escapeLetters.contains c then some (string (c :: read), [])
    else none
  | numbered left read =>
    if (Text.hexDigitValue? c).isSome then
      match left with
      | 0 => some (string (c :: read), [])
      | left + 1 => some (numbered left (c :: read), [])
    else none

/-- The tokens that the end of the text completes; a string has to be closed. -/
def finish : Scanner → Option (List Token)
  | between => some []
  | word read => (wordToken? read.reverse).map ([·])
  | _ => none

/-- The tokens of the rest of a text. -/
def run : Scanner → List Char → Option (List Token)
  | scanner, [] => scanner.finish
  | scanner, c :: rest =>
    match scanner.step c with
    | none => none
    | some (next, done) => (run next rest).map (done ++ ·)

end Scanner

/-- The tokens of a text. -/
def tokens? (text : List Char) : Option (List Token) :=
  Scanner.run .between text

end X86Length.Json
