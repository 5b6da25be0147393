import X86Length.Text.Blank
import X86Length.Text.NumberReader

/-! # Bytes written in hexadecimal

Bytes are given as a list of texts.  Blanks and commas cut the texts into tokens; a token is an
even number of hexadecimal digits, and may have a marker `0x` or `0X` in front.  The first token
that breaks this rule is reported. -/

namespace X86Length.HexBytes

/-- Why texts are no bytes. -/
inductive HexError where
  | noBytes
  | invalidToken (token : String)
  | oddToken (token : String)
  deriving DecidableEq, Repr

/-- The text of an error. -/
def HexError.message : HexError → String
  | noBytes => "no bytes given"
  | invalidToken token => "invalid hex byte `" ++ token ++ "`"
  | oddToken token => "odd number of hex digits in `" ++ token ++ "`"

/-- Does a character separate tokens? -/
def isSeparator (c : Char) : Bool :=
  Text.isBlank c || c == ','

/-- The tokens of the texts, in order. -/
def tokens (texts : List String) : List (List Char) :=
  (texts.flatMap fun text => text.toList.splitOnP isSeparator).filter (!·.isEmpty)

/-- The bytes that digits make, two for each. -/
def ofDigits : List Char → List UInt8
  | high :: low :: rest =>
    UInt8.ofNat (16 * (Text.hexDigitValue? high).getD 0 + (Text.hexDigitValue? low).getD 0) ::
      ofDigits rest
  | _ => []

/-- The bytes of one token. -/
def ofToken (token : List Char) : Except HexError (List UInt8) :=
  let digits := (Text.hexDigits? token).getD token
  if digits.isEmpty || !digits.all (fun c => (Text.hexDigitValue? c).isSome) then
    .error (.invalidToken (String.ofList token))
  else if digits.length % 2 = 1 then
    .error (.oddToken (String.ofList token))
  else
    .ok (ofDigits digits)

/-- The bytes of tokens, up to the first that is wrong. -/
def ofTokens : List (List Char) → Except HexError (List UInt8)
  | [] => .ok []
  | token :: rest =>
    match ofToken token with
    | .error error => .error error
    | .ok bytes => (ofTokens rest).map (bytes ++ ·)

/-- The bytes that texts stand for. -/
def read (texts : List String) : Except HexError (List UInt8) :=
  match ofTokens (tokens texts) with
  | .error error => .error error
  | .ok [] => .error .noBytes
  | .ok bytes => .ok bytes

end X86Length.HexBytes
