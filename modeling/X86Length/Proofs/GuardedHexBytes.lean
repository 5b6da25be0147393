import X86Length.Proofs.HexGrammar

/-! # Reading hexadecimal bytes under guard

A machine keeps a text as its UTF-8 bytes.  It looks at these to tell digits, counts them, and cuts
two digits at a time out of the text by their places.  A cut has no answer where it falls outside of
the text or into a character, and the two digits may still fail to convert, as a sign in front of a
number would convert that is no digit.

Each of this is tested here, and none of the tests ever fails (`readTexts_eq`): the digits are known
to be ASCII before the first cut.  With the grammar this gives the main statement on reading bytes
(`read_follows_grammar`). -/

namespace X86Length.Guarded

open Text HexBytes

/-! ## Texts as bytes -/

/-- Why a guarded reading ends early. -/
inductive ReadingHalt where
  -- A cut falls outside of the text or into a character.
  | badCut
  -- A piece of a token does not convert.
  | badPiece (piece token : String)
  | error (error : HexError)
  deriving DecidableEq, Repr

/-- The bytes of a text. -/
def utf8 (text : List Char) : List UInt8 :=
  text.flatMap String.utf8EncodeChar

/-- Is a byte the code of a hexadecimal digit? -/
def isDigitByte (byte : UInt8) : Bool :=
  (0x30 ≤ byte && byte ≤ 0x39) || (0x41 ≤ byte && byte ≤ 0x46) || (0x61 ≤ byte && byte ≤ 0x66)

/-- The two parts of a text in front of a byte and from it on, if a character starts there or the
    text ends. -/
def cutAt? : Nat → List Char → Option (List Char × List Char)
  | 0, text => some ([], text)
  | _ + 1, [] => none
  | place + 1, c :: text =>
    if c.utf8Size ≤ place + 1 then
      (cutAt? (place + 1 - c.utf8Size) text).map fun parts => (c :: parts.1, parts.2)
    else none

/-- The part of a text from one byte on and in front of another. -/
def sliceText (text : List Char) (start stop : Nat) : Except ReadingHalt (List Char) :=
  match cutAt? start text with
  | none => .error .badCut
  | some (_, behind) =>
    match if start ≤ stop then cutAt? (stop - start) behind else none with
    | none => .error .badCut
    | some (part, _) => .ok part

/-! ## Reading -/

/-- The byte that a numeral stands for. -/
def readByte (numeral : List Char) : Except NumberError UInt8 :=
  match readNumber 16 numeral with
  | .error error => .error error
  | .ok value => if value < 256 then .ok (UInt8.ofNat value) else .error .tooLarge

def readPiece (token piece : List Char) : Except ReadingHalt UInt8 :=
  (readByte piece).mapError fun _ => .badPiece (String.ofList piece) (String.ofList token)

/-- The bytes of the digits of a token from a place on. -/
def readPieces (token digits : List Char) (start : Nat) : Except ReadingHalt (List UInt8) :=
  if start < (utf8 digits).length then
    match sliceText digits start (start + 2) with
    | .error halt => .error halt
    | .ok piece =>
      match readPiece token piece with
      | .error halt => .error halt
      | .ok byte => (readPieces token digits (start + 2)).map (byte :: ·)
  else .ok []
termination_by (utf8 digits).length - start

def readToken (token : List Char) : Except ReadingHalt (List UInt8) :=
  let digits := (hexDigits? token).getD token
  if digits.isEmpty || !(utf8 digits).all isDigitByte then
    .error (.error (.invalidToken (String.ofList token)))
  else if (utf8 digits).length % 2 = 1 then
    .error (.error (.oddToken (String.ofList token)))
  else readPieces token digits 0

def readTokens : List (List Char) → Except ReadingHalt (List UInt8)
  | [] => .ok []
  | token :: rest =>
    match readToken token with
    | .error halt => .error halt
    | .ok bytes => (readTokens rest).map (bytes ++ ·)

/-- The bytes that texts stand for. -/
def readTexts (texts : List String) : Except ReadingHalt (List UInt8) :=
  match readTokens (tokens texts) with
  | .error halt => .error halt
  | .ok [] => .error (.error .noBytes)
  | .ok bytes => .ok bytes

/-! ## Digits are single bytes -/

theorem all_isDigitByte_utf8EncodeChar (c : Char) :
    (String.utf8EncodeChar c).all isDigitByte = (hexDigitValue? c).isSome := by
  by_cases ascii : c.toNat < 128
  · have each : ∀ n < 128, (String.utf8EncodeChar (Char.ofNat n)).all isDigitByte =
        (hexDigitValue? (Char.ofNat n)).isSome := by
      decide +kernel
    rw [← Char.ofNat_toNat c]
    exact each c.toNat ascii
  · have noDigit : hexDigitValue? c = none := by
      rw [Option.eq_none_iff_forall_ne_some]
      exact fun value isDigit => ascii (toNat_lt_of_hexDigitValue? isDigit)
    -- The last of several bytes is none of a digit.
    have last : isDigitByte (UInt8.ofNat (c.val.toNat % 64 + 128)) = false := by
      have each : ∀ n < 64, isDigitByte (UInt8.ofNat (n + 128)) = false := by decide
      exact each _ (Nat.mod_lt _ (by decide))
    have several : ¬ c.val.toNat ≤ 127 := fun single => ascii (Nat.lt_succ_of_le single)
    rw [noDigit, Option.isSome_none, String.utf8EncodeChar, if_neg several]
    split_ifs <;>
      simp only [List.all_cons, List.all_nil, last, Bool.and_true, Bool.and_false]

theorem all_isDigitByte_utf8 (text : List Char) :
    (utf8 text).all isDigitByte = text.all fun c => (hexDigitValue? c).isSome := by
  simp only [utf8, List.all_flatMap, all_isDigitByte_utf8EncodeChar]

theorem utf8Size_of_isDigit {c : Char} {value : Nat} (isDigit : IsDigit c value) :
    c.utf8Size = 1 := by
  have ascii := toNat_lt_of_hexDigitValue? (hexDigitValue?_eq_some_iff.mpr isDigit)
  exact Char.utf8Size_eq_one_iff.mpr (UInt32.le_iff_toNat_le.mpr (Nat.le_of_lt_succ ascii))

section Digits

variable {digits : List Char} (all : ∀ c ∈ digits, ∃ value, IsDigit c value)
include all

theorem length_utf8_of_digits : (utf8 digits).length = digits.length := by
  induction digits with
  | nil => rfl
  | cons c digits ih =>
    rw [List.forall_mem_cons] at all
    obtain ⟨⟨value, isDigit⟩, all⟩ := all
    have others := ih all
    rw [utf8] at others
    simp [utf8, utf8Size_of_isDigit isDigit, others, Nat.add_comm]

theorem cutAt?_of_digits {place : Nat} (inside : place ≤ digits.length) :
    cutAt? place digits = some (digits.take place, digits.drop place) := by
  induction digits generalizing place with
  | nil =>
    obtain rfl := Nat.le_zero.mp inside
    rfl
  | cons c digits ih =>
    rw [List.forall_mem_cons] at all
    obtain ⟨⟨value, isDigit⟩, all⟩ := all
    cases place with
    | zero => rfl
    | succ place =>
      simp [cutAt?, utf8Size_of_isDigit isDigit, ih all (Nat.le_of_succ_le_succ inside)]

theorem sliceText_of_digits {start stop : Nat} (ordered : start ≤ stop)
    (inside : stop ≤ digits.length) :
    sliceText digits start stop = .ok ((digits.drop start).take (stop - start)) := by
  have behind : ∀ c ∈ digits.drop start, ∃ value, IsDigit c value :=
    fun c inBehind => all c (List.mem_of_mem_drop inBehind)
  rw [sliceText, cutAt?_of_digits all (Nat.le_trans ordered inside)]
  simp only [if_pos ordered]
  rw [cutAt?_of_digits behind (by rw [List.length_drop]; omega)]

end Digits

/-! ## Pieces convert -/

theorem digitValue?_of_isDigit {c : Char} {value : Nat} (isDigit : IsDigit c value) :
    digitValue? 16 c = some value := by
  rw [digitValue?, hexDigitValue?_eq_some_iff.mpr isDigit, Option.filter_some,
    if_pos (by simpa using isDigit.lt)]

theorem readPiece_of_pair {high low : Char} {byte : UInt8}
    (isHigh : IsDigit high (byte.toNat / 16)) (isLow : IsDigit low (byte.toNat % 16))
    (token : List Char) : readPiece token [high, low] = .ok byte := by
  -- A sign would be read in front of the low digit.
  have unsigned : high ≠ '+' := by
    rintro rfl
    have noDigit : hexDigitValue? '+' = none := by decide
    rw [hexDigitValue?_eq_some_iff.mpr isHigh] at noDigit
    cases noDigit
  have fits : byte.toNat < wordLimit := Nat.lt_trans byte.toNat_lt (by decide)
  have front : byte.toNat / 16 < wordLimit := Nat.lt_of_le_of_lt (Nat.div_le_self _ _) fits
  have value : readNumber 16 [high, low] = .ok byte.toNat := by
    simp [readNumber, unsigned, readDigits, digitValue?_of_isDigit isHigh,
      digitValue?_of_isDigit isLow, front, fits, Nat.div_add_mod]
  simp only [readPiece, readByte, value, if_pos byte.toNat_lt, UInt8.ofNat_toNat]
  rfl

theorem readPieces_of_pairs {behind : List Char} {bytes : List UInt8} (pairs : Pairs behind bytes)
    {before : List Char} (all : ∀ c ∈ before, ∃ value, IsDigit c value) (token : List Char) :
    readPieces token (before ++ behind) before.length = .ok bytes := by
  induction pairs generalizing before with
  | nil =>
    rw [readPieces, List.append_nil, length_utf8_of_digits all, if_neg (Nat.lt_irrefl _)]
  | @cons high low byte behind bytes isHigh isLow others ih =>
    have whole : ∀ c ∈ before ++ high :: low :: behind, ∃ value, IsDigit c value := by
      simp only [List.forall_mem_append, List.forall_mem_cons]
      exact ⟨all, ⟨_, isHigh⟩, ⟨_, isLow⟩, others.digits.1⟩
    have front : ∀ c ∈ before ++ [high, low], ∃ value, IsDigit c value := by
      simp only [List.forall_mem_append, List.forall_mem_cons]
      exact ⟨all, ⟨_, isHigh⟩, ⟨_, isLow⟩, by simp⟩
    have later := ih front
    simp only [List.append_assoc, List.cons_append, List.nil_append, List.length_append,
      List.length_cons, List.length_nil] at later
    rw [readPieces, length_utf8_of_digits whole, if_pos (by simp),
      sliceText_of_digits whole (Nat.le_add_right _ 2) (by simp), List.drop_left]
    simp only [Nat.add_sub_cancel_left, List.take_succ_cons, List.take_zero,
      readPiece_of_pair isHigh isLow, later]
    rfl

/-! ## Nothing fails -/

theorem readToken_eq (token : List Char) : readToken token = (ofToken token).mapError .error := by
  -- The test of the bytes is one of the characters, so from here on every character is a byte.
  have unmarked : Unmarked token ((hexDigits? token).getD token) := unmarked_iff.mpr rfl
  simp only [readToken, all_isDigitByte_utf8]
  generalize (hexDigits? token).getD token = rest at unmarked
  by_cases wrong : NoDigits rest
  · rw [if_pos ((noDigits_iff rest).mpr wrong), ofToken_of_noDigits unmarked wrong]
    rfl
  · have digits := (not_noDigits_iff.mp wrong).2
    rw [if_neg (mt (noDigits_iff rest).mp wrong), ofToken_of_digits unmarked wrong,
      length_utf8_of_digits digits]
    by_cases odd : rest.length % 2 = 1
    · rw [if_pos odd, if_pos odd]
      rfl
    · obtain ⟨bytes, pairs⟩ := exists_pairs digits (by omega)
      rw [if_neg odd, if_neg odd, pairs.ofDigits_eq]
      exact @readPieces_of_pairs _ _ pairs [] (by simp) token

theorem readTokens_eq (tokens : List (List Char)) :
    readTokens tokens = (ofTokens tokens).mapError .error := by
  induction tokens with
  | nil => rfl
  | cons token tokens ih =>
    rw [readTokens, ofTokens, readToken_eq, ih]
    cases ofToken token with
    | error error => rfl
    | ok bytes => cases ofTokens tokens <;> rfl

theorem readTexts_eq (texts : List String) :
    readTexts texts = (read texts).mapError .error := by
  rw [readTexts, readTokens_eq]
  unfold HexBytes.read
  rcases ofTokens (tokens texts) with error | (_ | ⟨byte, bytes⟩) <;> rfl

/-- Texts are read as bytes if and only if they are a layout of these bytes, and they are refused
    with a message if and only if this is the one for their first token that spells no bytes, or
    they have no token.  The digits are cut out of the texts and converted without a test that
    fails. -/
theorem read_follows_grammar (texts : List String) :
    (∀ bytes, read texts = .ok bytes ↔ Layout texts bytes) ∧
    (∀ message, (∃ error, read texts = .error error ∧ error.message = message) ↔
      ∃ found, DividesAll texts found ∧ Refused found message) ∧
    readTexts texts = (read texts).mapError .error :=
  ⟨fun _ => read_ok_iff, fun _ => read_error_iff, readTexts_eq texts⟩

end X86Length.Guarded
