import Mathlib.Data.List.Basic
import Mathlib.Data.List.Forall2
import Mathlib.Data.List.TakeWhile
import X86Length.Proofs.SpacedHex

/-! # How bytes may be written

A text is divided into tokens by separators (`Divides`), and a token spells bytes with two digits
for each, perhaps behind a marker (`Spells`).  Texts are read as bytes if and only if they are a
layout of these bytes (`Layout`), whatever the separators, the markers, the case of the digits and
the places at which the bytes are cut.  Any other texts are refused for the first token that spells
nothing (`Refused`). -/

namespace X86Length.HexBytes

open Text

/-! ## The grammar -/

/-- The digits in lower case, each at the place of its value. -/
def lowerDigits : List Char :=
  ['0', '1', '2', '3', '4', '5', '6', '7', '8', '9', 'a', 'b', 'c', 'd', 'e', 'f']

/-- The digits in upper case, each at the place of its value. -/
def upperDigits : List Char :=
  ['0', '1', '2', '3', '4', '5', '6', '7', '8', '9', 'A', 'B', 'C', 'D', 'E', 'F']

def IsDigit (c : Char) (value : Nat) : Prop :=
  lowerDigits[value]? = some c ∨ upperDigits[value]? = some c

/-- Digits spell bytes, two for each, the high one first. -/
inductive Pairs : List Char → List UInt8 → Prop where
  | nil : Pairs [] []
  | cons {high low : Char} {byte : UInt8} {digits : List Char} {bytes : List UInt8}
      (isHigh : IsDigit high (byte.toNat / 16)) (isLow : IsDigit low (byte.toNat % 16))
      (others : Pairs digits bytes) : Pairs (high :: low :: digits) (byte :: bytes)

def markers : List (List Char) :=
  [['0', 'x'], ['0', 'X']]

/-- A token spells bytes, one at least, with or without a marker in front. -/
inductive Spells : List Char → List UInt8 → Prop where
  | plain {digits : List Char} {bytes : List UInt8} (nonempty : bytes ≠ [])
      (pairs : Pairs digits bytes) : Spells digits bytes
  | marked {marker digits : List Char} {bytes : List UInt8} (isMarker : marker ∈ markers)
      (nonempty : bytes ≠ []) (pairs : Pairs digits bytes) : Spells (marker ++ digits) bytes

/-- The characters with the property `White_Space`, and the comma. -/
def separators : List Char :=
  ['\t', '\n', '\u000B', '\u000C', '\r', ' ', '\u0085', '\u00A0', '\u1680',
   '\u2000', '\u2001', '\u2002', '\u2003', '\u2004', '\u2005', '\u2006', '\u2007', '\u2008',
   '\u2009', '\u200A', '\u2028', '\u2029', '\u202F', '\u205F', '\u3000', ',']

/-- A text is divided into tokens, the longest runs of characters that separate nothing. -/
inductive Divides : List Char → List (List Char) → Prop where
  | nil : Divides [] []
  | separator {c : Char} {text : List Char} {tokens : List (List Char)}
      (separates : c ∈ separators) (others : Divides text tokens) : Divides (c :: text) tokens
  | token {token text : List Char} {tokens : List (List Char)} (nonempty : token ≠ [])
      (solid : ∀ c ∈ token, c ∉ separators) (ends : ∀ c ∈ text.head?, c ∈ separators)
      (others : Divides text tokens) : Divides (token ++ text) (token :: tokens)

/-- Several texts are divided into tokens, each for itself. -/
inductive DividesAll : List String → List (List Char) → Prop where
  | nil : DividesAll [] []
  | cons {text : String} {texts : List String} {first others : List (List Char)}
      (divides : Divides text.toList first) (rest : DividesAll texts others) :
      DividesAll (text :: texts) (first ++ others)

/-- Texts are a layout of bytes, which are distributed over one token at least. -/
def Layout (texts : List String) (bytes : List UInt8) : Prop :=
  ∃ tokens pieces, DividesAll texts tokens ∧ tokens ≠ [] ∧ List.Forall₂ Spells tokens pieces ∧
    pieces.flatten = bytes

/-- What remains of a token behind its marker, if it starts with one. -/
inductive Unmarked : List Char → List Char → Prop where
  | plain {token : List Char} (unmarked : ∀ marker ∈ markers, ¬ marker <+: token) :
      Unmarked token token
  | marked {marker : List Char} (isMarker : marker ∈ markers) (rest : List Char) :
      Unmarked (marker ++ rest) rest

/-- Characters that are no digits, or none at all. -/
def NoDigits (rest : List Char) : Prop :=
  rest = [] ∨ ∃ c ∈ rest, ∀ value, ¬ IsDigit c value

/-- The message for a token that spells no bytes.  It quotes the token with its marker. -/
inductive Offends : List Char → String → Prop where
  | invalid {token rest : List Char} (unmarked : Unmarked token rest) (wrong : NoDigits rest) :
      Offends token ("invalid hex byte `" ++ String.ofList token ++ "`")
  | odd {token rest : List Char} (unmarked : Unmarked token rest) (right : ¬ NoDigits rest)
      (odd : rest.length % 2 = 1) :
      Offends token ("odd number of hex digits in `" ++ String.ofList token ++ "`")

/-- Tokens are refused for the first of them that spells no bytes, or because there are none. -/
inductive Refused : List (List Char) → String → Prop where
  | nothing : Refused [] "no bytes given"
  | first {before behind : List (List Char)} {token : List Char} {message : String}
      (spelled : ∀ earlier ∈ before, ∃ bytes, Spells earlier bytes)
      (offends : Offends token message) : Refused (before ++ token :: behind) message

/-! ## Separators -/

theorem isSeparator_iff {c : Char} : isSeparator c = true ↔ c ∈ separators := by
  constructor
  · intro separates
    have reason : (∃ range ∈ blankRanges, range.1 ≤ c.toNat ∧ c.toNat ≤ range.2) ∨ c = ',' := by
      simpa [isSeparator, isBlank, isInRanges] using separates
    rcases reason with ⟨range, isRange, first, last⟩ | rfl
    · have codes : ∀ range ∈ blankRanges, ∀ n < range.2 + 1 - range.1,
          range.1 + n ∈ separators.map Char.toNat := by decide
      have code := codes range isRange (c.toNat - range.1) (by omega)
      rw [Nat.add_sub_cancel' first] at code
      exact (List.mem_map_of_injective fun _ _ => Char.toNat_inj.mp).mp code
    · decide
  · have all : separators.all isSeparator = true := by decide
    exact List.all_eq_true.mp all c

theorem isSeparator_eq_false_iff {c : Char} : isSeparator c = false ↔ c ∉ separators := by
  rw [← isSeparator_iff, Bool.not_eq_true]

/-! ## Tokens -/

theorem eq_of_divides {text : List Char} {tokens : List (List Char)}
    (divides : Divides text tokens) :
    (text.splitOnP isSeparator).filter (!·.isEmpty) = tokens := by
  induction divides with
  | nil => rfl
  | separator separates others ih =>
    rw [List.splitOnP_cons_eq_if_modifyHead, if_pos (isSeparator_iff.mpr separates)]
    exact ih
  | @token token text tokens nonempty solid ends others ih =>
    have solid : ∀ c ∈ token, isSeparator c = false :=
      fun c inToken => isSeparator_eq_false_iff.mpr (solid c inToken)
    cases text with
    | nil =>
      rw [List.append_nil, List.splitOnP_eq_singleton solid]
      rw [List.splitOnP_nil] at ih
      simpa [nonempty] using ih
    | cons c text =>
      have separates : isSeparator c = true := isSeparator_iff.mpr (ends c rfl)
      rw [List.splitOnP_cons_eq_if_modifyHead, if_pos separates] at ih
      rw [List.splitOnP_append_cons_of_forall_mem solid c separates]
      simpa [nonempty] using ih

theorem exists_divides (text : List Char) : ∃ tokens, Divides text tokens := by
  match text with
  | [] => exact ⟨[], .nil⟩
  | c :: text =>
    cases separates : isSeparator c with
    | true =>
      obtain ⟨tokens, divides⟩ := exists_divides text
      exact ⟨tokens, .separator (isSeparator_iff.mp separates) divides⟩
    | false =>
      -- The token goes up to the next separator.
      have behind := List.dropWhile_suffix (l := text) (fun c => !isSeparator c)
      have shorter := behind.length_le
      obtain ⟨tokens, divides⟩ := exists_divides (text.dropWhile fun c => !isSeparator c)
      have divided : Divides
          (c :: text.takeWhile (fun c => !isSeparator c) ++
            text.dropWhile fun c => !isSeparator c)
          ((c :: text.takeWhile fun c => !isSeparator c) :: tokens) := by
        refine .token (List.cons_ne_nil _ _) ?_ ?_ divides
        · rw [List.forall_mem_cons]
          refine ⟨isSeparator_eq_false_iff.mp separates, fun c inFront => ?_⟩
          simpa [← isSeparator_eq_false_iff] using List.mem_takeWhile_imp inFront
        · intro c first
          have stops := List.head?_dropWhile_not (fun c => !isSeparator c) text
          rw [Option.mem_def.mp first] at stops
          simpa [isSeparator_iff] using stops
      rw [List.cons_append, List.takeWhile_append_dropWhile] at divided
      exact ⟨_, divided⟩
termination_by text.length
decreasing_by all_goals simp only [List.length_cons]; omega

theorem divides_iff {text : List Char} {tokens : List (List Char)} :
    Divides text tokens ↔ (text.splitOnP isSeparator).filter (!·.isEmpty) = tokens := by
  constructor
  · exact eq_of_divides
  · rintro rfl
    obtain ⟨tokens, divides⟩ := exists_divides text
    rwa [eq_of_divides divides]

theorem dividesAll_iff {texts : List String} {found : List (List Char)} :
    DividesAll texts found ↔ tokens texts = found := by
  constructor
  · intro divides
    induction divides with
    | nil => rfl
    | cons first rest ih => rw [tokens_cons, divides_iff.mp first, ih]
  · rintro rfl
    induction texts with
    | nil => exact .nil
    | cons text texts ih =>
      rw [tokens_cons]
      exact .cons (divides_iff.mpr rfl) ih

/-! ## Digits -/

theorem toNat_lt_of_hexDigitValue? {c : Char} {value : Nat}
    (isDigit : hexDigitValue? c = some value) : c.toNat < 128 := by
  have ordered {last : Char} (inRange : c ≤ last) : c.toNat ≤ last.toNat := inRange
  unfold hexDigitValue? at isDigit
  split_ifs at isDigit with decimal lower upper
  · exact Nat.lt_of_le_of_lt (ordered decimal.2) (by decide)
  · exact Nat.lt_of_le_of_lt (ordered lower.2) (by decide)
  · exact Nat.lt_of_le_of_lt (ordered upper.2) (by decide)

theorem hexDigitValue?_eq_some_iff {c : Char} {value : Nat} :
    hexDigitValue? c = some value ↔ IsDigit c value := by
  constructor
  · intro isDigit
    have ascii : ∀ n < 128, ∀ value ∈ hexDigitValue? (Char.ofNat n),
        lowerDigits[value]? = some (Char.ofNat n) ∨ upperDigits[value]? = some (Char.ofNat n) := by
      decide +kernel
    have listed := ascii c.toNat (toNat_lt_of_hexDigitValue? isDigit) value
    rw [Char.ofNat_toNat] at listed
    exact listed isDigit
  · have lower : ∀ value < 16, lowerDigits[value]?.bind hexDigitValue? = some value := by decide
    have upper : ∀ value < 16, upperDigits[value]?.bind hexDigitValue? = some value := by decide
    rintro (isLower | isUpper)
    · have found := lower value (List.getElem?_eq_some_iff.mp isLower).1
      rwa [isLower] at found
    · have found := upper value (List.getElem?_eq_some_iff.mp isUpper).1
      rwa [isUpper] at found

theorem isSome_hexDigitValue?_iff {c : Char} :
    (hexDigitValue? c).isSome = true ↔ ∃ value, IsDigit c value := by
  simp only [Option.isSome_iff_exists, hexDigitValue?_eq_some_iff]

theorem IsDigit.lt {c : Char} {value : Nat} (isDigit : IsDigit c value) : value < 16 := by
  rcases isDigit with isLower | isUpper
  · exact (List.getElem?_eq_some_iff.mp isLower).1
  · exact (List.getElem?_eq_some_iff.mp isUpper).1

/-- Two digits make a byte. -/
theorem IsDigit.exists_byte {high low : Char} {highValue lowValue : Nat}
    (isHigh : IsDigit high highValue) (isLow : IsDigit low lowValue) :
    ∃ byte : UInt8, IsDigit high (byte.toNat / 16) ∧ IsDigit low (byte.toNat % 16) := by
  have := isHigh.lt
  have := isLow.lt
  have value : (UInt8.ofNat (16 * highValue + lowValue)).toNat = 16 * highValue + lowValue :=
    UInt8.toNat_ofNat_of_lt' (by rw [UInt8.size]; omega)
  refine ⟨UInt8.ofNat (16 * highValue + lowValue), ?_⟩
  rw [value, show (16 * highValue + lowValue) / 16 = highValue by omega,
    show (16 * highValue + lowValue) % 16 = lowValue by omega]
  exact ⟨isHigh, isLow⟩

theorem Pairs.ofDigits_eq {digits : List Char} {bytes : List UInt8} (pairs : Pairs digits bytes) :
    ofDigits digits = bytes := by
  induction pairs with
  | nil => rfl
  | cons isHigh isLow others ih =>
    rw [ofDigits, hexDigitValue?_eq_some_iff.mpr isHigh, hexDigitValue?_eq_some_iff.mpr isLow, ih]
    simp [Nat.div_add_mod]

theorem Pairs.digits {digits : List Char} {bytes : List UInt8} (pairs : Pairs digits bytes) :
    (∀ c ∈ digits, ∃ value, IsDigit c value) ∧ digits.length = 2 * bytes.length := by
  induction pairs with
  | nil => simp
  | cons isHigh isLow others ih =>
    refine ⟨?_, ?_⟩
    · rw [List.forall_mem_cons, List.forall_mem_cons]
      exact ⟨⟨_, isHigh⟩, ⟨_, isLow⟩, ih.1⟩
    · simp only [List.length_cons, ih.2]
      omega

theorem exists_pairs {digits : List Char} (all : ∀ c ∈ digits, ∃ value, IsDigit c value)
    (even : digits.length % 2 = 0) : ∃ bytes, Pairs digits bytes := by
  match digits with
  | [] => exact ⟨[], .nil⟩
  | [_] => cases even
  | high :: low :: digits =>
    rw [List.forall_mem_cons, List.forall_mem_cons] at all
    obtain ⟨⟨_, isHigh⟩, ⟨_, isLow⟩, all⟩ := all
    simp only [List.length_cons] at even
    obtain ⟨bytes, pairs⟩ := exists_pairs all (by omega)
    obtain ⟨byte, isHigh, isLow⟩ := isHigh.exists_byte isLow
    exact ⟨byte :: bytes, .cons isHigh isLow pairs⟩

/-! ## One token -/

theorem unmarked_iff {token rest : List Char} :
    Unmarked token rest ↔ (hexDigits? token).getD token = rest := by
  constructor
  · intro unmarked
    cases unmarked with
    | plain unmarked =>
      unfold hexDigits?
      split
      · exact absurd (List.prefix_append ['0', 'x'] _) (unmarked _ (by decide))
      · exact absurd (List.prefix_append ['0', 'X'] _) (unmarked _ (by decide))
      · rfl
    | marked isMarker rest =>
      simp only [markers, List.mem_cons, List.not_mem_nil, or_false] at isMarker
      obtain rfl | rfl := isMarker <;> rfl
  · rintro rfl
    unfold hexDigits?
    split
    · exact @Unmarked.marked ['0', 'x'] (by decide) _
    · exact @Unmarked.marked ['0', 'X'] (by decide) _
    next noLower noUpper =>
      apply Unmarked.plain
      rintro marker isMarker ⟨rest, rfl⟩
      simp only [markers, List.mem_cons, List.not_mem_nil, or_false] at isMarker
      obtain rfl | rfl := isMarker
      · exact noLower _ rfl
      · exact noUpper _ rfl

/-- Digits alone do not look like a token with a marker. -/
theorem not_prefix_of_isDigit {digits : List Char} (all : ∀ c ∈ digits, ∃ value, IsDigit c value) :
    ∀ marker ∈ markers, ¬ marker <+: digits := by
  rintro marker isMarker ⟨rest, rfl⟩
  have noDigit : ∃ c ∈ marker, hexDigitValue? c = none := by
    simp only [markers, List.mem_cons, List.not_mem_nil, or_false] at isMarker
    obtain rfl | rfl := isMarker
    · exact ⟨'x', by decide, by decide⟩
    · exact ⟨'X', by decide, by decide⟩
  obtain ⟨c, inMarker, none⟩ := noDigit
  obtain ⟨value, isDigit⟩ := all c (List.mem_append_left _ inMarker)
  rw [hexDigitValue?_eq_some_iff.mpr isDigit] at none
  cases none

theorem Pairs.unmarked {digits : List Char} {bytes : List UInt8} (pairs : Pairs digits bytes) :
    Unmarked digits digits :=
  .plain (not_prefix_of_isDigit pairs.digits.1)

theorem spells_iff {token : List Char} {bytes : List UInt8} :
    Spells token bytes ↔ ∃ rest, Unmarked token rest ∧ bytes ≠ [] ∧ Pairs rest bytes := by
  constructor
  · intro spells
    cases spells with
    | plain nonempty pairs => exact ⟨token, pairs.unmarked, nonempty, pairs⟩
    | marked isMarker nonempty pairs => exact ⟨_, .marked isMarker _, nonempty, pairs⟩
  · rintro ⟨rest, unmarked, nonempty, pairs⟩
    cases unmarked with
    | plain => exact .plain nonempty pairs
    | marked isMarker => exact .marked isMarker nonempty pairs

theorem not_noDigits_iff {rest : List Char} :
    ¬ NoDigits rest ↔ rest ≠ [] ∧ ∀ c ∈ rest, ∃ value, IsDigit c value := by
  simp [NoDigits]

theorem noDigits_iff (rest : List Char) :
    (rest.isEmpty || !rest.all fun c => (hexDigitValue? c).isSome) = true ↔ NoDigits rest := by
  rw [← not_iff_not, not_noDigits_iff]
  simp only [← isSome_hexDigitValue?_iff, Bool.or_eq_true, not_or, Bool.not_eq_true,
    Bool.not_eq_false', List.isEmpty_eq_false_iff, List.all_eq_true]

theorem ofToken_of_noDigits {token rest : List Char} (unmarked : Unmarked token rest)
    (wrong : NoDigits rest) : ofToken token = .error (.invalidToken (String.ofList token)) := by
  simp only [ofToken, unmarked_iff.mp unmarked]
  rw [if_pos ((noDigits_iff rest).mpr wrong)]

theorem ofToken_of_digits {token rest : List Char} (unmarked : Unmarked token rest)
    (right : ¬ NoDigits rest) :
    ofToken token =
      if rest.length % 2 = 1 then .error (.oddToken (String.ofList token))
      else .ok (ofDigits rest) := by
  simp only [ofToken, unmarked_iff.mp unmarked]
  rw [if_neg (mt (noDigits_iff rest).mp right)]

/-- A token spells bytes, or there is something wrong with it. -/
theorem ofToken_cases (token : List Char) :
    (∃ bytes, Spells token bytes ∧ ofToken token = .ok bytes) ∨
      ∃ error, Offends token error.message ∧ ofToken token = .error error := by
  have unmarked : Unmarked token ((hexDigits? token).getD token) := unmarked_iff.mpr rfl
  generalize (hexDigits? token).getD token = rest at unmarked
  by_cases wrong : NoDigits rest
  · exact .inr ⟨.invalidToken (String.ofList token), .invalid unmarked wrong,
      ofToken_of_noDigits unmarked wrong⟩
  · rw [ofToken_of_digits unmarked wrong]
    by_cases odd : rest.length % 2 = 1
    · rw [if_pos odd]
      exact .inr ⟨.oddToken (String.ofList token), .odd unmarked wrong odd, rfl⟩
    · obtain ⟨nonempty, digits⟩ := not_noDigits_iff.mp wrong
      obtain ⟨bytes, pairs⟩ := exists_pairs digits (by omega)
      rw [if_neg odd, pairs.ofDigits_eq]
      refine .inl ⟨bytes, spells_iff.mpr ⟨rest, unmarked, ?_, pairs⟩, rfl⟩
      rintro rfl
      cases pairs
      exact nonempty rfl

theorem ofToken_of_spells {token : List Char} {bytes : List UInt8} (spells : Spells token bytes) :
    ofToken token = .ok bytes := by
  obtain ⟨rest, unmarked, nonempty, pairs⟩ := spells_iff.mp spells
  obtain ⟨digits, even⟩ := pairs.digits
  have right : ¬ NoDigits rest := by
    refine not_noDigits_iff.mpr ⟨?_, digits⟩
    rintro rfl
    cases pairs
    exact nonempty rfl
  rw [ofToken_of_digits unmarked right, if_neg (by omega), pairs.ofDigits_eq]

theorem ofToken_of_offends {token : List Char} {message : String}
    (offends : Offends token message) :
    ∃ error, ofToken token = .error error ∧ error.message = message := by
  cases offends with
  | invalid unmarked wrong => exact ⟨_, ofToken_of_noDigits unmarked wrong, rfl⟩
  | odd unmarked right odd =>
    refine ⟨.oddToken (String.ofList token), ?_, rfl⟩
    rw [ofToken_of_digits unmarked right, if_pos odd]

/-! ## All tokens -/

theorem ofTokens_of_spells {tokens : List (List Char)} {pieces : List (List UInt8)}
    (spell : List.Forall₂ Spells tokens pieces) : ofTokens tokens = .ok pieces.flatten := by
  induction spell with
  | nil => rfl
  | cons first others ih =>
    rw [ofTokens, ofToken_of_spells first, ih]
    rfl

theorem ofTokens_of_offends {before behind : List (List Char)} {token : List Char}
    {message : String} (spelled : ∀ earlier ∈ before, ∃ bytes, Spells earlier bytes)
    (offends : Offends token message) :
    ∃ error, ofTokens (before ++ token :: behind) = .error error ∧ error.message = message := by
  induction before with
  | nil =>
    obtain ⟨error, refused, named⟩ := ofToken_of_offends offends
    refine ⟨error, ?_, named⟩
    rw [List.nil_append, ofTokens, refused]
  | cons first before ih =>
    rw [List.forall_mem_cons] at spelled
    obtain ⟨⟨bytes, spells⟩, spelled⟩ := spelled
    obtain ⟨error, refused, named⟩ := ih spelled
    refine ⟨error, ?_, named⟩
    rw [List.cons_append, ofTokens, ofToken_of_spells spells, refused]
    rfl

/-- Tokens spell bytes, or there is a first one that does not. -/
theorem ofTokens_cases (tokens : List (List Char)) :
    (∃ pieces, List.Forall₂ Spells tokens pieces ∧ ofTokens tokens = .ok pieces.flatten) ∨
      ∃ before token behind error, tokens = before ++ token :: behind ∧
        (∀ earlier ∈ before, ∃ bytes, Spells earlier bytes) ∧ Offends token error.message ∧
        ofTokens tokens = .error error := by
  induction tokens with
  | nil => exact .inl ⟨[], .nil, rfl⟩
  | cons token tokens ih =>
    rw [ofTokens]
    rcases ofToken_cases token with ⟨bytes, spells, read⟩ | ⟨error, offends, refused⟩
    · rw [read]
      rcases ih with ⟨pieces, spell, others⟩ |
        ⟨before, wrong, behind, error, rfl, spelled, offends, refused⟩
      · rw [others]
        exact .inl ⟨bytes :: pieces, .cons spells spell, rfl⟩
      · rw [refused]
        refine .inr ⟨token :: before, wrong, behind, error, rfl, ?_, offends, rfl⟩
        exact List.forall_mem_cons.mpr ⟨⟨bytes, spells⟩, spelled⟩
    · rw [refused]
      exact .inr ⟨[], token, tokens, error, rfl, by simp, offends, rfl⟩

/-! ## Texts -/

theorem Spells.ne_nil {token : List Char} {bytes : List UInt8} (spells : Spells token bytes) :
    bytes ≠ [] := by
  cases spells <;> assumption

theorem flatten_ne_nil_of_spells {tokens : List (List Char)} {pieces : List (List UInt8)}
    (given : tokens ≠ []) (spell : List.Forall₂ Spells tokens pieces) : pieces.flatten ≠ [] := by
  cases spell with
  | nil => exact absurd rfl given
  | cons first others => simp [first.ne_nil]

theorem read_of_ok {texts : List String} {bytes : List UInt8}
    (spelled : ofTokens (tokens texts) = .ok bytes) (nonempty : bytes ≠ []) :
    read texts = .ok bytes := by
  rw [read, spelled]
  cases bytes with
  | nil => exact absurd rfl nonempty
  | cons byte bytes => rfl

theorem read_of_error {texts : List String} {error : HexError}
    (refused : ofTokens (tokens texts) = .error error) : read texts = .error error := by
  rw [read, refused]

theorem read_of_layout {texts : List String} {bytes : List UInt8} (layout : Layout texts bytes) :
    read texts = .ok bytes := by
  obtain ⟨found, pieces, divides, given, spell, rfl⟩ := layout
  obtain rfl := dividesAll_iff.mp divides
  exact read_of_ok (ofTokens_of_spells spell) (flatten_ne_nil_of_spells given spell)

theorem read_of_refused {texts : List String} {message : String}
    (refused : Refused (tokens texts) message) :
    ∃ error, read texts = .error error ∧ error.message = message := by
  generalize found : tokens texts = given at refused
  cases refused with
  | nothing =>
    refine ⟨.noBytes, ?_, rfl⟩
    rw [read, found]
    rfl
  | first spelled offends =>
    obtain ⟨error, wrong, named⟩ := ofTokens_of_offends spelled offends
    rw [← found] at wrong
    exact ⟨error, read_of_error wrong, named⟩

/-- Texts are a layout of bytes, or they are refused. -/
theorem read_cases (texts : List String) :
    (∃ bytes, Layout texts bytes ∧ read texts = .ok bytes) ∨
      ∃ error, Refused (tokens texts) error.message ∧ read texts = .error error := by
  by_cases given : tokens texts = []
  · obtain ⟨error, refused, named⟩ := read_of_refused (given ▸ Refused.nothing)
    exact .inr ⟨error, named ▸ given ▸ .nothing, refused⟩
  · rcases ofTokens_cases (tokens texts) with ⟨pieces, spell, read⟩ |
      ⟨before, token, behind, error, found, spelled, offends, wrong⟩
    · refine .inl ⟨pieces.flatten, ?_, read_of_ok read (flatten_ne_nil_of_spells given spell)⟩
      exact ⟨_, pieces, dividesAll_iff.mpr rfl, given, spell, rfl⟩
    · refine .inr ⟨error, ?_, read_of_error wrong⟩
      rw [found]
      exact .first spelled offends

theorem read_ok_iff {texts : List String} {bytes : List UInt8} :
    read texts = .ok bytes ↔ Layout texts bytes := by
  constructor
  · intro read
    rcases read_cases texts with ⟨found, layout, again⟩ | ⟨error, -, refused⟩
    · rw [read] at again
      cases again
      exact layout
    · rw [read] at refused
      cases refused
  · exact read_of_layout

theorem read_error_iff {texts : List String} {message : String} :
    (∃ error, read texts = .error error ∧ error.message = message) ↔
      ∃ found, DividesAll texts found ∧ Refused found message := by
  constructor
  · rintro ⟨error, refused, rfl⟩
    rcases read_cases texts with ⟨bytes, -, read⟩ | ⟨found, refused', again⟩
    · rw [read] at refused
      cases refused
    · rw [refused] at again
      cases again
      exact ⟨_, dividesAll_iff.mpr rfl, refused'⟩
  · rintro ⟨found, divides, refused⟩
    rw [← dividesAll_iff.mp divides] at refused
    exact read_of_refused refused

end X86Length.HexBytes
