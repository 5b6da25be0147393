import X86Length.Json.Reader
import X86Length.Proofs.HexGrammar
import X86Length.Proofs.JsonWords

/-! # How JSON may be written

A text writes tokens if it is their texts, in order, with white space between them (`Writes`).  Such
a text is cut into these tokens again, and the tokens of a value make this value whatever is still
open around it (`Reader.makes`).  So a text that writes a value, in whatever way, reads as the value
(`read?_of_writes`). -/

namespace X86Length.Json

/-! ## The grammar -/

/-- How a string may be written between its quotes. -/
inductive IsBody : List Char → Prop where
  | nil : IsBody []
  | plain {c : Char} {rest : List Char} (noQuote : c ≠ '"') (noEscape : c ≠ '\\')
      (printed : ¬ c < ' ') (others : IsBody rest) : IsBody (c :: rest)
  | letter {c : Char} {rest : List Char} (known : c ∈ ['"', '\\', '/', 'b', 'f', 'n', 'r', 't'])
      (others : IsBody rest) : IsBody ('\\' :: c :: rest)
  | unit {a b c d : Char} {rest : List Char}
      (digits : ∀ digit ∈ [a, b, c, d], ∃ value, HexBytes.IsDigit digit value)
      (others : IsBody rest) : IsBody ('\\' :: 'u' :: a :: b :: c :: d :: rest)

/-- Is a token written as JSON has it? -/
def Token.Valid : Token → Prop
  | number numeral => Number numeral
  | string body => IsBody body
  | _ => True

/-- Is a token written as a word, which the next word must not touch? -/
def Token.IsWord : Token → Prop
  | null | bool _ | number _ => True
  | _ => False

/-- No character of a word starts a text. -/
def EndsWord (text : List Char) : Prop :=
  ∀ c ∈ text.head?, ¬ IsWordChar c

/-- A text writes tokens, with any white space in front of each and behind the last. -/
inductive Writes : List Char → List Token → Prop where
  | nil : Writes [] []
  | space {c : Char} {text : List Char} {tokens : List Token} (blank : c ∈ spaces)
      (others : Writes text tokens) : Writes (c :: text) tokens
  | token {token : Token} {text : List Char} {tokens : List Token} (valid : token.Valid)
      (ends : token.IsWord → EndsWord text) (others : Writes text tokens) :
      Writes (token.text ++ text) (token :: tokens)

/-! ## Words -/

theorem wordToken?_of_valid {token : Token} (valid : token.Valid) (word : token.IsWord) :
    wordToken? token.text = some token ∧ token.text ≠ [] ∧
      ∀ c ∈ token.text, isWordChar c = true := by
  cases token with
  | null => exact ⟨by decide, by decide, List.all_eq_true.mp (by decide)⟩
  | bool value =>
    cases value <;> exact ⟨by decide, by decide, List.all_eq_true.mp (by decide)⟩
  | number numeral =>
    have isNumeral : isNumeral numeral = true := isNumeral_iff.mpr valid
    -- The names of the literals are no numerals.
    have other (name : List Char) (noNumeral : Json.isNumeral name = false) : numeral ≠ name := by
      rintro rfl
      rw [isNumeral] at noNumeral
      cases noNumeral
    refine ⟨?_, other [] (by decide), fun c isIn => isWordChar_iff.mpr (valid.isWordChar c isIn)⟩
    have noNull := other Token.null.text (by decide)
    have noTrue := other (Token.bool true).text (by decide)
    have noFalse := other (Token.bool false).text (by decide)
    show wordToken? numeral = some (.number numeral)
    rw [wordToken?, beq_false_of_ne noNull, beq_false_of_ne noTrue, beq_false_of_ne noFalse,
      isNumeral]
    rfl
  | _ => cases word

/-! ## Cutting a text -/

namespace Scanner

theorem run_word {rest : List Char} (solid : ∀ c ∈ rest, isWordChar c = true)
    (read text : List Char) :
    run (word read) (rest ++ text) = run (word (rest.reverse ++ read)) text := by
  induction rest generalizing read with
  | nil => rfl
  | cons c rest ih =>
    rw [List.forall_mem_cons] at solid
    rw [List.cons_append, run, step, if_pos solid.1]
    simp [ih solid.2]

theorem run_word_end {read text : List Char} {token : Token}
    (known : wordToken? read.reverse = some token) (ends : EndsWord text) :
    run (word read) text = (run between text).map (token :: ·) := by
  cases text with
  | nil =>
    rw [run, finish, known]
    rfl
  | cons c text =>
    have other : isWordChar c = false :=
      Bool.eq_false_iff.mpr (mt isWordChar_iff.mp (ends c rfl))
    have stops : step c (word read) =
        match start c with
        | some (next, done) => some (next, token :: done)
        | none => none := by
      simp only [step, other, known]
      cases start c <;> rfl
    rw [run, run, stops, step]
    cases start c with
    | none => rfl
    | some next => simp [Function.comp_def]

theorem run_string {body : List Char} (isBody : IsBody body) (read text : List Char) :
    run (string read) (body ++ '"' :: text) =
      (run between text).map (.string (read.reverse ++ body) :: ·) := by
  induction isBody generalizing read with
  | nil => simp [run, step]
  | plain noQuote noEscape printed others ih =>
    simp [run, step, noQuote, noEscape, printed, ih, Function.comp_def]
  | @letter c rest known others ih =>
    have isLetter : c ∈ escapeLetters := known
    have noUnit : c ≠ 'u' := by
      rintro rfl
      exact absurd known (by decide)
    simp [run, step, noUnit, isLetter, ih, Function.comp_def]
  | unit digits others ih =>
    simp only [List.forall_mem_cons, ← HexBytes.isSome_hexDigitValue?_iff] at digits
    obtain ⟨isA, isB, isC, isD, -⟩ := digits
    simp [run, step, isA, isB, isC, isD, ih, Function.comp_def]

theorem start_of_isSpace {c : Char} (blank : isSpace c = true) : start c = some (between, []) := by
  rw [start, if_pos blank]

theorem start_of_isWordChar {c : Char} (isWord : isWordChar c = true) :
    start c = some (word [c], []) := by
  have noSpace : isSpace c ≠ true := by
    intro blank
    have listed : ((c = ' ' ∨ c = '\n') ∨ c = '\t') ∨ c = '\r' := by simpa [isSpace] using blank
    obtain ((rfl | rfl) | rfl) | rfl := listed <;> exact absurd isWord (by decide)
  have noQuote : (c == '"') = false := by
    apply beq_false_of_ne
    rintro rfl
    exact absurd isWord (by decide)
  rw [start, if_neg noSpace, noQuote, isWord]
  rfl

theorem run_token {token : Token} {text : List Char} (valid : token.Valid)
    (ends : token.IsWord → EndsWord text) :
    run between (token.text ++ text) = (run between text).map (token :: ·) := by
  -- A word is only known to be complete at the character behind it.
  have runWord (isWord : token.IsWord) :
      run between (token.text ++ text) = (run between text).map (token :: ·) := by
    obtain ⟨known, nonempty, solid⟩ := wordToken?_of_valid valid isWord
    obtain ⟨c, rest, chars⟩ := List.exists_cons_of_ne_nil nonempty
    rw [chars] at known solid ⊢
    rw [List.forall_mem_cons] at solid
    rw [List.cons_append, run, step, start_of_isWordChar solid.1]
    dsimp only
    rw [run_word solid.2, run_word_end (by simpa using known) (ends isWord)]
    simp [Function.comp_def]
  cases token with
  | null | bool _ | number _ => exact runWord trivial
  | string body =>
    show run between ('"' :: (body ++ ['"'] ++ text)) = _
    have opens : step '"' between = some (string [], []) := rfl
    rw [run, opens, List.append_assoc, List.singleton_append]
    dsimp only
    rw [run_string valid]
    simp [Function.comp_def]
  | _ => rfl

end Scanner

/-- A text that writes tokens is cut into them. -/
theorem tokens?_of_writes {text : List Char} {tokens : List Token} (writes : Writes text tokens) :
    tokens? text = some tokens := by
  unfold tokens?
  induction writes with
  | nil => rfl
  | space blank others ih =>
    rw [Scanner.run, Scanner.step, Scanner.start_of_isSpace (isSpace_iff.mpr blank)]
    simp [ih]
  | token valid ends others ih =>
    rw [Scanner.run_token valid ends, ih]
    rfl

/-! ## Putting tokens together -/

namespace Value

theorem itemTokens_cons_cons (item next : Value) (items : List Value) :
    itemTokens (item :: next :: items) = item.tokens ++ .comma :: itemTokens (next :: items) := by
  rw [itemTokens]
  exact List.cons_ne_nil next items

theorem fieldTokens_cons_cons (name : List Char) (value : Value) (next : List Char × Value)
    (fields : List (List Char × Value)) :
    fieldTokens ((name, value) :: next :: fields) =
      .string name :: .colon :: (value.tokens ++ .comma :: fieldTokens (next :: fields)) := by
  rw [fieldTokens]
  exact List.cons_ne_nil next fields

/-- What holds of a value if it holds of all that the value contains holds of every value. -/
@[elab_as_elim]
theorem induction {motive : Value → Prop} (null : motive .null)
    (bool : ∀ value, motive (.bool value)) (number : ∀ numeral, motive (.number numeral))
    (string : ∀ body, motive (.string body))
    (array : ∀ items, (∀ item ∈ items, motive item) → motive (.array items))
    (object : ∀ fields, (∀ field ∈ fields, motive field.2) → motive (.object fields))
    (value : Value) : motive value := by
  cases value with
  | null => exact null
  | bool value => exact bool value
  | number numeral => exact number numeral
  | string body => exact string body
  | array items =>
    exact array items fun item _ => induction null bool number string array object item
  | object fields =>
    exact object fields fun field _ => induction null bool number string array object field.2
termination_by sizeOf value
decreasing_by
  next inside =>
    have := List.sizeOf_lt_of_mem inside
    simp only [Value.array.sizeOf_spec]
    omega
  next inside =>
    have smaller := List.sizeOf_lt_of_mem inside
    obtain ⟨name, value⟩ := field
    simp only [Value.object.sizeOf_spec, Prod.mk.sizeOf_spec] at smaller ⊢
    omega

end Value

namespace Reader

/-- The tokens of a value make the value, whatever is still open around it. -/
def Makes (value : Value) : Prop :=
  ∀ stack rest, run (needValue stack) (value.tokens ++ rest) = run (complete value stack) rest

/-- Anything but its end is the first item of an array. -/
theorem run_firstItem {tokens : List Token} (goesOn : tokens.head? ≠ some .closeBracket)
    (stack : List Frame) :
    run (firstItem stack) tokens = run (needValue (.item [] :: stack)) tokens := by
  cases tokens with
  | nil => rfl
  | cons token rest =>
    cases token with
    | closeBracket => exact absurd rfl goesOn
    | _ => rfl

theorem head?_tokens_append (value : Value) (rest : List Token) :
    (value.tokens ++ rest).head? ≠ some .closeBracket := by
  cases value <;> simp [Value.tokens]

theorem head?_itemTokens_append (item : Value) (items : List Value) (rest : List Token) :
    (Value.itemTokens (item :: items) ++ rest).head? ≠ some .closeBracket := by
  cases items with
  | nil => exact head?_tokens_append item rest
  | cons next items =>
    rw [Value.itemTokens_cons_cons, List.append_assoc]
    exact head?_tokens_append item _

theorem run_firstField (field : List Char × Value) (fields : List (List Char × Value))
    (stack : List Frame) (rest : List Token) :
    run (firstField stack) (Value.fieldTokens (field :: fields) ++ rest) =
      run (needName [] stack) (Value.fieldTokens (field :: fields) ++ rest) := by
  cases fields with
  | nil => rfl
  | cons next fields =>
    rw [Value.fieldTokens_cons_cons]
    rfl

-- Induction on the items; those before the present one are kept backwards on the stack.
theorem run_itemTokens {item : Value} {items : List Value}
    (each : ∀ other ∈ item :: items, Makes other) (before : List Value) (stack : List Frame)
    (rest : List Token) :
    run (needValue (.item before :: stack))
        (Value.itemTokens (item :: items) ++ .closeBracket :: rest) =
      run (complete (.array (before.reverse ++ item :: items)) stack) rest := by
  induction items generalizing item before with
  | nil =>
    rw [Value.itemTokens, each item (by simp), run]
    simp [step, follow]
  | cons next items ih =>
    rw [List.forall_mem_cons] at each
    rw [Value.itemTokens_cons_cons, List.append_assoc, each.1, List.cons_append, run, step, follow]
    dsimp only
    rw [ih each.2]
    simp

theorem run_fieldTokens {name : List Char} {value : Value} {fields : List (List Char × Value)}
    (each : ∀ field ∈ (name, value) :: fields, Makes field.2) (before : List (List Char × Value))
    (stack : List Frame) (rest : List Token) :
    run (needName before stack)
        (Value.fieldTokens ((name, value) :: fields) ++ .closeBrace :: rest) =
      run (complete (.object (before.reverse ++ (name, value) :: fields)) stack) rest := by
  induction fields generalizing name value before with
  | nil =>
    have makes : Makes value := each (name, value) (by simp)
    rw [Value.fieldTokens, List.cons_append, List.cons_append, run, step]
    dsimp only
    rw [run, step]
    dsimp only
    rw [makes, run]
    simp [step, follow]
  | cons next fields ih =>
    rw [List.forall_mem_cons] at each
    have makes : Makes value := each.1
    rw [Value.fieldTokens_cons_cons, List.cons_append, List.cons_append, List.append_assoc, run,
      step]
    dsimp only
    rw [run, step]
    dsimp only
    rw [makes, List.cons_append, run, step, follow]
    dsimp only
    rw [ih each.2]
    simp

theorem makes (value : Value) : Makes value := by
  induction value using Value.induction with
  | null => exact fun _ _ => rfl
  | bool _ => exact fun _ _ => rfl
  | number _ => exact fun _ _ => rfl
  | string _ => exact fun _ _ => rfl
  | array items each =>
    intro stack rest
    cases items with
    | nil => rfl
    | cons item items =>
      have inside := run_itemTokens each [] stack rest
      rw [← run_firstItem (head?_itemTokens_append item items _)] at inside
      rw [Value.tokens, List.cons_append, List.append_assoc]
      exact inside
  | object fields each =>
    intro stack rest
    cases fields with
    | nil => rfl
    | cons field fields =>
      have inside := run_fieldTokens each [] stack rest
      rw [← run_firstField] at inside
      rw [Value.tokens, List.cons_append, List.append_assoc]
      exact inside

end Reader

theorem ofTokens?_tokens (value : Value) : ofTokens? value.tokens = some value := by
  have whole := Reader.makes value [] []
  rwa [List.append_nil] at whole

/-- A text that writes a value reads as the value. -/
theorem read?_of_writes {text : String} {value : Value}
    (writes : Writes text.toList value.tokens) : read? text = some value := by
  rw [read?, tokens?_of_writes writes, Option.bind_some, ofTokens?_tokens]

end X86Length.Json
