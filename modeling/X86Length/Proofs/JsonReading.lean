import Mathlib.Data.List.Basic
import X86Length.Proofs.JsonText

/-! # What is read as JSON

A text is read as a value if and only if it writes the value (`read?_eq_some_iff`).  While a text is
cut into tokens, each state of the scanner tells how the rest of the text goes on (`Scanner.Reads`).
While tokens are read, what has been read is the tokens of all that is open or complete
(`Reader.taken`), and a token that is taken is added to them.

A reader never takes two words in a row.  So the tokens of a value may be written without white
space between them (`read?_compact`). -/

namespace X86Length.Json

/-! ## Cutting a text -/

theorem wordToken?_eq_some {word : List Char} {token : Token}
    (known : wordToken? word = some token) :
    token.text = word ∧ token.Valid ∧ token.IsWord := by
  unfold wordToken? at known
  split at known
  next isNull =>
    cases known
    exact ⟨(eq_of_beq isNull).symm, trivial, trivial⟩
  next =>
    split at known
    next isTrue =>
      cases known
      exact ⟨(eq_of_beq isTrue).symm, trivial, trivial⟩
    next =>
      split at known
      next isFalse =>
        cases known
        exact ⟨(eq_of_beq isFalse).symm, trivial, trivial⟩
      next =>
        split at known
        next numeral =>
          cases known
          exact ⟨rfl, isNumeral_iff.mp numeral, trivial⟩
        next => cases known

theorem punctuation?_eq_some {c : Char} {token : Token} (mark : punctuation? c = some token) :
    token.text = [c] ∧ token.Valid ∧ ¬ token.IsWord := by
  unfold punctuation? at mark
  repeat' split at mark
  all_goals cases mark
  all_goals
    next same => exact ⟨by rw [eq_of_beq same]; rfl, trivial, id⟩

namespace Scanner

/-- How a text goes on, and the tokens that it makes, where a scanner stands. -/
inductive Reads : Scanner → List Char → List Token → Prop where
  | between {text : List Char} {tokens : List Token} (writes : Writes text tokens) :
      Reads between text tokens
  | word {read front behind : List Char} {token : Token} {tokens : List Token}
      (known : wordToken? (read.reverse ++ front) = some token) (ends : EndsWord behind)
      (others : Writes behind tokens) : Reads (word read) (front ++ behind) (token :: tokens)
  | string {read body behind : List Char} {tokens : List Token} (isBody : IsBody body)
      (others : Writes behind tokens) :
      Reads (string read) (body ++ '"' :: behind) (.string (read.reverse ++ body) :: tokens)
  | escape {read body behind : List Char} {tokens : List Token} (isBody : IsBody ('\\' :: body))
      (others : Writes behind tokens) :
      Reads (escape read) (body ++ '"' :: behind) (.string (read.reverse ++ body) :: tokens)
  -- Whatever the digits are that have been read, the others complete them.
  | numbered {left : Nat} {read body behind : List Char} {tokens : List Token}
      (isBody : ∀ digits : List Char, digits.length + left = 3 →
        (∀ digit ∈ digits, ∃ value, HexBytes.IsDigit digit value) →
          IsBody ('\\' :: 'u' :: (digits ++ body)))
      (others : Writes behind tokens) :
      Reads (numbered left read) (body ++ '"' :: behind) (.string (read.reverse ++ body) :: tokens)

theorem run_cons_eq_some {scanner : Scanner} {c : Char} {text : List Char} {tokens : List Token}
    (cut : run scanner (c :: text) = some tokens) :
    ∃ next done others, scanner.step c = some (next, done) ∧ run next text = some others ∧
      done ++ others = tokens := by
  rw [run] at cut
  cases taken : scanner.step c with
  | none =>
    rw [taken] at cut
    cases cut
  | some leads =>
    rw [taken] at cut
    obtain ⟨others, cutBehind, rfl⟩ := Option.map_eq_some_iff.mp cut
    exact ⟨leads.1, leads.2, others, rfl, cutBehind, rfl⟩

section Step

variable {c : Char} {text : List Char} {tokens : List Token}

/-- A character between tokens starts one, or is white space. -/
theorem writes_of_run_between
    (behind : ∀ {next others}, run next text = some others → Reads next text others)
    (cut : run between (c :: text) = some tokens) : Writes (c :: text) tokens := by
  obtain ⟨next, done, others, starts, cutBehind, rfl⟩ := run_cons_eq_some cut
  have reads := behind cutBehind
  rw [step, start] at starts
  split at starts
  next blank =>
    cases starts
    cases reads with
    | between writes => exact .space (isSpace_iff.mp blank) writes
  next =>
    split at starts
    next quote =>
      cases starts
      cases reads with
      | @string _ body rest tokens isBody writes =>
        have written : Writes ('"' :: (body ++ ['"'] ++ rest)) (.string body :: tokens) :=
          writes.mark (.string body) isBody id
        rw [eq_of_beq quote]
        simpa using written
    next =>
      split at starts
      next =>
        cases starts
        cases reads with
        | word known ends writes =>
          obtain ⟨sameText, valid, isWord⟩ := wordToken?_eq_some known
          have written := Writes.token valid (fun _ => ends) writes
          rw [sameText] at written
          exact written
      next =>
        obtain ⟨token, mark, leads⟩ := Option.map_eq_some_iff.mp starts
        cases leads
        cases reads with
        | between writes =>
          obtain ⟨sameText, valid, noWord⟩ := punctuation?_eq_some mark
          have written := writes.mark token valid noWord
          rw [sameText] at written
          exact written

theorem reads_word {read : List Char}
    (behind : ∀ {next others}, run next text = some others → Reads next text others)
    (cut : run (word read) (c :: text) = some tokens) : Reads (word read) (c :: text) tokens := by
  by_cases isWord : isWordChar c = true
  · obtain ⟨next, done, others, taken, cutBehind, rfl⟩ := run_cons_eq_some cut
    rw [step, if_pos isWord] at taken
    cases taken
    cases behind cutBehind with
    | @word _ front _ _ _ known ends writes =>
      exact @Reads.word read (c :: front) _ _ _ (by simpa using known) ends writes
  · have ends : EndsWord (c :: text) := endsWord_cons (mt isWordChar_iff.mpr isWord) text
    cases known : wordToken? read.reverse with
    | none =>
      obtain ⟨next, done, others, taken, -⟩ := run_cons_eq_some cut
      rw [step, if_neg isWord, known] at taken
      cases taken
    | some token =>
      rw [run_word_end known ends, Option.map_eq_some_iff] at cut
      obtain ⟨others, cutHere, rfl⟩ := cut
      have writes := writes_of_run_between behind cutHere
      exact @Reads.word read [] _ _ _ (by simpa using known) ends writes

theorem reads_string {read : List Char}
    (behind : ∀ {next others}, run next text = some others → Reads next text others)
    (cut : run (string read) (c :: text) = some tokens) :
    Reads (string read) (c :: text) tokens := by
  obtain ⟨next, done, others, taken, cutBehind, rfl⟩ := run_cons_eq_some cut
  have reads := behind cutBehind
  rw [step] at taken
  split at taken
  next quote =>
    cases taken
    cases reads with
    | between writes =>
      rw [eq_of_beq quote]
      simpa using @Reads.string read [] _ _ .nil writes
  next noQuote =>
    split at taken
    next backslash =>
      cases taken
      cases reads with
      | @escape _ body _ _ isBody writes =>
        rw [eq_of_beq backslash]
        simpa using @Reads.string read ('\\' :: body) _ _ isBody writes
    next noEscape =>
      split at taken
      next => cases taken
      next printed =>
        cases taken
        cases reads with
        | @string _ body _ _ isBody writes =>
          have goesOn : IsBody (c :: body) :=
            .plain (by simpa using noQuote) (by simpa using noEscape) printed isBody
          simpa using @Reads.string read (c :: body) _ _ goesOn writes

theorem reads_escape {read : List Char}
    (behind : ∀ {next others}, run next text = some others → Reads next text others)
    (cut : run (escape read) (c :: text) = some tokens) :
    Reads (escape read) (c :: text) tokens := by
  obtain ⟨next, done, others, taken, cutBehind, rfl⟩ := run_cons_eq_some cut
  have reads := behind cutBehind
  rw [step] at taken
  split at taken
  next isUnit =>
    cases taken
    cases reads with
    | @numbered _ _ body _ _ isBody writes =>
      rw [eq_of_beq isUnit]
      simpa using @Reads.escape read ('u' :: body) _ _ (isBody [] rfl (by simp)) writes
  next =>
    split at taken
    next letter =>
      cases taken
      cases reads with
      | @string _ body _ _ isBody writes =>
        have goesOn : IsBody ('\\' :: c :: body) := .letter (List.contains_iff_mem.mp letter) isBody
        simpa using @Reads.escape read (c :: body) _ _ goesOn writes
    next => cases taken

theorem reads_numbered {left : Nat} {read : List Char}
    (behind : ∀ {next others}, run next text = some others → Reads next text others)
    (cut : run (numbered left read) (c :: text) = some tokens) :
    Reads (numbered left read) (c :: text) tokens := by
  obtain ⟨next, done, others, taken, cutBehind, rfl⟩ := run_cons_eq_some cut
  have reads := behind cutBehind
  cases left with
  | zero =>
    rw [step] at taken
    split at taken
    next isDigit =>
      cases taken
      cases reads with
      | @string _ body _ _ isBody writes =>
        have goesOn (digits : List Char) (three : digits.length + 0 = 3)
            (all : ∀ digit ∈ digits, ∃ value, HexBytes.IsDigit digit value) :
            IsBody ('\\' :: 'u' :: (digits ++ c :: body)) := by
          obtain ⟨x, y, z, rfl⟩ := List.length_eq_three.mp three
          refine .unit ?_ isBody
          simpa [HexBytes.isSome_hexDigitValue?_iff.mp isDigit] using all
        simpa using @Reads.numbered 0 read (c :: body) _ _ goesOn writes
    next => cases taken
  | succ left =>
    rw [step] at taken
    split at taken
    next isDigit =>
      cases taken
      cases reads with
      | @numbered _ _ body _ _ isBody writes =>
        have goesOn (digits : List Char) (count : digits.length + (left + 1) = 3)
            (all : ∀ digit ∈ digits, ∃ value, HexBytes.IsDigit digit value) :
            IsBody ('\\' :: 'u' :: (digits ++ c :: body)) := by
          have longer : (digits ++ [c]).length + left = 3 := by
            rw [List.length_append, List.length_singleton]
            omega
          have allLonger : ∀ digit ∈ digits ++ [c], ∃ value, HexBytes.IsDigit digit value := by
            rw [List.forall_mem_append, List.forall_mem_singleton]
            exact ⟨all, HexBytes.isSome_hexDigitValue?_iff.mp isDigit⟩
          simpa using isBody (digits ++ [c]) longer allLonger
        simpa using @Reads.numbered (left + 1) read (c :: body) _ _ goesOn writes
    next => cases taken

end Step

theorem reads_of_run {scanner : Scanner} {text : List Char} {tokens : List Token}
    (cut : run scanner text = some tokens) : Reads scanner text tokens := by
  induction text generalizing scanner tokens with
  | nil =>
    cases scanner with
    | between =>
      cases cut
      exact .between .nil
    | word read =>
      rw [run, finish, Option.map_eq_some_iff] at cut
      obtain ⟨token, known, rfl⟩ := cut
      exact @Reads.word read [] [] _ _ (by simpa using known) (by simp [EndsWord]) .nil
    | _ => cases cut
  | cons c text ih =>
    cases scanner with
    | between => exact .between (writes_of_run_between ih cut)
    | word _ => exact reads_word ih cut
    | string _ => exact reads_string ih cut
    | escape _ => exact reads_escape ih cut
    | numbered _ _ => exact reads_numbered ih cut

end Scanner

/-- A text is cut into the tokens that it writes. -/
theorem tokens?_eq_some_iff {text : List Char} {tokens : List Token} :
    tokens? text = some tokens ↔ Writes text tokens := by
  constructor
  · intro cut
    cases Scanner.reads_of_run cut with
    | between writes => exact writes
  · exact tokens?_of_writes

theorem valid_of_writes {text : List Char} {tokens : List Token} (writes : Writes text tokens) :
    ∀ token ∈ tokens, token.Valid := by
  induction writes with
  | nil => simp
  | space _ _ ih => exact ih
  | token valid _ _ ih => exact List.forall_mem_cons.mpr ⟨valid, ih⟩

/-! ## Reading tokens -/

/-- The tokens of items with a comma behind each. -/
def itemsTaken (items : List Value) : List Token :=
  items.flatMap fun item => item.tokens ++ [.comma]

/-- The tokens of fields with a comma behind each. -/
def fieldsTaken (fields : List (List Char × Value)) : List Token :=
  fields.flatMap fun field => .string field.1 :: .colon :: (field.2.tokens ++ [.comma])

theorem itemTokens_concat (items : List Value) (item : Value) :
    Value.itemTokens (items ++ [item]) = itemsTaken items ++ item.tokens := by
  induction items with
  | nil => rfl
  | cons first items ih =>
    have goesOn : Value.itemTokens (first :: (items ++ [item])) =
        first.tokens ++ .comma :: Value.itemTokens (items ++ [item]) := by
      cases items with
      | nil => rfl
      | cons next items => exact Value.itemTokens_cons_cons first next _
    rw [List.cons_append, goesOn, ih]
    simp [itemsTaken]

theorem fieldTokens_concat (fields : List (List Char × Value)) (name : List Char)
    (value : Value) :
    Value.fieldTokens (fields ++ [(name, value)]) =
      fieldsTaken fields ++ .string name :: .colon :: value.tokens := by
  induction fields with
  | nil => rfl
  | cons first fields ih =>
    have goesOn : Value.fieldTokens (first :: (fields ++ [(name, value)])) =
        .string first.1 :: .colon ::
          (first.2.tokens ++ .comma :: Value.fieldTokens (fields ++ [(name, value)])) := by
      cases fields with
      | nil => rfl
      | cons next fields => exact Value.fieldTokens_cons_cons first.1 first.2 next _
    rw [List.cons_append, goesOn, ih]
    simp [fieldsTaken]

/-- The tokens of an array or object that is still open, in front of the value being read. -/
def Frame.taken : Frame → List Token
  | item before => .openBracket :: itemsTaken before.reverse
  | field before name => .openBrace :: (fieldsTaken before.reverse ++ [.string name, .colon])

/-- The tokens of all that is still open, the outermost in front. -/
def stackTaken : List Frame → List Token
  | [] => []
  | frame :: outer => stackTaken outer ++ frame.taken

namespace Reader

/-- The tokens that have been read. -/
def taken : Reader → List Token
  | needValue stack => stackTaken stack
  | firstItem stack => stackTaken stack ++ [.openBracket]
  | firstField stack => stackTaken stack ++ [.openBrace]
  | needName before stack => stackTaken stack ++ .openBrace :: fieldsTaken before.reverse
  | needColon before name stack =>
    stackTaken stack ++ .openBrace :: (fieldsTaken before.reverse ++ [.string name])
  | complete value stack => stackTaken stack ++ value.tokens

theorem taken_enter {stack : List Frame} {token : Token} {next : Reader}
    (entered : enter stack token = some next) : next.taken = stackTaken stack ++ [token] := by
  cases token <;> cases entered <;> rfl

theorem taken_follow {value : Value} {stack : List Frame} {token : Token} {next : Reader}
    (followed : follow value stack token = some next) :
    next.taken = stackTaken stack ++ value.tokens ++ [token] := by
  cases stack with
  | nil => cases followed
  | cons frame stack =>
    cases frame with
    | item before =>
      cases token with
      | comma =>
        cases followed
        simp [taken, stackTaken, Frame.taken, itemsTaken]
      | closeBracket =>
        cases followed
        simp [taken, stackTaken, Frame.taken, Value.tokens, itemTokens_concat]
      | _ => cases followed
    | field before name =>
      cases token with
      | comma =>
        cases followed
        simp [taken, stackTaken, Frame.taken, fieldsTaken]
      | closeBrace =>
        cases followed
        simp [taken, stackTaken, Frame.taken, Value.tokens, fieldTokens_concat]
      | _ => cases followed

theorem step_firstItem {token : Token} (goesOn : token ≠ .closeBracket) (stack : List Frame) :
    step (firstItem stack) token = enter (.item [] :: stack) token := by
  cases token with
  | closeBracket => exact absurd rfl goesOn
  | _ => rfl

/-- A token that is read comes behind those that have been read. -/
theorem taken_step {reader next : Reader} {token : Token}
    (stepped : reader.step token = some next) : next.taken = reader.taken ++ [token] := by
  cases reader with
  | needValue stack => exact taken_enter stepped
  | firstItem stack =>
    by_cases closes : token = .closeBracket
    · rw [closes] at stepped ⊢
      cases stepped
      simp [taken, Value.tokens, Value.itemTokens]
    · rw [step_firstItem closes] at stepped
      rw [taken_enter stepped]
      rfl
  | firstField stack =>
    cases token with
    | closeBrace =>
      cases stepped
      simp [taken, Value.tokens, Value.fieldTokens]
    | string name =>
      cases stepped
      simp [taken, fieldsTaken]
    | _ => cases stepped
  | needName before stack =>
    cases token with
    | string name =>
      cases stepped
      simp [taken]
    | _ => cases stepped
  | needColon before name stack =>
    cases token with
    | colon =>
      cases stepped
      simp [taken, stackTaken, Frame.taken]
    | _ => cases stepped
  | complete value stack => exact taken_follow stepped

theorem run_cons_eq_some {reader : Reader} {token : Token} {rest : List Token} {value : Value}
    (reads : run reader (token :: rest) = some value) :
    ∃ next, reader.step token = some next ∧ run next rest = some value := by
  rw [run] at reads
  cases stepped : reader.step token with
  | none =>
    rw [stepped] at reads
    cases reads
  | some next =>
    rw [stepped] at reads
    exact ⟨next, rfl, reads⟩

/-- The tokens that have been read and those that complete a value are the tokens of the value. -/
theorem taken_append_of_run {reader : Reader} {tokens : List Token} {value : Value}
    (reads : run reader tokens = some value) : reader.taken ++ tokens = value.tokens := by
  induction tokens generalizing reader with
  | nil =>
    unfold run finish at reads
    split at reads
    next =>
      cases reads
      simp [taken, stackTaken]
    next => cases reads
  | cons token rest ih =>
    obtain ⟨next, stepped, readsBehind⟩ := run_cons_eq_some reads
    rw [← ih readsBehind, taken_step stepped, List.append_assoc, List.singleton_append]

end Reader

theorem ofTokens?_eq_some_iff {tokens : List Token} {value : Value} :
    ofTokens? tokens = some value ↔ tokens = value.tokens := by
  constructor
  · exact Reader.taken_append_of_run
  · rintro rfl
    exact ofTokens?_tokens value

/-- A text is read as a value if and only if it writes the value. -/
theorem read?_eq_some_iff {text : String} {value : Value} :
    read? text = some value ↔ Writes text.toList value.tokens := by
  rw [read?, Option.bind_eq_some_iff]
  constructor
  · rintro ⟨tokens, cut, made⟩
    rw [← ofTokens?_eq_some_iff.mp made]
    exact tokens?_eq_some_iff.mp cut
  · intro writes
    exact ⟨value.tokens, tokens?_eq_some_iff.mpr writes, ofTokens?_tokens value⟩

theorem valid_of_read? {text : String} {value : Value} (reads : read? text = some value) :
    value.Valid :=
  valid_of_writes (read?_eq_some_iff.mp reads)

/-! ## Writing without white space -/

namespace Reader

theorem complete_of_enter {stack : List Frame} {token : Token} {next : Reader}
    (isWord : token.IsWord) (entered : enter stack token = some next) :
    ∃ value stack, next = complete value stack := by
  cases token with
  | null | bool _ | number _ =>
    cases entered
    exact ⟨_, _, rfl⟩
  | _ => cases isWord

/-- What follows a value is a single character. -/
theorem endsWord_of_follow {value : Value} {stack : List Frame} {token : Token} {next : Reader}
    (followed : follow value stack token = some next) (text : List Char) :
    ¬ token.IsWord ∧ EndsWord (token.text ++ text) := by
  cases stack with
  | nil => cases followed
  | cons frame stack =>
    cases frame with
    | item before =>
      cases token with
      | comma | closeBracket => exact ⟨id, endsWord_cons (by decide) text⟩
      | _ => cases followed
    | field before name =>
      cases token with
      | comma | closeBrace => exact ⟨id, endsWord_cons (by decide) text⟩
      | _ => cases followed

/-- A word completes a value, wherever it is read. -/
theorem complete_of_step {reader next : Reader} {token : Token} (isWord : token.IsWord)
    (stepped : reader.step token = some next) : ∃ value stack, next = complete value stack := by
  cases reader with
  | needValue stack => exact complete_of_enter isWord stepped
  | firstItem stack =>
    by_cases closes : token = .closeBracket
    · rw [closes] at isWord
      cases isWord
    · rw [step_firstItem closes] at stepped
      exact complete_of_enter isWord stepped
  | firstField _ | needName _ _ | needColon _ _ _ =>
    cases token with
    | null | bool _ | number _ => cases stepped
    | _ => cases isWord
  | complete value stack => exact absurd isWord (endsWord_of_follow stepped []).1

/-- Tokens of a value are written by their texts alone. -/
theorem writes_of_run {reader : Reader} {tokens : List Token} {value : Value}
    (reads : run reader tokens = some value) (valid : ∀ token ∈ tokens, token.Valid) :
    Writes (tokens.flatMap Token.text) tokens := by
  induction tokens generalizing reader with
  | nil => exact .nil
  | cons token rest ih =>
    obtain ⟨next, stepped, readsBehind⟩ := run_cons_eq_some reads
    rw [List.forall_mem_cons] at valid
    refine .token valid.1 ?_ (ih readsBehind valid.2)
    intro isWord
    obtain ⟨value, stack, rfl⟩ := complete_of_step isWord stepped
    cases rest with
    | nil => simp [EndsWord]
    | cons mark rest =>
      obtain ⟨next, followed, -⟩ := run_cons_eq_some readsBehind
      exact (endsWord_of_follow followed _).2

end Reader

/-- A value that is written on one line reads back. -/
theorem read?_compact {value : Value} (valid : value.Valid) :
    read? (compact value) = some value := by
  rw [read?_eq_some_iff, compact, String.toList_ofList]
  exact Reader.writes_of_run (ofTokens?_tokens value) valid

end X86Length.Json
