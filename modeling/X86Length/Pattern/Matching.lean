import X86Length.Pattern.Form

/-! # Where forms are found

A text of `n` characters has `n + 1` places.  A set of places is a list with an entry for each of
them.  `Form.ends` leads from the places at which a text of a form may start to those at which one
may end, so a form is found in a text if some place can be reached from any place. -/

namespace X86Length.Pattern

/-! ## Places -/

/-- Which places of a text are meant, from its start to its end. -/
abbrev Places := List Bool

namespace Places

/-- All places of a text. -/
def all (text : List Char) : Places :=
  true :: text.map fun _ => true

/-- The places that are in one of two sets. -/
def or (left right : Places) : Places :=
  List.zipWith (· || ·) left right

/-- The places that are in a set and not in another. -/
def without (left right : Places) : Places :=
  List.zipWith (fun isLeft isRight => isLeft && !isRight) left right

/-- Is there a place at all? -/
def isInhabited (places : Places) : Bool :=
  places.any fun isPlace => isPlace

/-- The places behind those at which a character of a set stands. -/
def behind (places : Places) (set : CharSet) (text : List Char) : Places :=
  false :: List.zipWith (fun isPlace c => isPlace && set.contains c) places text

end Places

/-! ## Conditions -/

/-- The characters before and behind each place of a text, of which one is known to be before. -/
def neighboursFrom (before : Option Char) : List Char → List (Option Char × Option Char)
  | [] => [(before, none)]
  | c :: rest => (before, some c) :: neighboursFrom (some c) rest

/-- Does a condition on word characters hold, where it is known whether there is one before and
    whether there is one behind? -/
def Anchor.holdsBetween (anchor : Anchor) (before behind : Bool) : Bool :=
  match anchor with
  | wordBoundary => before != behind
  | noWordBoundary => before == behind
  | wordStart => !before && behind
  | wordEnd => before && !behind
  | wordStartHalf => !before
  | wordEndHalf => !behind
  | _ => false

/-- Does a condition hold between two characters? -/
def Condition.holds (condition : Condition) (before behind : Option Char) : Bool :=
  match condition with
  | textStart => before.isNone
  | textEnd => behind.isNone
  | lineStart false => before.all (· == '\n')
  | lineEnd false => behind.all (· == '\n')
  | lineStart true => before.all fun c => c == '\n' || (c == '\r' && behind != some '\n')
  | lineEnd true => behind.all fun c => c == '\r' || (c == '\n' && before != some '\r')
  | words anchor => anchor.holdsBetween (before.any isWordChar) (behind.any isWordChar)
  | wideWords => false

/-- The places at which a condition holds. -/
def Places.wherever (places : Places) (condition : Condition) (text : List Char) : Places :=
  List.zipWith (fun isPlace (before, behind) => isPlace && condition.holds before behind) places
    (neighboursFrom none text)

/-! ## Repetition -/

/-- The places after so many steps. -/
def afterSteps (step : Places → Places) : Nat → Places → Places
  | 0, places => places
  | count + 1, places => afterSteps step count (step places)

/-- The places after at most so many steps from the newest ones, with those reached before. -/
def withinSteps (step : Places → Places) : Nat → Places → Places → Places
  | 0, reached, _ => reached
  | count + 1, reached, newest =>
    let next := (step newest).without reached
    if next.isInhabited then withinSteps step count (reached.or next) next else reached

/-! ## Forms -/

/-- The places at which texts of a form may end that start at some places.  As steps never lead
    back, no more of them need to be counted than there are places. -/
def Form.ends (text : List Char) : Form → Places → Places
  | empty, places => places
  | char set, places => places.behind set text
  | place condition, places => places.wherever condition text
  | append first second, places => second.ends text (first.ends text places)
  | either first second, places => (first.ends text places).or (second.ends text places)
  | repeated least most body, places =>
    let enough := text.length + 1
    let start := afterSteps (body.ends text) (min least enough) places
    let further := match most with
      | none => enough
      | some most => min (most - least) enough
    withinSteps (body.ends text) further start start

/-- Is a text of a form found inside a text? -/
def Form.isIn (form : Form) (text : List Char) : Bool :=
  (form.ends text (.all text)).isInhabited

end X86Length.Pattern
