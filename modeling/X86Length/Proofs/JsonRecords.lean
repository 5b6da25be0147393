import Mathlib.Data.List.Forall2
import X86Length.Proofs.JsonReading
import X86Length.Proofs.NumberGrammar

/-! # Numbers and records in JSON

The numbers that are read are those that fit in 64 bits, each as it is written
(`toNat?_eq_some_iff`): for a numeral without needless zeros is the only one of its number.

A record is an array of its items, or an object that has each of its names once (`IsRecord`).  In
an object the fields stand in any order and among fields of other names, and names may be spelled
with escapes; a body that spells no text is no name.  Records are read as their items, and nothing
else is read (`recordFields?_eq_some_iff`).  So nothing can be amiss with what is read
(`IsRecord.not_amiss`). -/

namespace X86Length.Json

open Text

/-! ## Numbers -/

/-- Without needless zeros there is one numeral for each number. -/
theorem eq_toDigits_of_isWhole {digits : List Char} {n : Nat} (numeral : Numeral 10 digits n)
    (whole : isWhole digits = true) : digits = Nat.toDigits 10 n := by
  cases numeral with
  | nil => cases whole
  | @cons c digits digit n isDigit below others =>
    have first := eq_digitChar_of_isDigit isDigit below
    by_cases zero : digit = 0
    · rw [first, zero] at whole ⊢
      cases others with
      | nil => rfl
      | cons => simp [isWhole] at whole
    · have longer := toDigits_append_numeral others (Nat.pos_of_ne_zero zero)
      rwa [Nat.toDigits_of_lt_base below, ← first] at longer

namespace Value

theorem toNat?_number {numeral : List Char} {n : Nat} :
    (number numeral).toNat? = some n ↔ readDigits 10 0 numeral = .ok n := by
  rw [toNat?]
  cases readDigits 10 0 numeral with
  | ok m => simp [Except.toOption]
  | error => simp [Except.toOption]

theorem toNat?_eq_some_iff {value : Value} (valid : value.Valid) {n : Nat} :
    value.toNat? = some n ↔ n < wordLimit ∧ value = ofNat n := by
  constructor
  · intro read
    cases value with
    | number numeral =>
      have isNumeral : isNumeral numeral = true :=
        isNumeral_iff.mpr (valid (.number numeral) List.mem_cons_self)
      obtain ⟨fits, standsFor⟩ := readDigits_ok_iff.mp (toNat?_number.mp read)
      rw [isNumeral_eq_isWhole standsFor.isDigit] at isNumeral
      exact ⟨fits, congrArg number (eq_toDigits_of_isWhole standsFor isNumeral)⟩
    | _ => cases read
  · rintro ⟨fits, rfl⟩
    exact toNat?_number.mpr (readDigits_toDigits (by decide) (by decide) fits)

theorem toNat?_ofNat {n : Nat} (fits : n < wordLimit) : (ofNat n).toNat? = some n :=
  (toNat?_eq_some_iff (valid_ofNat n)).mpr ⟨fits, rfl⟩

end Value

/-- A value is none of the numbers that fit in 64 bits. -/
def NoNumber (value : Value) : Prop :=
  ∀ n < wordLimit, value ≠ Value.ofNat n

theorem not_noNumber_ofNat {n : Nat} (fits : n < wordLimit) : ¬ NoNumber (Value.ofNat n) :=
  fun noNumber => noNumber n fits rfl

theorem noNumber_ofNat {n : Nat} (large : wordLimit ≤ n) : NoNumber (Value.ofNat n) := by
  intro m fits same
  have digits := toDigits_inj (by decide) (by decide) (Value.number.inj same)
  omega

theorem noNumber_negative (digits : List Char) : NoNumber (.number ('-' :: digits)) := by
  intro n _ same
  have isDigit : ('-').isDigit = true := by
    have isMember : '-' ∈ Nat.toDigits 10 n := by
      rw [← Value.number.inj same]
      exact List.mem_cons_self
    exact Nat.isDigit_of_mem_toDigits (by decide) (by decide) isMember
  exact absurd isDigit (by decide)

/-! ## Names -/

/-- The body of a string spells a name. -/
def Spells (body : List Char) (name : String) : Prop :=
  unescaped? body = some name.toList

instance (body : List Char) (name : String) : Decidable (Spells body name) :=
  inferInstanceAs (Decidable (_ = _))

theorem spells_escaped (name : String) : Spells (escaped name.toList) name :=
  unescaped?_escaped name.toList

theorem Spells.unique {body : List Char} {name other : String} (spelled : Spells body name)
    (also : Spells body other) : name = other :=
  String.toList_inj.mp (Option.some.inj (spelled.symm.trans also))

/-- The values that an object has under a name. -/
def valuesOf (name : String) (fields : List (List Char × Value)) : List Value :=
  (fields.filter fun field => Spells field.1 name).map Prod.snd

section Fields

variable {name : String} {fields : List (List Char × Value)}

theorem valuesOf_cons (field : List Char × Value) (fields : List (List Char × Value)) :
    valuesOf name (field :: fields) =
      if Spells field.1 name then field.2 :: valuesOf name fields else valuesOf name fields := by
  rw [valuesOf, List.filter_cons]
  by_cases spelled : Spells field.1 name <;> simp [spelled, valuesOf]

theorem valuesOf_eq_nil_iff :
    valuesOf name fields = [] ↔ ∀ field ∈ fields, ¬ Spells field.1 name := by
  simp [valuesOf, List.filter_eq_nil_iff]

theorem valuesOf_perm {others : List (List Char × Value)} (order : fields.Perm others)
    (name : String) : (valuesOf name fields).Perm (valuesOf name others) :=
  (order.filter _).map _

namespace Value

theorem namedFields?_cons_eq_some_iff {body : List Char} {value : Value}
    {named : List (List Char × Value)} :
    namedFields? ((body, value) :: fields) = some named ↔
      ∃ text others, unescaped? body = some text ∧ namedFields? fields = some others ∧
        named = (text, value) :: others := by
  rw [namedFields?]
  cases unescaped? body with
  | none => simp
  | some text =>
    cases namedFields? fields with
    | none => simp
    | some others => simp [eq_comm]

theorem exists_namedFields?_iff :
    (∃ named, namedFields? fields = some named) ↔
      ∀ field ∈ fields, ∃ name, Spells field.1 name := by
  induction fields with
  | nil => simp [namedFields?]
  | cons field fields ih =>
    obtain ⟨body, value⟩ := field
    rw [List.forall_mem_cons, ← ih]
    constructor
    · rintro ⟨named, known⟩
      obtain ⟨text, others, spelled, known, -⟩ := namedFields?_cons_eq_some_iff.mp known
      exact ⟨⟨String.ofList text, by rw [Spells, spelled, String.toList_ofList]⟩, others, known⟩
    · rintro ⟨⟨name, spelled⟩, others, known⟩
      exact ⟨_, namedFields?_cons_eq_some_iff.mpr ⟨_, others, spelled, known, rfl⟩⟩

theorem map_filter_named {named : List (List Char × Value)}
    (known : namedFields? fields = some named) :
    (named.filter (·.1 == name.toList)).map Prod.snd = valuesOf name fields := by
  induction fields generalizing named with
  | nil =>
    cases known
    rfl
  | cons field fields ih =>
    obtain ⟨body, value⟩ := field
    obtain ⟨text, others, spelled, knownOthers, rfl⟩ := namedFields?_cons_eq_some_iff.mp known
    have spells : Spells body name ↔ text = name.toList := by
      rw [Spells, spelled, Option.some.injEq]
    rw [valuesOf_cons, ← ih knownOthers, List.filter_cons]
    by_cases same : text = name.toList <;> simp [spells, same]

theorem onlyField?_eq_some_iff {named : List (List Char × Value)} {value : Value}
    (known : namedFields? fields = some named) :
    onlyField? named name = some value ↔ valuesOf name fields = [value] := by
  rw [← map_filter_named known, onlyField?]
  split
  next single => simp [single]
  next several =>
    simp only [reduceCtorEq, false_iff]
    intro single
    obtain ⟨field, alone, rfl⟩ := List.map_eq_singleton_iff.mp single
    exact several _ _ alone

end Value

end Fields

/-! ## Records -/

theorem mapM_eq_some_iff {α β : Type} {f : α → Option β} {list : List α} {results : List β} :
    list.mapM f = some results ↔ List.Forall₂ (fun a b => f a = some b) list results := by
  induction list generalizing results with
  | nil => cases results <;> simp
  | cons a list ih =>
    cases results with
    | nil => simp [List.mapM_cons, Option.bind_eq_some_iff]
    | cons b results => simp [List.mapM_cons, Option.bind_eq_some_iff, ← ih]

/-- How a record with given names and items may be written.  In an object the fields that have these
    names may stand in any order and among fields of other names. -/
inductive IsRecord (names : List String) (items : List Value) : Value → Prop where
  | array (each : items.length = names.length) : IsRecord names items (.array items)
  | object {bodies : List (List Char)} {fields unknown : List (List Char × Value)}
      (each : items.length = names.length) (spelled : List.Forall₂ Spells bodies names)
      (order : fields.Perm (bodies.zip items ++ unknown))
      (others : ∀ field ∈ unknown, ∃ name, name ∉ names ∧ Spells field.1 name) :
      IsRecord names items (.object fields)

theorem isRecord_record {names : List String} {items : List Value}
    (each : items.length = names.length) :
    IsRecord names items (Value.record (names.zip items)) := by
  have spelled : List.Forall₂ Spells (names.map fun name => escaped name.toList) names := by
    rw [List.forall₂_map_left_iff]
    exact List.forall₂_same.mpr fun name _ => spells_escaped name
  refine @IsRecord.object _ _ _ _ [] each spelled ?_ (by simp)
  rw [List.append_nil, List.zip_map_left]
  exact .refl _

section Once

variable {names : List String} {items : List Value}

theorem exists_body_of_mem_zip {bodies : List (List Char)}
    (spelled : List.Forall₂ Spells bodies names) :
    ∀ field ∈ bodies.zip items, ∃ name ∈ names, Spells field.1 name := by
  induction spelled generalizing items with
  | nil => simp
  | cons first rest ih =>
    cases items with
    | nil => simp
    | cons item items =>
      rw [List.zip_cons_cons, List.forall_mem_cons]
      refine ⟨⟨_, List.mem_cons_self, first⟩, ?_⟩
      intro field isField
      obtain ⟨name, isName, spells⟩ := ih field isField
      exact ⟨name, List.mem_cons_of_mem _ isName, spells⟩

namespace IsRecord

variable {fields : List (List Char × Value)}

theorem named (record : IsRecord names items (.object fields)) :
    ∀ field ∈ fields, ∃ name, Spells field.1 name := by
  cases record with
  | object each spelled order others =>
    intro field isField
    rcases List.mem_append.mp (order.mem_iff.mp isField) with isKnown | isUnknown
    · obtain ⟨name, -, spells⟩ := exists_body_of_mem_zip spelled field isKnown
      exact ⟨name, spells⟩
    · obtain ⟨name, -, spells⟩ := others field isUnknown
      exact ⟨name, spells⟩

/-- The first name is that of one field.  Without the name there is a record still, in which the
    field is one of the unknown ones. -/
theorem of_cons {name : String} (isNew : name ∉ names)
    (record : IsRecord (name :: names) items (.object fields)) :
    ∃ item others, items = item :: others ∧ valuesOf name fields = [item] ∧
      IsRecord names others (.object fields) := by
  cases record with
  | @object _ _ unknown each spelled order others =>
    obtain ⟨item, items, rfl⟩ := List.exists_cons_of_length_eq_add_one each
    cases spelled with
    | @cons body _ bodies _ first rest =>
      refine ⟨item, items, rfl, ?_, ?_⟩
      · have none : valuesOf name (bodies.zip items ++ unknown) = [] := by
          rw [valuesOf_eq_nil_iff, List.forall_mem_append]
          constructor
          · intro field isField spells
            obtain ⟨other, isOther, spellsOther⟩ := exists_body_of_mem_zip rest field isField
            exact isNew (spells.unique spellsOther ▸ isOther)
          · intro field isField spells
            obtain ⟨other, isOther, spellsOther⟩ := others field isField
            exact isOther (spells.unique spellsOther ▸ List.mem_cons_self)
        have single := valuesOf_perm order name
        rw [List.zip_cons_cons, List.cons_append, valuesOf_cons, if_pos first, none] at single
        exact List.perm_singleton.mp single
      · refine .object (Nat.succ.inj each) rest (order.trans List.perm_middle.symm) ?_
        rw [List.forall_mem_cons]
        refine ⟨⟨name, isNew, first⟩, ?_⟩
        intro field isField
        obtain ⟨other, isOther, spells⟩ := others field isField
        exact ⟨other, mt (List.mem_cons_of_mem _) isOther, spells⟩

theorem once (distinct : names.Nodup) (record : IsRecord names items (.object fields)) :
    List.Forall₂ (fun name item => valuesOf name fields = [item]) names items := by
  induction names generalizing items with
  | nil =>
    cases record with
    | object each =>
      rw [List.eq_nil_of_length_eq_zero each]
      exact .nil
  | cons name names ih =>
    rw [List.nodup_cons] at distinct
    obtain ⟨item, others, rfl, single, rest⟩ := record.of_cons distinct.1
    exact .cons single (ih distinct.2 rest)

end IsRecord

/-- A field that is the only one of its name may be taken out in front of the others. -/
theorem exists_order_of_single {name : String} {item : Value}
    {fields : List (List Char × Value)} (single : valuesOf name fields = [item]) :
    ∃ field others, Spells field.1 name ∧ field.2 = item ∧ fields.Perm (field :: others) ∧
      ∀ other ∈ others, ¬ Spells other.1 name := by
  obtain ⟨field, alone, isItem⟩ := List.map_eq_singleton_iff.mp single
  have isField : field ∈ fields.filter fun field => Spells field.1 name := by
    rw [alone]
    exact List.mem_cons_self
  have parts := List.filter_append_perm (fun field => decide (Spells field.1 name)) fields
  rw [alone] at parts
  refine ⟨field, _, of_decide_eq_true (List.mem_filter.mp isField).2, isItem, parts.symm, ?_⟩
  intro other isOther
  simpa using (List.mem_filter.mp isOther).2

/-- If an object has each name once, then it has fields of these names and fields of others. -/
theorem isRecord_of_once {fields : List (List Char × Value)} (distinct : names.Nodup)
    (named : ∀ field ∈ fields, ∃ name, Spells field.1 name)
    (once : List.Forall₂ (fun name item => valuesOf name fields = [item]) names items) :
    IsRecord names items (.object fields) := by
  induction names generalizing items fields with
  | nil =>
    cases once
    refine @IsRecord.object [] [] [] fields fields rfl .nil (.refl _) ?_
    intro field isField
    obtain ⟨name, spells⟩ := named field isField
    exact ⟨name, List.not_mem_nil, spells⟩
  | cons name names ih =>
    cases once with
    | @cons _ item _ items single rest =>
      rw [List.nodup_cons] at distinct
      obtain ⟨field, others, spelled, rfl, order, unspelled⟩ := exists_order_of_single single
      -- Without the first field the object has the other names as before.
      have same {other : String} {item : Value}
          (once : other ∈ names ∧ valuesOf other fields = [item]) :
          valuesOf other others = [item] := by
        have values := valuesOf_perm order other
        have isOther : ¬ Spells field.1 other := by
          intro spells
          exact distinct.1 (spelled.unique spells ▸ once.1)
        rw [valuesOf_cons, if_neg isOther, once.2] at values
        exact List.perm_singleton.mp values.symm
      have namedOthers : ∀ other ∈ others, ∃ name, Spells other.1 name := by
        intro other isOther
        exact named other (order.mem_iff.mpr (List.mem_cons_of_mem _ isOther))
      have withNames := (List.forall₂_and_left names items).mpr ⟨fun _ isName => isName, rest⟩
      have onceOthers := withNames.imp fun _ _ => same
      cases ih distinct.2 namedOthers onceOthers with
      | @object bodies _ unknown each spelledOthers orderOthers unknownNames =>
        have orderAll := order.trans (orderOthers.cons field)
        refine @IsRecord.object _ _ (field.1 :: bodies) fields unknown
          (congrArg Nat.succ each) (.cons spelled spelledOthers) orderAll ?_
        intro other isOther
        obtain ⟨otherName, isNew, spells⟩ := unknownNames other isOther
        have behind := orderOthers.mem_iff.mpr (List.mem_append_right _ isOther)
        refine ⟨otherName, ?_, spells⟩
        rw [List.mem_cons, not_or]
        refine ⟨?_, isNew⟩
        rintro rfl
        exact unspelled other behind spells

/-- A record is read as its items, in the order of their names. -/
theorem recordFields?_eq_some_iff (distinct : names.Nodup) {value : Value} :
    value.recordFields? names = some items ↔ IsRecord names items value := by
  constructor
  · intro read
    cases value with
    | array found =>
      rw [Value.recordFields?] at read
      split at read
      next each =>
        cases read
        exact .array each
      next => cases read
    | object fields =>
      rw [Value.recordFields?, Option.bind_eq_some_iff] at read
      obtain ⟨named, known, found⟩ := read
      have once := (mapM_eq_some_iff.mp found).imp fun _ _ =>
        (Value.onlyField?_eq_some_iff known).mp
      exact isRecord_of_once distinct (Value.exists_namedFields?_iff.mp ⟨named, known⟩) once
    | _ => cases read
  · intro record
    cases value with
    | array found =>
      cases record with
      | array each => rw [Value.recordFields?, if_pos each]
    | object fields =>
      obtain ⟨named, known⟩ := Value.exists_namedFields?_iff.mpr record.named
      rw [Value.recordFields?, known, Option.bind_some, mapM_eq_some_iff]
      exact (record.once distinct).imp fun _ _ => (Value.onlyField?_eq_some_iff known).mpr
    | _ => cases record

/-! ## Items -/

theorem mem_itemTokens {item : Value} {token : Token} (isToken : token ∈ item.tokens)
    (isItem : item ∈ items) : token ∈ Value.itemTokens items := by
  induction items with
  | nil => cases isItem
  | cons first items ih =>
    cases items with
    | nil => rwa [Value.itemTokens, ← List.mem_singleton.mp isItem]
    | cons next items =>
      rw [Value.itemTokens_cons_cons, List.mem_append, List.mem_cons]
      rcases List.mem_cons.mp isItem with rfl | isOther
      · exact .inl isToken
      · exact .inr (.inr (ih isOther))

theorem mem_fieldTokens {body : List Char} {value : Value} {fields : List (List Char × Value)}
    {token : Token} (isToken : token ∈ value.tokens) (isField : (body, value) ∈ fields) :
    token ∈ Value.fieldTokens fields := by
  induction fields with
  | nil => cases isField
  | cons first fields ih =>
    cases fields with
    | nil =>
      rw [← List.mem_singleton.mp isField, Value.fieldTokens]
      exact List.mem_cons_of_mem _ (List.mem_cons_of_mem _ isToken)
    | cons next fields =>
      rw [Value.fieldTokens_cons_cons, List.mem_cons, List.mem_cons, List.mem_append,
        List.mem_cons]
      rcases List.mem_cons.mp isField with rfl | isOther
      · exact .inr (.inr (.inl isToken))
      · exact .inr (.inr (.inr (.inr (ih isOther))))

theorem IsRecord.valid_items {value : Value} (record : IsRecord names items value)
    (valid : value.Valid) : ∀ item ∈ items, item.Valid := by
  intro item isItem token isToken
  cases record with
  | array each =>
    have inside := mem_itemTokens isToken isItem
    exact valid token (List.mem_cons_of_mem _ (List.mem_append_left _ inside))
  | @object bodies fields unknown each spelled order others =>
    have long : items.length ≤ bodies.length := Nat.le_of_eq (each.trans spelled.length_eq.symm)
    rw [← List.map_snd_zip long] at isItem
    obtain ⟨field, isField, rfl⟩ := List.mem_map.mp isItem
    have inFields := order.mem_iff.mpr (List.mem_append_left _ isField)
    have inside := mem_fieldTokens isToken inFields
    exact valid token (List.mem_cons_of_mem _ (List.mem_append_left _ inside))

/-! ## What is refused -/

/-- What may be amiss with a value that should be a record with given names: it is no record at
    all, or lacks a name, or repeats one, or has a wrong value under one. -/
inductive Amiss (names : List String) (Wrong : String → Value → Prop) : Value → Prop where
  | noRecord {value : Value} (noItems : ∀ items, value ≠ .array items)
      (noFields : ∀ fields, value ≠ .object fields) : Amiss names Wrong value
  | count {items : List Value} (other : items.length ≠ names.length) :
      Amiss names Wrong (.array items)
  | wrongItem {items : List Value} {name : String} {item : Value}
      (isItem : (name, item) ∈ names.zip items) (wrong : Wrong name item) :
      Amiss names Wrong (.array items)
  | missing {fields : List (List Char × Value)} {name : String} (isName : name ∈ names)
      (absent : ∀ field ∈ fields, ¬ Spells field.1 name) : Amiss names Wrong (.object fields)
  | repeated {fields : List (List Char × Value)} {first again : List Char × Value} {name : String}
      (isName : name ∈ names) (twice : [first, again].Sublist fields)
      (spelled : Spells first.1 name) (spelledAgain : Spells again.1 name) :
      Amiss names Wrong (.object fields)
  | wrongField {fields : List (List Char × Value)} {field : List Char × Value} {name : String}
      (isName : name ∈ names) (isField : field ∈ fields) (spelled : Spells field.1 name)
      (wrong : Wrong name field.2) : Amiss names Wrong (.object fields)

theorem exists_single_of_mem {fields : List (List Char × Value)}
    {Right : String → Value → Prop}
    (once : List.Forall₂ (fun name item => valuesOf name fields = [item]) names items)
    (right : List.Forall₂ Right names items) :
    ∀ name ∈ names, ∃ item, valuesOf name fields = [item] ∧ Right name item := by
  induction once with
  | nil => simp
  | @cons name item names items single rest ih =>
    cases right with
    | cons rightFirst rightRest =>
      rw [List.forall_mem_cons]
      exact ⟨⟨item, single, rightFirst⟩, ih rightRest⟩

/-- Nothing is amiss with a record that has a right value under each name. -/
theorem IsRecord.not_amiss {Wrong : String → Value → Prop} {value : Value}
    (distinct : names.Nodup) (record : IsRecord names items value)
    (right : List.Forall₂ (fun name item => ¬ Wrong name item) names items) :
    ¬ Amiss names Wrong value := by
  intro amiss
  cases amiss with
  | noRecord noItems noFields =>
    cases record with
    | array => exact noItems _ rfl
    | object => exact noFields _ rfl
  | count other =>
    cases record with
    | array each => exact other each
  | wrongItem isItem wrong =>
    cases record with
    | array => exact (List.forall₂_iff_zip.mp right).2 isItem wrong
  | @missing _ name isName absent =>
    obtain ⟨item, alone, -⟩ := exists_single_of_mem (record.once distinct) right name isName
    rw [valuesOf_eq_nil_iff.mpr absent] at alone
    cases alone
  | @repeated _ first again name isName twice spelled spelledAgain =>
    obtain ⟨item, alone, -⟩ := exists_single_of_mem (record.once distinct) right name isName
    have both : (valuesOf name [first, again]).Sublist [item] := alone ▸ (twice.filter _).map _
    rw [valuesOf_cons, if_pos spelled, valuesOf_cons, if_pos spelledAgain] at both
    exact absurd both.length_le (by simp)
  | @wrongField _ field name isName isField spelled wrong =>
    obtain ⟨item, alone, isRight⟩ := exists_single_of_mem (record.once distinct) right name isName
    have isItem : field.2 ∈ valuesOf name _ :=
      List.mem_map.mpr ⟨field, List.mem_filter.mpr ⟨isField, decide_eq_true spelled⟩, rfl⟩
    rw [alone, List.mem_singleton] at isItem
    exact isRight (isItem ▸ wrong)

end Once

end X86Length.Json
