import X86Length.Proofs.SpacedHex

/-! # Reading numerals back

A numeral that is written in a radix is read in that radix as the number it was written for, as long
as that fits in 64 bits (`readDigits_toDigits`).  No two numbers, however large, have the same
numeral (`toDigits_inj`). -/

namespace X86Length.Text

section Radix

variable {radix : Nat}

/-- The characters of a numeral are digits below its radix. -/
theorem mem_toDigits (several : 1 < radix) (n : Nat) :
    ∀ c ∈ Nat.toDigits radix n, ∃ digit < radix, c = Nat.digitChar digit := by
  induction n using Nat.strongRecOn with
  | ind n ih =>
    rw [Nat.toDigits_eq_if several]
    split
    next single =>
      intro c isDigit
      exact ⟨n, single, List.mem_singleton.mp isDigit⟩
    next long =>
      have fewer : n / radix < n := Nat.div_lt_self (by omega) several
      rw [List.forall_mem_append]
      refine ⟨ih _ fewer, ?_⟩
      intro c isLast
      exact ⟨n % radix, Nat.mod_lt _ (by omega), List.mem_singleton.mp isLast⟩

/-- The numeral of a number above zero starts with a digit above zero. -/
theorem exists_toDigits_eq_cons {n : Nat} (several : 1 < radix) (positive : 0 < n) :
    ∃ digit rest, 0 < digit ∧ digit < radix ∧
      Nat.toDigits radix n = Nat.digitChar digit :: rest := by
  induction n using Nat.strongRecOn with
  | ind n ih =>
    rw [Nat.toDigits_eq_if several]
    split
    next single => exact ⟨n, [], positive, single, rfl⟩
    next long =>
      have fewer : n / radix < n := Nat.div_lt_self positive several
      have front : 0 < n / radix := Nat.div_pos (Nat.le_of_not_lt long) (by omega)
      obtain ⟨digit, rest, nonzero, below, same⟩ := ih _ fewer front
      exact ⟨digit, rest ++ [Nat.digitChar (n % radix)], nonzero, below, by rw [same]; rfl⟩

theorem digitValue?_digitChar {digit : Nat} (known : radix ≤ 16) (below : digit < radix) :
    digitValue? radix (Nat.digitChar digit) = some digit := by
  have inAlphabet : digit < 16 := Nat.lt_of_lt_of_le below known
  rw [digitValue?, HexBytes.hexDigitValue?_digitChar digit inAlphabet, Option.filter_some,
    if_pos (by simpa using below)]

theorem readDigits_append (value : Nat) (front behind : List Char) :
    readDigits radix value (front ++ behind) =
      (readDigits radix value front).bind fun value => readDigits radix value behind := by
  induction front generalizing value with
  | nil => rfl
  | cons c front ih =>
    rw [List.cons_append, readDigits, readDigits]
    cases digitValue? radix c with
    | none => rfl
    | some digit =>
      dsimp only
      split
      · exact ih _
      · rfl

theorem readDigits_toDigits {n : Nat} (several : 1 < radix) (known : radix ≤ 16)
    (fits : n < wordLimit) : readDigits radix 0 (Nat.toDigits radix n) = .ok n := by
  induction n using Nat.strongRecOn with
  | ind n ih =>
    rw [Nat.toDigits_eq_if several]
    split
    next single =>
      simp [readDigits, digitValue?_digitChar known single, fits]
    next long =>
      have fewer : n / radix < n := Nat.div_lt_self (by omega) several
      have last : n % radix < radix := Nat.mod_lt _ (by omega)
      rw [readDigits_append, ih _ fewer (Nat.lt_trans fewer fits)]
      simp [readDigits, Except.bind, digitValue?_digitChar known last, Nat.div_add_mod, fits]

theorem digitChar_inj {digit other : Nat} (known : digit < 16) (knownOther : other < 16)
    (same : Nat.digitChar digit = Nat.digitChar other) : digit = other := by
  have value := HexBytes.hexDigitValue?_digitChar digit known
  rw [same, HexBytes.hexDigitValue?_digitChar other knownOther] at value
  exact (Option.some.inj value).symm

theorem toDigits_inj {m n : Nat} (several : 1 < radix) (known : radix ≤ 16)
    (same : Nat.toDigits radix m = Nat.toDigits radix n) : m = n := by
  induction m using Nat.strongRecOn generalizing n with
  | ind m ih =>
    -- Numerals of one length are both a single digit, or both longer.
    have single_iff (k : Nat) : (Nat.toDigits radix k).length ≤ 1 ↔ k < radix := by
      simpa using Nat.length_toDigits_le_iff several Nat.one_pos
    have alike : m < radix ↔ n < radix := by rw [← single_iff, ← single_iff, same]
    by_cases single : m < radix
    · rw [Nat.toDigits_of_lt_base single, Nat.toDigits_of_lt_base (alike.mp single)] at same
      exact digitChar_inj (by omega) (by omega) (List.cons.inj same).1
    · rw [Nat.toDigits_of_base_le several (Nat.le_of_not_lt single),
        Nat.toDigits_of_base_le several (Nat.le_of_not_lt (mt alike.mpr single))] at same
      have fewer : m / radix < m := Nat.div_lt_self (by omega) several
      have lastBelow (k : Nat) : k % radix < 16 :=
        Nat.lt_of_lt_of_le (Nat.mod_lt k (by omega)) known
      obtain ⟨fronts, lasts⟩ := List.append_inj' same rfl
      have front := ih _ fewer fronts
      have last := digitChar_inj (lastBelow m) (lastBelow n) (List.cons.inj lasts).1
      rw [← Nat.div_add_mod m radix, front, last, Nat.div_add_mod]

end Radix

end X86Length.Text
