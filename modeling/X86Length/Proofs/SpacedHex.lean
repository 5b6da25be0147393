import X86Length.HexBytes
import X86Length.Opcode.ByteRange
import X86Length.Text.Numeral

/-! # Reading spaced bytes back

Bytes that are written in hexadecimal, with a blank between each two, are read back as they were,
also when they are written in pieces (`read_spacedHex`). -/

namespace X86Length.HexBytes

open Text

/-! ## One byte -/

theorem hexDigitValue?_digitChar : ∀ digit < 16,
    hexDigitValue? (Nat.digitChar digit) = some digit := by
  decide

theorem isSeparator_digitChar : ∀ digit < 16, isSeparator (Nat.digitChar digit) = false := by
  decide

theorem high_digit_lt (byte : UInt8) : byte.toNat / 16 < 16 := by
  have := byte.toNat_lt
  omega

theorem low_digit_lt (byte : UInt8) : byte.toNat % 16 < 16 :=
  Nat.mod_lt _ (by decide)

theorem hexDigits?_hexPair (byte : UInt8) : hexDigits? (hexPair byte) = none := by
  revert byte
  apply Opcode.forall_byte
  decide +kernel

theorem ofToken_hexPair (byte : UInt8) : ofToken (hexPair byte) = .ok [byte] := by
  have high := hexDigitValue?_digitChar _ (high_digit_lt byte)
  have low := hexDigitValue?_digitChar _ (low_digit_lt byte)
  rw [ofToken, hexDigits?_hexPair]
  simp [hexPair, high, low, ofDigits, Nat.div_add_mod]

theorem isSeparator_of_mem_hexPair {byte : UInt8} :
    ∀ c ∈ hexPair byte, isSeparator c = false := by
  intro c digit
  rw [hexPair, List.mem_cons, List.mem_singleton] at digit
  rcases digit with rfl | rfl
  · exact isSeparator_digitChar _ (high_digit_lt byte)
  · exact isSeparator_digitChar _ (low_digit_lt byte)

/-! ## Bytes in a row -/

theorem splitOnP_spaced {bytes : List UInt8} (nonempty : bytes ≠ []) :
    (List.intercalate [' '] (bytes.map hexPair)).splitOnP isSeparator = bytes.map hexPair := by
  induction bytes with
  | nil => exact absurd rfl nonempty
  | cons byte bytes ih =>
    cases bytes with
    | nil =>
      rw [List.map_singleton, List.intercalate_singleton,
        List.splitOnP_eq_singleton isSeparator_of_mem_hexPair]
    | cons next bytes =>
      have blank : isSeparator ' ' = true := by decide
      rw [List.map_cons, List.map_cons, List.intercalate_cons_cons, List.append_assoc,
        List.singleton_append, List.splitOnP_append_cons_of_forall_mem isSeparator_of_mem_hexPair
          ' ' blank, ← List.map_cons, ih (List.cons_ne_nil _ _)]

theorem tokens_cons (text : String) (texts : List String) :
    tokens (text :: texts) =
      (text.toList.splitOnP isSeparator).filter (!·.isEmpty) ++ tokens texts := by
  simp [tokens]

theorem tokens_spacedHex (pieces : List (List UInt8)) :
    tokens (pieces.map spacedHex) = pieces.flatten.map hexPair := by
  induction pieces with
  | nil => rfl
  | cons piece pieces ih =>
    rw [List.map_cons, tokens_cons, ih, List.flatten_cons, List.map_append, spacedHex,
      String.toList_ofList]
    congr 1
    by_cases empty : piece = []
    · rw [empty]
      rfl
    · rw [splitOnP_spaced empty, List.filter_eq_self]
      intro token isPair
      obtain ⟨byte, -, rfl⟩ := List.mem_map.mp isPair
      rfl

theorem tokens_spacedHex_singleton (bytes : List UInt8) :
    tokens [spacedHex bytes] = bytes.map hexPair := by
  have found := tokens_spacedHex [bytes]
  rwa [List.map_singleton, List.flatten_singleton] at found

theorem ofTokens_hexPair (bytes : List UInt8) : ofTokens (bytes.map hexPair) = .ok bytes := by
  induction bytes with
  | nil => rfl
  | cons byte bytes ih =>
    rw [List.map_cons, ofTokens, ofToken_hexPair, ih]
    rfl

theorem read_spacedHex {pieces : List (List UInt8)} (nonempty : pieces.flatten ≠ []) :
    read (pieces.map spacedHex) = .ok pieces.flatten := by
  rw [read, tokens_spacedHex, ofTokens_hexPair]
  cases bytes : pieces.flatten with
  | nil => exact absurd bytes nonempty
  | cons byte bytes => rfl

end X86Length.HexBytes
