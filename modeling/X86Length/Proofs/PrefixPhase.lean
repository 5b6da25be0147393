import X86Length.Proofs.GuardedDecoder

/-! # How far the prefix phase goes

The phase takes the longest run of prefix bytes at the start of a byte list, and the escape if that
stands right behind the run.  What it notes is what the bytes of the run say, whatever their order
and number.  Bytes that follow never take anything back, and they only matter where the phase
stopped for want of bytes (`phase_takes_longest_run`). -/

namespace X86Length

open Prefixes

/-! ## The run at the start of a lead -/

section Lead

variable {run rest : List UInt8} {escaped : Bool}

theorem take_lead : (run ++ escapeBytes escaped ++ rest).take run.length = run := by
  rw [List.append_assoc]
  exact List.take_left

theorem getElem?_behind_run :
    (run ++ escapeBytes escaped ++ rest)[run.length]? = (escapeBytes escaped ++ rest).head? := by
  rw [List.append_assoc, List.getElem?_append_right (Nat.le_refl _), Nat.sub_self,
    List.head?_eq_getElem?]

/-- The byte behind the run is the escape, or it is no prefix byte. -/
theorem behind_run_cases (stops : StopsAt escaped rest) {byte : UInt8}
    (next : byte ∈ (run ++ escapeBytes escaped ++ rest)[run.length]?) :
    (escaped = true ∧ byte = escapeByte) ∨
      (escaped = false ∧ byte ≠ escapeByte ∧ byte ∉ prefixBytes) := by
  rw [getElem?_behind_run] at next
  cases escaped with
  | true =>
    obtain rfl : escapeByte = byte := by simpa [escapeBytes] using next
    exact .inl ⟨rfl, rfl⟩
  | false => exact .inr ⟨rfl, (isPrefixByte_eq_false_iff byte).mp (stops rfl byte next)⟩

theorem behind_run_iff (stops : StopsAt escaped rest) :
    (run ++ escapeBytes escaped ++ rest)[run.length]? = some escapeByte ↔ escaped = true := by
  constructor
  · intro next
    rcases behind_run_cases stops next with ⟨atEscape, -⟩ | ⟨-, noEscape, -⟩
    · exact atEscape
    · exact absurd rfl noEscape
  · rintro rfl
    rw [getElem?_behind_run]
    rfl

theorem not_mem_prefixBytes_behind_run (stops : StopsAt escaped rest) {byte : UInt8}
    (next : byte ∈ (run ++ escapeBytes escaped ++ rest)[run.length]?) : byte ∉ prefixBytes := by
  rcases behind_run_cases stops next with ⟨-, rfl⟩ | ⟨-, -, noPrefix⟩
  · decide
  · exact noPrefix

/-- No longer part in front is a run. -/
theorem isRun_take_iff (isRun : IsRun run) (stops : StopsAt escaped rest) {n : Nat}
    (inside : n ≤ (run ++ escapeBytes escaped ++ rest).length) :
    IsRun ((run ++ escapeBytes escaped ++ rest).take n) ↔ n ≤ run.length := by
  constructor
  · intro isTake
    apply Nat.le_of_not_lt
    intro longer
    have place : run.length < (run ++ escapeBytes escaped ++ rest).length := by omega
    have behind := List.getElem?_eq_getElem place
    have inTake : (run ++ escapeBytes escaped ++ rest)[run.length] ∈
        (run ++ escapeBytes escaped ++ rest).take n := by
      rw [List.mem_take_iff_getElem]
      exact ⟨run.length, by omega, rfl⟩
    exact not_mem_prefixBytes_behind_run stops behind (isTake _ inTake)
  · intro short byte member
    rw [List.append_assoc, List.take_append_of_le_length short] at member
    exact isRun byte (List.mem_of_mem_take member)

end Lead

/-! ## What the phase notes -/

namespace Guarded.Tally

/-- The tally of a whole byte list. -/
def ofBytes (bytes : List UInt8) : Tally :=
  ofPrefixes (Prefixes.ofBytes bytes)

/-- What a tally says of bytes of which the first `k` are a run of prefixes. -/
structure Describes (tally : Tally) (bytes : List UInt8) (k : Nat) : Prop where
  escaped : tally.escaped = true ↔ bytes[k]? = some escapeByte
  count : tally.count = k + tally.escaped.toNat
  inside : tally.count ≤ bytes.length
  legacy : tally.legacy = .ok k
  operand16 : tally.operand16 = true ↔ operandSizeByte ∈ bytes.take k
  address16 : tally.address16 = true ↔ addressSizeByte ∈ bytes.take k
  rexW : tally.rexW = true ↔ ∃ byte ∈ bytes.take k, 0x48 ≤ byte ∧ byte ≤ 0x4F
  stops : tally.escaped = false →
    ∀ byte ∈ bytes[tally.count]?, byte ≠ escapeByte ∧ byte ∉ prefixBytes

/-- All that one tally says, another says too. -/
structure Within (tally longer : Tally) : Prop where
  count : tally.count ≤ longer.count
  escaped : tally.escaped = true → longer.escaped = true
  operand16 : tally.operand16 = true → longer.operand16 = true
  address16 : tally.address16 = true → longer.address16 = true
  rexW : tally.rexW = true → longer.rexW = true

theorem Within.refl (tally : Tally) : tally.Within tally where
  count := Nat.le_refl _
  escaped := id
  operand16 := id
  address16 := id
  rexW := id

section Lead

variable {run rest : List UInt8} {escaped : Bool}

theorem ofBytes_lead (isRun : IsRun run) (stops : StopsAt escaped rest) :
    ofBytes (run ++ escapeBytes escaped ++ rest) = ofPrefixes (ofRun run escaped) := by
  rw [ofBytes, X86Length.ofBytes_lead isRun stops]

theorem describes_lead (stops : StopsAt escaped rest) :
    (ofPrefixes (ofRun run escaped)).Describes (run ++ escapeBytes escaped ++ rest)
      run.length where
  escaped := by
    rw [behind_run_iff stops]
    exact Bool.eq_iff_iff.mp (escaped_ofRun run escaped)
  count := by simp [ofPrefixes]
  inside := by simp [ofPrefixes]
  legacy := by rw [legacy_ofPrefixes, legacy_ofRun]
  operand16 := by
    rw [take_lead]
    exact operand16_ofRun run escaped
  address16 := by
    rw [take_lead]
    exact address16_ofRun run escaped
  rexW := by
    rw [take_lead]
    exact rexW_ofRun run escaped
  stops := by
    intro plain byte next
    obtain rfl : escaped = false := (escaped_ofRun run escaped).symm.trans plain
    have place : (ofPrefixes (ofRun run false)).count = run.length := by simp [ofPrefixes]
    rw [place] at next
    rcases behind_run_cases stops next with ⟨atEscape, -⟩ | ⟨-, noPrefix⟩
    · cases atEscape
    · exact noPrefix

end Lead

theorem within_ofRun_append (run more : List UInt8) (escaped : Bool) :
    (ofPrefixes (ofRun run false)).Within (ofPrefixes (ofRun (run ++ more) escaped)) where
  count := by
    simp only [ofPrefixes, count_ofRun, List.length_append, Bool.toNat_false]
    omega
  escaped := by simp [ofPrefixes]
  operand16 := by
    simp only [ofPrefixes, operand16_ofRun]
    exact List.mem_append_left more
  address16 := by
    simp only [ofPrefixes, address16_ofRun]
    exact List.mem_append_left more
  rexW := by
    simp only [ofPrefixes, rexW_ofRun]
    rintro ⟨byte, member, wide⟩
    exact ⟨byte, List.mem_append_left more member, wide⟩

/-! ## More bytes -/

/-- A phase that an escape or an opcode byte has stopped does not see what follows. -/
theorem ofBytes_append {bytes : List UInt8}
    (stopped : (ofBytes bytes).escaped = true ∨ (ofBytes bytes).count < bytes.length)
    (more : List UInt8) : ofBytes (bytes ++ more) = ofBytes bytes := by
  obtain ⟨run, escaped, rest, isRun, stops, rfl⟩ := exists_lead bytes
  rw [ofBytes_lead isRun stops] at stopped ⊢
  have seen : escaped = true ∨ rest ≠ [] := by
    rcases stopped with atEscape | before
    · exact .inl ((escaped_ofRun run escaped).symm.trans atEscape)
    · right
      rintro rfl
      simp [ofPrefixes] at before
  rw [List.append_assoc]
  exact ofBytes_lead isRun (stops.append seen more)

theorem within_append (bytes more : List UInt8) :
    (ofBytes bytes).Within (ofBytes (bytes ++ more)) := by
  by_cases stopped : (ofBytes bytes).escaped = true ∨ (ofBytes bytes).count < bytes.length
  · rw [ofBytes_append stopped]
    exact .refl _
  · -- The phase ran out of bytes, so they are one run and it goes on into what follows.
    obtain ⟨run, escaped, rest, isRun, stops, rfl⟩ := exists_lead bytes
    rw [ofBytes_lead isRun stops] at stopped ⊢
    obtain ⟨rfl, rfl⟩ : escaped = false ∧ rest = [] := by
      simpa [ofPrefixes] using stopped
    obtain ⟨later, escaped, rest, isLater, stopsLater, rfl⟩ := exists_lead more
    have joined : run ++ escapeBytes false ++ [] ++ (later ++ escapeBytes escaped ++ rest) =
        run ++ later ++ escapeBytes escaped ++ rest := by
      simp [escapeBytes]
    rw [joined, ofBytes_lead (isRun.append isLater) stopsLater]
    exact within_ofRun_append run later escaped

/-- The prefix phase takes the longest run of prefix bytes and an escape behind it.  Its notes are
    about this run alone, and the byte at which it stops without an escape is no prefix byte.  In
    front of more bytes it notes no less, and nothing else unless it stopped at the end of the
    bytes.  Where they can be counted in a word, it finds this under guard. -/
theorem phase_takes_longest_run (bytes : List UInt8) :
    (∃ k ≤ bytes.length, (∀ n ≤ bytes.length, IsRun (bytes.take n) ↔ n ≤ k) ∧
      (ofBytes bytes).Describes bytes k) ∧
    (∀ more, (ofBytes bytes).Within (ofBytes (bytes ++ more)) ∧
      ((ofBytes bytes).escaped = true ∨ (ofBytes bytes).count < bytes.length →
        ofBytes (bytes ++ more) = ofBytes bytes)) ∧
    (bytes.length < wordLimit → extend {} bytes = .ok (ofBytes bytes)) := by
  refine ⟨?_, ?_, extend_eq⟩
  · obtain ⟨run, escaped, rest, isRun, stops, rfl⟩ := exists_lead bytes
    rw [ofBytes_lead isRun stops]
    refine ⟨run.length, by simp, ?_, describes_lead stops⟩
    intro n inside
    exact isRun_take_iff isRun stops inside
  · intro more
    exact ⟨within_append bytes more, fun stopped => ofBytes_append stopped more⟩

/-- The operand-size byte behind the escape is an opcode, and so are the bytes behind that. -/
theorem phase_takes_longest_run_escape :
    ([0x48, 0x67, 0x40, 0x0F, 0x66] : List UInt8).length < wordLimit ∧
      extend {} [0x48, 0x67, 0x40, 0x0F, 0x66] =
        .ok { count := 4, escaped := true, address16 := true, rexW := true } ∧
      ∀ more, ofBytes ([0x48, 0x67, 0x40, 0x0F, 0x66] ++ more) =
        { count := 4, escaped := true, address16 := true, rexW := true } := by
  have small : ([0x48, 0x67, 0x40, 0x0F, 0x66] : List UInt8).length < wordLimit := by decide
  obtain ⟨-, grown, counted⟩ := phase_takes_longest_run [0x48, 0x67, 0x40, 0x0F, 0x66]
  exact ⟨small, counted small, fun more => (grown more).2 (.inl rfl)⟩

end Guarded.Tally

end X86Length
