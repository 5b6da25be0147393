import X86Length.Decode

/-! # The run of prefixes

Every byte list is a run of prefix bytes, perhaps the `0F` escape, and a rest that the opcode
starts (`exists_lead`).  The prefix phase sees the run through its length and three facts about
its bytes (`Prefixes.ofRun`), and decoding goes on with the rest alone
(`decodeUnbounded_lead`). -/

namespace X86Length

open Opcode

/-! ## Prefix bytes -/

/-- The prefix bytes other than the escape: segment overrides, REX, segment and size overrides,
    lock and repeat. -/
def prefixBytes : List UInt8 :=
  [0x26, 0x2E, 0x36, 0x3E,
   0x40, 0x41, 0x42, 0x43, 0x44, 0x45, 0x46, 0x47, 0x48, 0x49, 0x4A, 0x4B, 0x4C, 0x4D, 0x4E, 0x4F,
   0x64, 0x65, 0x66, 0x67, 0xF0, 0xF2, 0xF3]

def IsRun (run : List UInt8) : Prop :=
  ∀ byte ∈ run, byte ∈ prefixBytes

theorem isRun_nil : IsRun [] := by
  intro byte member
  cases member

theorem isRun_cons {byte : UInt8} {run : List UInt8} :
    IsRun (byte :: run) ↔ byte ∈ prefixBytes ∧ IsRun run :=
  List.forall_mem_cons

theorem IsRun.append {run more : List UInt8} (first : IsRun run) (second : IsRun more) :
    IsRun (run ++ more) := by
  intro byte member
  rcases List.mem_append.mp member with inFirst | inSecond
  · exact first byte inFirst
  · exact second byte inSecond

namespace Prefixes

theorem isPrefixByte_iff (byte : UInt8) :
    isPrefixByte byte = true ↔ byte = escapeByte ∨ byte ∈ prefixBytes := by
  revert byte
  apply forall_byte
  decide +kernel

theorem isPrefixByte_eq_false_iff (byte : UInt8) :
    isPrefixByte byte = false ↔ byte ≠ escapeByte ∧ byte ∉ prefixBytes := by
  rw [← Bool.not_eq_true, isPrefixByte_iff, not_or]

theorem isRexWithW_iff (byte : UInt8) :
    isRexWithW byte = true ↔ 0x48 ≤ byte ∧ byte ≤ 0x4F := by
  revert byte
  apply forall_byte
  decide +kernel

theorem ofBytes_cons_of_mem {byte : UInt8} (member : byte ∈ prefixBytes) (rest : List UInt8) :
    ofBytes (byte :: rest) = (ofBytes rest).push byte := by
  have isPrefix := (isPrefixByte_iff byte).mpr (.inr member)
  have noEscape : byte ≠ escapeByte := by
    rintro rfl
    exact absurd member (by decide)
  simp [ofBytes, isPrefix, noEscape]

theorem ofBytes_escape (rest : List UInt8) :
    ofBytes (escapeByte :: rest) = { escaped := true } := by
  simp [ofBytes]

theorem ofBytes_opcode {opcode : UInt8} (noPrefix : isPrefixByte opcode = false)
    (rest : List UInt8) : ofBytes (opcode :: rest) = {} := by
  have noEscape := ((isPrefixByte_eq_false_iff opcode).mp noPrefix).1
  simp [ofBytes, noPrefix, noEscape]

/-! ## What the phase keeps of a run -/

/-- What the phase finds in a run of prefix bytes, with or without an escape behind it. -/
def ofRun (run : List UInt8) (escaped : Bool) : Prefixes :=
  run.foldr push { escaped }

theorem ofRun_cons (byte : UInt8) (run : List UInt8) (escaped : Bool) :
    ofRun (byte :: run) escaped = (ofRun run escaped).push byte := rfl

@[simp] theorem legacy_ofRun (run : List UInt8) (escaped : Bool) :
    (ofRun run escaped).legacy = run.length := by
  induction run with
  | nil => rfl
  | cons byte run ih => simp [ofRun_cons, push, ih]

@[simp] theorem escaped_ofRun (run : List UInt8) (escaped : Bool) :
    (ofRun run escaped).escaped = escaped := by
  induction run with
  | nil => rfl
  | cons byte run ih => simp [ofRun_cons, push, ih]

@[simp] theorem count_ofRun (run : List UInt8) (escaped : Bool) :
    (ofRun run escaped).count = run.length + escaped.toNat := by
  simp [count]

theorem operand16_ofRun (run : List UInt8) (escaped : Bool) :
    (ofRun run escaped).operand16 = true ↔ operandSizeByte ∈ run := by
  induction run with
  | nil => simp [ofRun]
  | cons byte run ih => simp [ofRun_cons, push, ih, @eq_comm _ byte]

theorem address16_ofRun (run : List UInt8) (escaped : Bool) :
    (ofRun run escaped).address16 = true ↔ addressSizeByte ∈ run := by
  induction run with
  | nil => simp [ofRun]
  | cons byte run ih => simp [ofRun_cons, push, ih, @eq_comm _ byte]

theorem rexW_ofRun (run : List UInt8) (escaped : Bool) :
    (ofRun run escaped).rexW = true ↔ ∃ byte ∈ run, 0x48 ≤ byte ∧ byte ≤ 0x4F := by
  induction run with
  | nil => simp [ofRun]
  | cons byte run ih => simp [ofRun_cons, push, ih, isRexWithW_iff]

end Prefixes

/-! ## The lead of an instruction -/

open Prefixes

def escapeBytes (escaped : Bool) : List UInt8 :=
  if escaped then [escapeByte] else []

@[simp] theorem length_escapeBytes (escaped : Bool) :
    (escapeBytes escaped).length = escaped.toNat := by
  cases escaped <;> rfl

/-- The prefix phase stops in front of `rest`: behind an escape anywhere, and otherwise at the end
    of the bytes or at a byte that is no prefix. -/
def StopsAt (escaped : Bool) (rest : List UInt8) : Prop :=
  escaped = false → ∀ byte ∈ rest.head?, isPrefixByte byte = false

theorem stopsAt_escape (rest : List UInt8) : StopsAt true rest := by
  intro noEscape
  cases noEscape

theorem stopsAt_nil (escaped : Bool) : StopsAt escaped [] := by
  intro _ byte member
  cases member

theorem stopsAt_cons {escaped : Bool} {opcode : UInt8} {rest : List UInt8} :
    StopsAt escaped (opcode :: rest) ↔ (escaped = false → isPrefixByte opcode = false) := by
  simp [StopsAt]

theorem stopsAt_opcode_iff {escaped : Bool} {opcode : UInt8} {rest : List UInt8} :
    StopsAt escaped (opcode :: rest) ↔
      (escaped = false → opcode ≠ escapeByte ∧ opcode ∉ prefixBytes) := by
  rw [stopsAt_cons, isPrefixByte_eq_false_iff]

/-- Bytes that follow do not move the place where the phase stopped, unless it stopped only for
    want of bytes. -/
theorem StopsAt.append {escaped : Bool} {rest : List UInt8} (stops : StopsAt escaped rest)
    (seen : escaped = true ∨ rest ≠ []) (more : List UInt8) : StopsAt escaped (rest ++ more) := by
  cases rest with
  | nil =>
    obtain rfl : escaped = true := by simpa using seen
    exact stopsAt_escape _
  | cons opcode rest => exact stopsAt_cons.mpr (stopsAt_cons.mp stops)

/-- Every byte list is a run, perhaps an escape, and a rest at which the phase stops. -/
theorem exists_lead (bytes : List UInt8) :
    ∃ run escaped rest, IsRun run ∧ StopsAt escaped rest ∧
      bytes = run ++ escapeBytes escaped ++ rest := by
  induction bytes with
  | nil => exact ⟨[], false, [], isRun_nil, stopsAt_nil false, rfl⟩
  -- The escape ends the run wherever it stands; only then may the byte be another prefix.
  | cons byte bytes ih =>
    by_cases isEscape : byte = escapeByte
    · subst isEscape
      exact ⟨[], true, bytes, isRun_nil, stopsAt_escape bytes, rfl⟩
    · by_cases member : byte ∈ prefixBytes
      · obtain ⟨run, escaped, rest, isRun, stops, rfl⟩ := ih
        exact ⟨byte :: run, escaped, rest, isRun_cons.mpr ⟨member, isRun⟩, stops, rfl⟩
      · have noPrefix := (isPrefixByte_eq_false_iff byte).mpr ⟨isEscape, member⟩
        exact ⟨[], false, byte :: bytes, isRun_nil, stopsAt_cons.mpr fun _ => noPrefix, rfl⟩

theorem ofBytes_lead {run rest : List UInt8} {escaped : Bool} (isRun : IsRun run)
    (stops : StopsAt escaped rest) :
    ofBytes (run ++ escapeBytes escaped ++ rest) = ofRun run escaped := by
  induction run with
  | nil =>
    cases escaped with
    | true => exact ofBytes_escape rest
    | false =>
      cases rest with
      | nil => rfl
      | cons opcode rest => exact ofBytes_opcode (stopsAt_cons.mp stops rfl) rest
  | cons byte run ih =>
    obtain ⟨member, isRun⟩ := isRun_cons.mp isRun
    rw [ofRun_cons, ← ih isRun]
    exact ofBytes_cons_of_mem member _

theorem drop_lead (run rest : List UInt8) (escaped : Bool) :
    (run ++ escapeBytes escaped ++ rest).drop (ofRun run escaped).count = rest := by
  apply List.drop_left'
  simp

/-! ## Decoding behind the lead -/

/-- What is found behind the prefixes, as a verdict on the whole instruction. -/
def Prefixes.complete (found : Prefixes) : Except Fault Operands → Except Fault InstructionLength
  | .error fault => .error (fault.shift found.count)
  | .ok operands => .ok (operands.behind found)

theorem Prefixes.complete_ok {found : Prefixes} {least : Except Fault Operands}
    {length : InstructionLength} (completed : found.complete least = .ok length) :
    ∃ operands, least = .ok operands ∧ operands.behind found = length := by
  cases least with
  | error fault => cases completed
  | ok operands =>
    cases completed
    exact ⟨operands, rfl, rfl⟩

theorem Prefixes.complete_error_iff {found : Prefixes} {least : Except Fault Operands}
    {fault : Fault} :
    found.complete least = .error fault ↔
      ∃ inner, least = .error inner ∧ inner.shift found.count = fault := by
  cases least <;> simp [Prefixes.complete]

theorem decodeUnbounded_eq_complete (bytes : List UInt8) :
    decodeUnbounded bytes = (Prefixes.ofBytes bytes).complete
      (decodeOperands (Prefixes.ofBytes bytes) (bytes.drop (Prefixes.ofBytes bytes).count)) := by
  simp only [decodeUnbounded]
  cases decodeOperands (Prefixes.ofBytes bytes) (bytes.drop (Prefixes.ofBytes bytes).count) <;> rfl

/-- Decoding looks at the lead through the prefixes it holds, and then at the rest alone. -/
theorem decodeUnbounded_lead {run rest : List UInt8} {escaped : Bool} (isRun : IsRun run)
    (stops : StopsAt escaped rest) :
    decodeUnbounded (run ++ escapeBytes escaped ++ rest) =
      (ofRun run escaped).complete (decodeOperands (ofRun run escaped) rest) := by
  rw [decodeUnbounded_eq_complete, ofBytes_lead isRun stops, drop_lead]

end X86Length
