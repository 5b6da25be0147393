import X86Length.Proofs.DeadEnds
import X86Length.Proofs.GuardedAccess

/-! # The decoder under guard

Here the decoder goes step by step, as a machine does it: it finds its way by offsets into the
window, looks opcodes up in tables of 256 entries, counts in words, and makes an error where it
arises, with the address that it was given.  Every access is guarded, so there are many places at
which it might have to break off.  It never does, and it ends as decoding does (`decodeLength_eq`).
Nor does it ever come to the branches that are there in case two tables disagree
(`decode_never_breaches`). -/

namespace X86Length.Guarded

open Opcode

def reported {α : Type} (address : UInt64) (verdict : Except Fault α) : Except Halt α :=
  verdict.mapError fun fault => .error { address, fault }

/-! ## The maps as tables -/

/-- The entries of a map, one for each byte value. -/
def table (escaped : Bool) : List Encoding :=
  (List.range 256).map fun n => Encoding.ofOpcode escaped (UInt8.ofNat n)

def lookUp (escaped : Bool) (opcode : UInt8) : Except Halt Encoding :=
  element (table escaped) opcode.toNat

theorem lookUp_eq (escaped : Bool) (opcode : UInt8) :
    lookUp escaped opcode = .ok (Encoding.ofOpcode escaped opcode) := by
  apply element_of_some
  have inTable := opcode.toNat_lt
  simp [table, List.getElem?_range inTable]

/-! ## The prefix phase -/

/-- What the prefix phase has found so far. -/
structure Tally where
  -- How many bytes it has taken, the escape included.
  count : Nat := 0
  escaped : Bool := false
  operand16 : Bool := false
  address16 : Bool := false
  rexW : Bool := false
  deriving DecidableEq, Repr

namespace Tally

/-- Take note of what a prefix byte says. -/
def note (byte : UInt8) (tally : Tally) : Tally :=
  if byte == Prefixes.escapeByte then { tally with escaped := true }
  else if byte == Prefixes.operandSizeByte then { tally with operand16 := true }
  else if byte == Prefixes.addressSizeByte then { tally with address16 := true }
  else if Prefixes.isRexWithW byte then { tally with rexW := true }
  else tally

/-- Go on with the prefix phase, up to the escape or the first byte that is no prefix. -/
def extend (tally : Tally) : List UInt8 → Except Halt Tally
  | [] => .ok tally
  | byte :: rest =>
    if tally.escaped then .ok tally
    else do
      let encoding ← lookUp false byte
      if encoding.category = .prefixByte then
        let count ← sum tally.count 1
        extend { tally.note byte with count } rest
      else .ok tally

/-- The number of prefix bytes without the escape. -/
def legacy (tally : Tally) : Except Halt Nat :=
  difference tally.count tally.escaped.toNat

/-- The number of bytes in an immediate of the operand size, from a table of four entries. -/
def wideImmediate (tally : Tally) (imm64 : Bool) : Except Halt Nat :=
  let wide := if imm64 then 8 else 4
  element [4, 2, wide, wide] (tally.operand16.toNat ||| tally.rexW.toNat <<< 1)

def ofPrefixes (found : Prefixes) : Tally where
  count := found.count
  escaped := found.escaped
  operand16 := found.operand16
  address16 := found.address16
  rexW := found.rexW

/-- The tally of a phase that goes on and finds more. -/
def join (tally : Tally) (found : Prefixes) : Tally where
  count := tally.count + found.count
  escaped := tally.escaped || found.escaped
  operand16 := tally.operand16 || found.operand16
  address16 := tally.address16 || found.address16
  rexW := tally.rexW || found.rexW

theorem join_nothing (tally : Tally) : tally.join {} = tally := by
  simp [join, Prefixes.count]

/-- A byte says one thing at most, so the order in which it is tried does not matter. -/
theorem join_note {byte : UInt8} (member : byte ∈ prefixBytes) (tally : Tally)
    (found : Prefixes) :
    ({ tally.note byte with count := tally.count + 1 } : Tally).join found =
      tally.join (found.push byte) := by
  have meanings : ∀ byte ∈ prefixBytes, (byte == Prefixes.escapeByte) = false ∧
      ((byte == Prefixes.operandSizeByte) && (byte == Prefixes.addressSizeByte)) = false ∧
      ((byte == Prefixes.operandSizeByte) && Prefixes.isRexWithW byte) = false ∧
      ((byte == Prefixes.addressSizeByte) && Prefixes.isRexWithW byte) = false := by
    decide +kernel
  obtain ⟨noEscape, oneSize, noWidth, noForm⟩ := meanings byte member
  rw [join, join, Prefixes.count_push, note, noEscape, Prefixes.push]
  cases operandSize : byte == Prefixes.operandSizeByte <;>
    cases addressSize : byte == Prefixes.addressSizeByte <;>
    cases rexW : Prefixes.isRexWithW byte <;>
    simp_all [Nat.add_assoc, Nat.add_comm]

theorem escaped_note {byte : UInt8} (noEscape : byte ≠ Prefixes.escapeByte) (tally : Tally) :
    (tally.note byte).escaped = tally.escaped := by
  rw [note, if_neg (by simpa using noEscape)]
  repeat' split
  all_goals rfl

theorem extend_of_escaped {tally : Tally} (escaped : tally.escaped = true) (bytes : List UInt8) :
    tally.extend bytes = .ok tally := by
  cases bytes with
  | nil => rfl
  | cons byte rest => rw [extend, if_pos escaped]

theorem extend_of_isPrefixByte {tally : Tally} {byte : UInt8} (plain : tally.escaped = false)
    (isPrefix : Prefixes.isPrefixByte byte = true) (fits : tally.count + 1 < wordLimit)
    (rest : List UInt8) :
    tally.extend (byte :: rest) =
      extend { tally.note byte with count := tally.count + 1 } rest := by
  have category : (Encoding.ofOpcode false byte).category = .prefixByte := by
    simpa [Prefixes.isPrefixByte] using isPrefix
  rw [extend, if_neg (by simp [plain]), lookUp_eq, ok_bind, if_pos category, sum_of_lt fits]
  rfl

theorem extend_of_not_isPrefixByte {tally : Tally} {byte : UInt8}
    (noPrefix : Prefixes.isPrefixByte byte = false) (rest : List UInt8) :
    tally.extend (byte :: rest) = .ok tally := by
  have category : (Encoding.ofOpcode false byte).category ≠ .prefixByte := by
    simpa [Prefixes.isPrefixByte] using noPrefix
  rw [extend]
  split
  · rfl
  · rw [lookUp_eq, ok_bind, if_neg category]

theorem extend_eq_join {tally : Tally} {bytes : List UInt8} (plain : tally.escaped = false)
    (fits : tally.count + bytes.length < wordLimit) :
    tally.extend bytes = .ok (tally.join (Prefixes.ofBytes bytes)) := by
  -- The phase goes on from any tally without the escape, and only its count may grow too large.
  induction bytes generalizing tally with
  | nil => rw [extend, Prefixes.ofBytes, join_nothing]
  | cons byte rest ih =>
    rw [List.length_cons] at fits
    by_cases isEscape : byte = Prefixes.escapeByte
    · subst isEscape
      rw [extend_of_isPrefixByte plain rfl (by omega), extend_of_escaped rfl,
        Prefixes.ofBytes_escape]
      simp [join, note, Prefixes.count, plain]
    · by_cases member : byte ∈ prefixBytes
      · have isPrefix := (Prefixes.isPrefixByte_iff byte).mpr (.inr member)
        rw [extend_of_isPrefixByte plain isPrefix (by omega), Prefixes.ofBytes_cons_of_mem member,
          ← join_note member]
        apply ih
        · exact (escaped_note isEscape tally).trans plain
        · show tally.count + 1 + rest.length < wordLimit
          omega
      · have noPrefix := (Prefixes.isPrefixByte_eq_false_iff byte).mpr ⟨isEscape, member⟩
        rw [extend_of_not_isPrefixByte noPrefix, Prefixes.ofBytes_opcode noPrefix, join_nothing]

theorem extend_eq {bytes : List UInt8} (fits : bytes.length < wordLimit) :
    extend {} bytes = .ok (ofPrefixes (Prefixes.ofBytes bytes)) := by
  rw [extend_eq_join rfl (by simpa using fits)]
  simp [join, ofPrefixes]

theorem legacy_ofPrefixes (found : Prefixes) : (ofPrefixes found).legacy = .ok found.legacy := by
  have ordered : found.escaped.toNat ≤ found.count := Nat.le_add_left _ _
  simp only [legacy, ofPrefixes]
  rw [difference_of_le ordered, Prefixes.count, Nat.add_sub_cancel]

theorem wideImmediate_ofPrefixes (found : Prefixes) (imm64 : Bool) :
    (ofPrefixes found).wideImmediate imm64 = .ok (found.wideImmediate imm64) := by
  simp only [wideImmediate, ofPrefixes, Prefixes.wideImmediate]
  cases found.operand16 <;> cases found.rexW <;> cases imm64 <;> rfl

end Tally

/-! ## The opcode -/

/-- What the selector selects, where the opcode is the first of the bytes and stands at an offset
    in the window. -/
def resolve (address : UInt64) (escaped : Bool) (offset : Nat) (bytes : List UInt8) :
    Except Halt Selection := do
  let opcode ← element bytes 0
  match bytes[1]? with
  | none =>
    let needed ← sum offset 2
    let available ← sum offset bytes.length
    report address (.truncated needed available)
  | some selector =>
    match if escaped then selectEscaped opcode selector else selectPlain opcode selector with
    | .ok selection => .ok selection
    | .error fault => report address fault

theorem resolve_eq (address : UInt64) (escaped : Bool) {offset : Nat} (opcode : UInt8)
    {rest : List UInt8} (fits : offset + 2 < wordLimit) :
    resolve address escaped offset (opcode :: rest) =
      reported address ((select escaped opcode rest).mapError (Fault.shift offset)) := by
  cases rest with
  | nil =>
    have one : offset + [opcode].length < wordLimit := by
      rw [List.length_singleton]
      omega
    simp only [resolve, element, List.getElem?_cons_zero, List.getElem?_cons_succ,
      List.getElem?_nil, ok_bind, sum_of_lt fits, sum_of_lt one]
    rfl
  | cons selector rest =>
    have final := @final_of_select_cons escaped opcode selector rest
    simp only [select] at final ⊢
    simp only [resolve, element, List.getElem?_cons_zero, List.getElem?_cons_succ, ok_bind]
    cases selected : if escaped = true then selectEscaped opcode selector
        else selectPlain opcode selector with
    | ok selection => rfl
    | error fault =>
      rw [mapError_error, shift_of_final (final selected)]
      rfl

/-! ## The immediate -/

def immediateBytes (address : UInt64) (tally : Tally) (opcode : UInt8) (encoding : Encoding) :
    Except Halt Nat :=
  match encoding.category with
  | .invalid => report address (.invalidOpcode opcode tally.escaped)
  | .prefixByte => report address (.invalidEncoding prefixInOpcodePosition)
  | .noOperand | .modRM => .ok 0
  | .modRMImm8 | .imm8 => .ok 1
  | .modRMImmWide | .immWide => tally.wideImmediate encoding.imm64
  | .imm16 => .ok 2
  | .imm16Imm8 => .ok 3

theorem immediateBytes_of_valid {encoding : Encoding} (valid : encoding.category ≠ .invalid)
    (noPrefix : encoding.category ≠ .prefixByte) (address : UInt64) (found : Prefixes)
    (opcode : UInt8) :
    immediateBytes address (.ofPrefixes found) opcode encoding =
      .ok (encoding.category.immediateSize (found.wideImmediate encoding.imm64)) := by
  obtain ⟨category, imm64, bySelector⟩ := encoding
  cases category with
  | invalid => exact absurd rfl valid
  | prefixByte => exact absurd rfl noPrefix
  | modRMImmWide | immWide => exact Tally.wideImmediate_ofPrefixes found imm64
  | _ => rfl

theorem immediateSize_le (category : Category) (found : Prefixes) (imm64 : Bool) :
    category.immediateSize (found.wideImmediate imm64) ≤ 8 := by
  have wide : found.wideImmediate imm64 ≤ 8 := by
    unfold Prefixes.wideImmediate
    split
    · split <;> omega
    · split <;> omega
  cases category <;> simp only [Category.immediateSize] <;> omega

/-! ## The addressing part -/

open Addressing (fitting)

/-- The size of the addressing part at the start of a window, in the form of 32 and 64-bit
    addresses. -/
def size32 (window : List UInt8) : Except Halt (Except Nat Nat) :=
  match window[0]? with
  | none => .ok (.error 1)
  | some byte =>
    let modRM := ModRM.ofByte byte
    if modRM.namesRegister then .ok (fitting window 1)
    else
      match modRM.mode with
      | 0 =>
        if modRM.hasSib then
          match window[1]? with
          | none => .ok (.error 2)
          | some byte =>
            let sib := Sib.ofByte byte
            .ok (fitting window (if sib.base.val == 5 && sib.index.val == 4 then 6 else 2))
        else .ok (fitting window (if modRM.rm.val == 5 then 5 else 1))
      | 1 => do
        let size ← sum 2 modRM.hasSib.toNat
        .ok (fitting window size)
      | _ => do
        let size ← sum 5 modRM.hasSib.toNat
        .ok (fitting window size)

theorem size32_eq (window : List UInt8) : size32 window = .ok (Addressing.size32 window) := by
  have word : 6 < wordLimit := by decide
  have isFive : ∀ field : Fin 8, (field.val == 5) = (field == 5) := by decide
  have isFour : ∀ field : Fin 8, (field.val == 4) = (field == 4) := by decide
  cases window with
  | nil => rfl
  | cons byte rest =>
    simp only [size32, Addressing.size32, List.getElem?_cons_zero, List.getElem?_cons_succ, isFive,
      isFour]
    generalize ModRM.ofByte byte = modRM
    have oneSib := Bool.toNat_le modRM.hasSib
    obtain ⟨mode, reg, rm⟩ := modRM
    have modes : ∀ mode : Fin 4, mode = 0 ∨ mode = 1 ∨ mode = 2 ∨ mode = 3 := by decide
    obtain rfl | rfl | rfl | rfl := modes mode
    · by_cases hasSib : rm = 4
      · cases rest with
        | nil => simp [ModRM.namesRegister, ModRM.hasSib, hasSib]
        | cons sib rest =>
          simp only [ModRM.namesRegister, ModRM.hasSib, hasSib, Sib.displacement,
            List.getElem?_cons_zero]
          cases (Sib.ofByte sib).base == 5 && (Sib.ofByte sib).index == 4 <;> rfl
      · simp only [ModRM.namesRegister, ModRM.hasSib, beq_eq_false_iff_ne.mpr hasSib,
          ModRM.displacement32]
        cases rm == 5 <;> rfl
    · show (sum 2 _ >>= fun size => .ok (fitting (byte :: rest) size)) = _
      rw [sum_of_lt (by omega), ok_bind]
      generalize ModRM.hasSib _ = hasSib at oneSib ⊢
      cases hasSib <;> rfl
    · show (sum 5 _ >>= fun size => .ok (fitting (byte :: rest) size)) = _
      rw [sum_of_lt (by omega), ok_bind]
      generalize ModRM.hasSib _ = hasSib at oneSib ⊢
      cases hasSib <;> rfl
    · rfl

def size (address16 : Bool) (window : List UInt8) : Except Halt (Except Nat Nat) :=
  if address16 then .ok (Addressing.size16 window) else size32 window

theorem size_eq (address16 : Bool) (window : List UInt8) :
    size address16 window = .ok (Addressing.size address16 window) := by
  cases address16 with
  | false => exact size32_eq window
  | true => rfl

/-- The number of bytes in the addressing part, which starts at an offset in the window. -/
def addressingBytes (address : UInt64) (tally : Tally) (category : Category)
    (window : List UInt8) (offset immediate : Nat) : Except Halt Nat :=
  if category.takesModRM then do
    let rest ← sliceFrom window offset
    let size ← size tally.address16 rest
    match size with
    | .ok size => .ok size
    | .error needed =>
      let reach ← sum offset needed
      let whole ← sum reach immediate
      report address (.truncated whole window.length)
  else .ok 0

theorem addressingBytes_eq {window : List UInt8} {offset immediate : Nat}
    (inside : offset ≤ window.length) (fits : offset + 6 + immediate < wordLimit)
    (address : UInt64) (found : Prefixes) (category : Category) :
    addressingBytes address (.ofPrefixes found) category window offset immediate =
      match addressingSize found category (window.drop offset) with
      | .ok size => .ok size
      | .error needed =>
        report address (.truncated (offset + needed + immediate) window.length) := by
  unfold addressingBytes addressingSize
  split
  · have few := Addressing.need_le found.address16 (window.drop offset)
    rw [sliceFrom_of_le inside, ok_bind, size_eq, ok_bind, Tally.ofPrefixes, Addressing.size_eq,
      fitting]
    by_cases enough :
        Addressing.need found.address16 (window.drop offset) ≤ (window.drop offset).length
    · rw [if_pos enough]
    · rw [if_neg enough]
      dsimp only
      rw [sum_of_lt (by omega), ok_bind, sum_of_lt (by omega), ok_bind]
  · rfl

theorem leastAddressing_le (prefixes : Prefixes) (category : Category) (window : List UInt8) :
    leastAddressing prefixes category window ≤ 6 := by
  unfold leastAddressing
  split
  · exact Addressing.need_le _ _
  · omega

/-! ## Behind the prefixes -/

def total (length : InstructionLength) : Except Halt Nat := do
  let opcode ← sum length.prefixes length.opcode
  let addressing ← sum opcode length.addressing
  sum addressing length.immediate

theorem total_of_lt {length : InstructionLength} (fits : length.total < wordLimit) :
    total length = .ok length.total := by
  unfold InstructionLength.total at fits ⊢
  rw [total, sum_of_lt (by omega), ok_bind, sum_of_lt (by omega), ok_bind, sum_of_lt (by omega)]

/-- The instruction with these parts, if it ends inside of the window.  The offset is that behind
    its opcode. -/
def enclose (address : UInt64) (window : List UInt8) (tally : Tally)
    (offset addressing immediate : Nat) : Except Halt InstructionLength := do
  let legacy ← tally.legacy
  let opcode ← difference offset legacy
  let length : InstructionLength := { prefixes := legacy, opcode, addressing, immediate }
  let whole ← total length
  if window.length < whole then report address (.truncated whole window.length)
  else .ok length

theorem enclose_eq {window : List UInt8} {found : Prefixes} {left : Nat}
    (size : window.length = found.count + left) (operands : Operands)
    (fits : found.count + operands.size < wordLimit) (address : UInt64) :
    enclose address window (.ofPrefixes found) (found.count + (1 + operands.extra))
        operands.addressing operands.immediate =
      reported address (found.complete
        (if operands.size ≤ left then .ok operands
        else .error (.truncated operands.size left))) := by
  have ordered : found.legacy ≤ found.count + (1 + operands.extra) := by
    rw [Prefixes.count]
    omega
  have opcode : found.count + (1 + operands.extra) - found.legacy =
      found.escaped.toNat + 1 + operands.extra := by
    rw [Prefixes.count]
    omega
  have whole := Operands.total_behind operands found
  rw [enclose, Tally.legacy_ofPrefixes, ok_bind, difference_of_le ordered, ok_bind, opcode]
  show (total (operands.behind found) >>= _) = _
  rw [total_of_lt (by omega), ok_bind]
  by_cases met : operands.size ≤ left
  · rw [if_pos met, if_neg (by omega)]
    rfl
  · rw [if_neg met, if_pos (by omega), whole, size]
    rfl

/-- The instruction whose opcode byte stands in the window behind the prefixes. -/
def measure (address : UInt64) (window : List UInt8) (tally : Tally) (opcode : UInt8)
    (selection : Selection) : Except Halt InstructionLength := do
  let step ← sum 1 selection.extra
  let offset ← sum tally.count step
  let immediate ← immediateBytes address tally opcode selection.encoding
  let addressing ←
    addressingBytes address tally selection.encoding.category window offset immediate
  enclose address window tally offset addressing immediate

/-- In a window that starts with the prefixes and the opcode, the offsets stay inside and the sums
    are small. -/
theorem measure_eq {window rest : List UInt8} {found : Prefixes} {opcode : UInt8}
    {selection : Selection} (short : window.length ≤ lengthLimit)
    (cut : window.drop found.count = opcode :: rest) (present : selection.extra ≤ rest.length)
    (address : UInt64) :
    measure address window (.ofPrefixes found) opcode selection =
      reported address (found.complete (X86Length.measure found opcode selection rest)) := by
  have room : lengthLimit + 100 < wordLimit := by decide
  have size : window.length = found.count + (1 + rest.length) := by
    have := congrArg List.length cut
    rw [List.length_drop, List.length_cons] at this
    omega
  have behind : window.drop (found.count + (1 + selection.extra)) = rest.drop selection.extra := by
    rw [← List.drop_drop, cut, Nat.add_comm, List.drop_succ_cons]
  have step : sum 1 selection.extra = .ok (1 + selection.extra) := sum_of_lt (by omega)
  have offset : sum (Tally.ofPrefixes found).count (1 + selection.extra) =
      .ok (found.count + (1 + selection.extra)) := by
    show sum found.count (1 + selection.extra) = _
    exact sum_of_lt (by omega)
  rw [measure, step, ok_bind, offset, ok_bind, X86Length.measure]
  by_cases invalid : selection.encoding.category = .invalid
  · rw [if_pos invalid, immediateBytes, invalid]
    rfl
  by_cases prefixByte : selection.encoding.category = .prefixByte
  · rw [if_neg invalid, if_pos prefixByte, immediateBytes, prefixByte]
    rfl
  have shortImmediate :=
    immediateSize_le selection.encoding.category found selection.encoding.imm64
  have shortAddressing :=
    leastAddressing_le found selection.encoding.category (rest.drop selection.extra)
  rw [if_neg invalid, if_neg prefixByte, immediateBytes_of_valid invalid prefixByte, ok_bind,
    addressingBytes_eq (by omega) (by omega), behind]
  dsimp only
  rw [addressingSize_eq, fitting]
  generalize selection.encoding.category.immediateSize
    (found.wideImmediate selection.encoding.imm64) = immediate at shortImmediate ⊢
  generalize leastAddressing found selection.encoding.category (rest.drop selection.extra) =
    addressing at shortAddressing ⊢
  -- The addressing part may end outside of the window, and so may the immediate behind it.
  by_cases fits : addressing ≤ (rest.drop selection.extra).length
  · let operands : Operands := { extra := selection.extra, addressing, immediate }
    have parts : operands.size = 1 + selection.extra + addressing + immediate := rfl
    rw [if_pos fits, ok_bind]
    exact enclose_eq size operands (by omega) address
  · have needed : found.count + (1 + selection.extra) + addressing + immediate =
        found.count + (1 + selection.extra + addressing + immediate) := by
      omega
    rw [if_neg fits]
    dsimp only
    rw [needed, size]
    rfl

/-! ## Whole instructions -/

def decodeWindow (address : UInt64) (window : List UInt8) : Except Halt InstructionLength := do
  let tally ← Tally.extend {} window
  match window[tally.count]? with
  | none =>
    let needed ← sum tally.count 1
    report address (.truncated needed window.length)
  | some opcode =>
    let encoding ← lookUp tally.escaped opcode
    if encoding.bySelector then
      let rest ← sliceFrom window tally.count
      let selection ← resolve address tally.escaped tally.count rest
      measure address window tally opcode selection
    else measure address window tally opcode { encoding }

theorem decodeWindow_eq {window : List UInt8} (short : window.length ≤ lengthLimit)
    (address : UInt64) :
    decodeWindow address window = reported address (decodeUnbounded window) := by
  have room : lengthLimit + 2 < wordLimit := by decide
  have inWindow := Prefixes.count_ofBytes_le window
  rw [decodeWindow, Tally.extend_eq (by omega), ok_bind, decodeUnbounded_eq_complete]
  generalize Prefixes.ofBytes window = found at inWindow ⊢
  show (match window[found.count]? with | none => _ | some opcode => _) = _
  cases cut : window.drop found.count with
  | nil =>
    have size : window.length = found.count := by
      have := List.drop_eq_nil_iff.mp cut
      omega
    have missing : window[found.count]? = none := List.getElem?_eq_none (by omega)
    rw [missing]
    show (sum found.count 1 >>= _) = _
    rw [sum_of_lt (by omega), ok_bind, size]
    rfl
  | cons opcode rest =>
    have there : window[found.count]? = some opcode := by
      have first := congrArg (·[0]?) cut
      simpa [List.getElem?_drop] using first
    rw [there]
    show (lookUp found.escaped opcode >>= _) = _
    rw [lookUp_eq, ok_bind, decodeOperands]
    cases bySelector : (Encoding.ofOpcode found.escaped opcode).bySelector with
    | false =>
      rw [settle_by_map bySelector, if_neg Bool.false_ne_true]
      exact measure_eq short cut (Nat.zero_le _) address
    | true =>
      rw [settle_by_selector bySelector, if_pos rfl]
      show (sliceFrom window found.count >>= _) = _
      rw [sliceFrom_of_le inWindow, ok_bind, cut]
      show (resolve address found.escaped found.count (opcode :: rest) >>= _) = _
      rw [resolve_eq address found.escaped opcode (by omega)]
      cases selected : select found.escaped opcode rest with
      | error fault => rfl
      | ok selection => exact measure_eq short cut (extra_le_of_select selected) address

def decodeLength (address : UInt64) (bytes : List UInt8) : Except Halt InstructionLength := do
  let window ← slice bytes 0 (min bytes.length lengthLimit)
  match decodeWindow address window with
  | .error (.error error) =>
    match error.fault with
    | .truncated needed _ =>
      if lengthLimit < needed then report address (.invalidEncoding tooLong)
      else .error (.error error)
    | _ => .error (.error error)
  | verdict => verdict

theorem decodeLength_eq (address : UInt64) (bytes : List UInt8) :
    decodeLength address bytes = (decodeAt address bytes).mapError Halt.error := by
  have window : slice bytes 0 (min bytes.length lengthLimit) = .ok (bytes.take lengthLimit) := by
    rw [slice_of_le (Nat.zero_le _) (Nat.min_le_left _ _), List.drop_zero, Nat.sub_zero,
      Nat.min_comm, ← List.take_eq_take_min]
  rw [decodeLength, window, ok_bind, decodeWindow_eq (List.length_take_le _ _), decodeAt, decode]
  cases decodeUnbounded (bytes.take lengthLimit) with
  | ok length => rfl
  | error fault =>
    cases fault with
    | truncated needed available =>
      simp only [reported, mapError_error, Fault.limited]
      split <;> rfl
    | _ => rfl

theorem total_of_decode {bytes : List UInt8} {length : InstructionLength}
    (decoded : decode bytes = .ok length) : total length = .ok length.total := by
  have inLimit := (decode_ok_bounds decoded).2.2
  have inWord : lengthLimit < wordLimit := by decide
  exact total_of_lt (by omega)

/-- The size of the instruction at the start of a byte list as a signed number of 32 bits, to which
    the total is cut down. -/
def sizeOrInvalid (bytes : List UInt8) : Except Halt Int32 :=
  match decodeLength 0 bytes with
  | .ok length => do
    let whole ← total length
    .ok (Int32.ofNat whole)
  | .error (.error _) => .ok (-1)
  | .error (.breach breach) => .error (.breach breach)

theorem sizeOrInvalid_eq (bytes : List UInt8) :
    (sizeOrInvalid bytes).map Int32.toInt = .ok (X86Length.sizeOrInvalid bytes) := by
  rw [sizeOrInvalid, decodeLength_eq, decodeAt, X86Length.sizeOrInvalid]
  cases decoded : decode bytes with
  | error fault => rfl
  | ok length =>
    have inLimit := (decode_ok_bounds decoded).2.2
    have inRange : lengthLimit < 2 ^ 31 := by decide
    show (((total length >>= fun whole => .ok (Int32.ofNat whole)) : Except Halt Int32).map _) = _
    rw [total_of_decode decoded, ok_bind]
    show Except.ok (Int32.ofNat length.total).toInt = _
    rw [Int32.toInt_ofNat_of_lt (by omega)]

/-! ## Dead branches -/

theorem estimate_ne_invalidEncoding (bytes : List UInt8) (reason : String) :
    estimate bytes ≠ .error (.invalidEncoding reason) := by
  intro fails
  obtain ⟨place, dead⟩ := estimate_error_iff.mp fails
  cases dead

theorem decode_ne_prefixInOpcodePosition (bytes : List UInt8) :
    decode bytes ≠ .error (.invalidEncoding prefixInOpcodePosition) := by
  intro fails
  rw [decode_eq] at fails
  rcases verdict_error fails with fails | overlong | truncated
  · exact estimate_ne_invalidEncoding _ _ fails
  · exact absurd overlong (by decide)
  · cases truncated

theorem select_ne_invalidOpcode {escaped : Bool} {opcode : UInt8}
    (bySelector : (Encoding.ofOpcode escaped opcode).bySelector = true) (rest : List UInt8)
    (named : UInt8) (inEscaped : Bool) :
    select escaped opcode rest ≠ .error (.invalidOpcode named inEscaped) := by
  intro fails
  cases rest with
  | nil => cases fails
  | cons selector rest =>
    obtain ⟨-, -, same⟩ := (select_error_iff bySelector selector rest).mp fails
    cases same

/-- No bytes at any address make the decoder break off: every index and slice is inside, every
    difference has a sign, every sum fits in a word, and the size of an instruction in 32 bits.  No
    prefix byte is ever found in the place of an opcode.  An opcode that its map leaves open is one
    that the selector settles, and never as a prefix byte or as no opcode at all. -/
theorem decode_never_breaches (address : UInt64) (bytes : List UInt8) :
    decodeLength address bytes = (decodeAt address bytes).mapError Halt.error ∧
    (sizeOrInvalid bytes).map Int32.toInt = .ok (X86Length.sizeOrInvalid bytes) ∧
    (∀ place, decodeAt address bytes ≠
      .error { address := place, fault := .invalidEncoding prefixInOpcodePosition }) ∧
    ∀ escaped opcode, (Encoding.ofOpcode escaped opcode).bySelector = true → ∀ rest,
      (∀ named inEscaped, select escaped opcode rest ≠ .error (.invalidOpcode named inEscaped)) ∧
      ∀ selection, select escaped opcode rest = .ok selection →
        selection.encoding.category ≠ .invalid ∧ selection.encoding.category ≠ .prefixByte := by
  refine ⟨decodeLength_eq address bytes, sizeOrInvalid_eq bytes, ?_, ?_⟩
  · intro place fails
    exact decode_ne_prefixInOpcodePosition bytes (decodeAt_error_iff.mp fails).1
  · intro escaped opcode bySelector rest
    constructor
    · exact select_ne_invalidOpcode bySelector rest
    · intro selection selected
      exact ne_of_takesModRM (takesModRM_of_select selected)

/-- The byte behind the opcode settles it, and it takes an immediate. -/
theorem decode_never_breaches_group :
    decodeLength 0x1000 [0x66, 0xF6, 0xC0, 0x01] = .ok ⟨1, 1, 1, 1⟩ ∧
      (sizeOrInvalid [0x66, 0xF6, 0xC0, 0x01]).map Int32.toInt = .ok 4 ∧
      (Encoding.ofOpcode false 0xF6).bySelector = true ∧
      ∃ selection, select false 0xF6 [0xC0, 0x01] = .ok selection ∧
        selection.encoding.category ≠ .invalid ∧ selection.encoding.category ≠ .prefixByte := by
  have bySelector : (Encoding.ofOpcode false 0xF6).bySelector = true := rfl
  obtain ⟨same, size, -, settled⟩ := decode_never_breaches 0x1000 [0x66, 0xF6, 0xC0, 0x01]
  exact ⟨same, size, bySelector, _, rfl, (settled false 0xF6 bySelector [0xC0, 0x01]).2 _ rfl⟩

/-- The guards do test: without an opcode byte there is nothing to resolve. -/
example : resolve 0x10 true 1 [] = .error (.breach .outside) := rfl

end X86Length.Guarded
