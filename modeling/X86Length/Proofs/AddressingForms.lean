import X86Length.Addressing
import X86Length.Opcode.ByteRange

/-! # The forms of an addressing part

`Form16` and `Form32` list the complete addressing parts, one constructor for each way to combine
a ModR/M byte, a SIB byte and a displacement, by the bits of these bytes.  Beside them stands
`need`, the least number of bytes that a window allows: measuring is comparing `need` with the bytes
at hand (`size_eq`), the need is `Settling` as the window grows (`settling_need`), and the complete
forms are the windows that meet it exactly (`form_iff`).  So a size is settled by the bytes that it
counts, and what a window lacks is neither less nor more than it asks for (`size_exact`). -/

namespace X86Length.Addressing

/-! ## The bits of a byte -/

/-- Bits 7 and 6: the mode of a ModR/M byte, the scale of a SIB byte. -/
def topBits (byte : UInt8) : Fin 4 :=
  (byte.toBitVec.extractLsb 7 6).toFin

/-- Bits 5 to 3: the `reg` field of a ModR/M byte, the index of a SIB byte. -/
def middleBits (byte : UInt8) : Fin 8 :=
  (byte.toBitVec.extractLsb 5 3).toFin

/-- Bits 2 to 0: the `rm` field of a ModR/M byte, the base of a SIB byte. -/
def lowBits (byte : UInt8) : Fin 8 :=
  (byte.toBitVec.extractLsb 2 0).toFin

theorem modRM_ofByte (byte : UInt8) :
    ModRM.ofByte byte = { mode := topBits byte, reg := middleBits byte, rm := lowBits byte } := by
  revert byte
  apply Opcode.forall_byte
  decide +kernel

theorem sib_ofByte (byte : UInt8) :
    Sib.ofByte byte =
      { scale := topBits byte, index := middleBits byte, base := lowBits byte } := by
  revert byte
  apply Opcode.forall_byte
  decide +kernel

/-! ## Complete forms -/

/-- The complete addressing parts with 16-bit addresses. -/
inductive Form16 : List UInt8 → Prop where
  | register {modRM : UInt8} (mode : topBits modRM = 3) : Form16 [modRM]
  | indirect {modRM : UInt8} (mode : topBits modRM = 0) (rm : lowBits modRM ≠ 6) : Form16 [modRM]
  | absolute {modRM : UInt8} {displacement : List UInt8} (mode : topBits modRM = 0)
      (rm : lowBits modRM = 6) (length : displacement.length = 2) : Form16 (modRM :: displacement)
  | displaced8 {modRM : UInt8} {displacement : List UInt8} (mode : topBits modRM = 1)
      (length : displacement.length = 1) : Form16 (modRM :: displacement)
  | displaced16 {modRM : UInt8} {displacement : List UInt8} (mode : topBits modRM = 2)
      (length : displacement.length = 2) : Form16 (modRM :: displacement)

/-- The complete addressing parts with 32 and 64-bit addresses. -/
inductive Form32 : List UInt8 → Prop where
  | register {modRM : UInt8} (mode : topBits modRM = 3) : Form32 [modRM]
  | indirect {modRM : UInt8} (mode : topBits modRM = 0) (noSib : lowBits modRM ≠ 4)
      (noRelative : lowBits modRM ≠ 5) : Form32 [modRM]
  | relative {modRM : UInt8} {displacement : List UInt8} (mode : topBits modRM = 0)
      (rm : lowBits modRM = 5) (length : displacement.length = 4) : Form32 (modRM :: displacement)
  | indexed {modRM sib : UInt8} (mode : topBits modRM = 0) (rm : lowBits modRM = 4)
      (register : ¬ (lowBits sib = 5 ∧ middleBits sib = 4)) : Form32 [modRM, sib]
  | absolute {modRM sib : UInt8} {displacement : List UInt8} (mode : topBits modRM = 0)
      (rm : lowBits modRM = 4) (base : lowBits sib = 5) (index : middleBits sib = 4)
      (length : displacement.length = 4) : Form32 (modRM :: sib :: displacement)
  | displaced8 {modRM : UInt8} {displacement : List UInt8} (mode : topBits modRM = 1)
      (noSib : lowBits modRM ≠ 4) (length : displacement.length = 1) :
      Form32 (modRM :: displacement)
  | indexed8 {modRM sib : UInt8} {displacement : List UInt8} (mode : topBits modRM = 1)
      (rm : lowBits modRM = 4) (length : displacement.length = 1) :
      Form32 (modRM :: sib :: displacement)
  | displaced32 {modRM : UInt8} {displacement : List UInt8} (mode : topBits modRM = 2)
      (noSib : lowBits modRM ≠ 4) (length : displacement.length = 4) :
      Form32 (modRM :: displacement)
  | indexed32 {modRM sib : UInt8} {displacement : List UInt8} (mode : topBits modRM = 2)
      (rm : lowBits modRM = 4) (length : displacement.length = 4) :
      Form32 (modRM :: sib :: displacement)

def Form (address16 : Bool) (bytes : List UInt8) : Prop :=
  if address16 then Form16 bytes else Form32 bytes

/-! ## What a window needs -/

/-- Does the displacement depend on the SIB byte? -/
def sibDecides (modRM : ModRM) : Bool :=
  modRM.hasSib && modRM.mode.val == 0

def need16 : List UInt8 → Nat
  | [] => 1
  | byte :: _ => 1 + (ModRM.ofByte byte).displacement16

def need32 : List UInt8 → Nat
  | [] => 1
  | byte :: rest =>
    let modRM := ModRM.ofByte byte
    if sibDecides modRM then 2 + (rest.head?.map fun sib => (Sib.ofByte sib).displacement).getD 0
    else 1 + modRM.hasSib.toNat + modRM.displacement32

/-- The least size of an addressing part with the bytes of a window. -/
def need (address16 : Bool) (window : List UInt8) : Nat :=
  if address16 then need16 window else need32 window

theorem sibDecides_eq (modRM : ModRM) : sibDecides modRM = (modRM.hasSib && modRM.mode == 0) := by
  have : (modRM.mode.val == 0) = (modRM.mode == 0) := by grind
  rw [sibDecides, this]

theorem need32_of_known {byte : UInt8} (known : sibDecides (ModRM.ofByte byte) = false)
    (rest : List UInt8) :
    need32 (byte :: rest) =
      1 + (ModRM.ofByte byte).hasSib.toNat + (ModRM.ofByte byte).displacement32 := by
  simp [need32, known]

theorem need32_of_no_sib {byte : UInt8} (decides : sibDecides (ModRM.ofByte byte) = true) :
    need32 [byte] = 2 := by
  simp [need32, decides]

theorem need32_of_sib {byte : UInt8} (decides : sibDecides (ModRM.ofByte byte) = true)
    (sib : UInt8) (rest : List UInt8) :
    need32 (byte :: sib :: rest) = 2 + (Sib.ofByte sib).displacement := by
  simp [need32, decides]

theorem size16_eq (window : List UInt8) : size16 window = fitting window (need16 window) := by
  cases window <;> rfl

theorem size32_eq (window : List UInt8) : size32 window = fitting window (need32 window) := by
  cases window with
  | nil => rfl
  | cons byte rest =>
    cases decides : sibDecides (ModRM.ofByte byte) with
    | false =>
      rw [need32_of_known decides]
      rw [sibDecides_eq] at decides
      simp [size32, decides]
    | true =>
      cases rest with
      | nil =>
        rw [need32_of_no_sib decides]
        rw [sibDecides_eq] at decides
        simp [size32, decides, fitting]
      | cons sib rest =>
        rw [need32_of_sib decides]
        rw [sibDecides_eq] at decides
        simp [size32, decides]

theorem size_eq (address16 : Bool) (window : List UInt8) :
    size address16 window = fitting window (need address16 window) := by
  cases address16
  · exact size32_eq window
  · exact size16_eq window

theorem displacement16_le (modRM : ModRM) : modRM.displacement16 ≤ 2 := by
  unfold ModRM.displacement16
  split
  · split <;> omega
  all_goals omega

theorem displacement32_le (modRM : ModRM) : modRM.displacement32 ≤ 4 := by
  unfold ModRM.displacement32
  split
  · split <;> omega
  all_goals omega

theorem sib_displacement_le (sib : Sib) : sib.displacement ≤ 4 := by
  unfold Sib.displacement
  split <;> omega

/-- A ModR/M byte, a SIB byte and four bytes of displacement are the most there can be. -/
theorem need_le (address16 : Bool) (window : List UInt8) : need address16 window ≤ 6 := by
  cases window with
  | nil => cases address16 <;> decide
  | cons byte rest =>
    cases address16 with
    | true =>
      have := displacement16_le (ModRM.ofByte byte)
      show 1 + (ModRM.ofByte byte).displacement16 ≤ 6
      omega
    | false =>
      show need32 (byte :: rest) ≤ 6
      cases decides : sibDecides (ModRM.ofByte byte) with
      | false =>
        have := displacement32_le (ModRM.ofByte byte)
        have := Bool.toNat_le (ModRM.ofByte byte).hasSib
        rw [need32_of_known decides]
        omega
      | true =>
        cases rest with
        | nil =>
          rw [need32_of_no_sib decides]
          omega
        | cons sib rest =>
          have := sib_displacement_le (Sib.ofByte sib)
          rw [need32_of_sib decides]
          omega

/-! ## Growing windows -/

/-- A need that a growing window never lowers, that is settled once it is met, and that some
    continuation meets. -/
structure Settling (need : List UInt8 → Nat) : Prop where
  mono : ∀ window more, need window ≤ need (window ++ more)
  append : ∀ window, need window ≤ window.length → ∀ more, need (window ++ more) = need window
  met : ∀ window, window.length < need window →
    ∃ more, (window ++ more).length = need window ∧ need (window ++ more) = need window

theorem settling_need16 : Settling need16 where
  mono window more := by
    cases window with
    | nil => cases more <;> simp [need16]
    | cons byte rest => exact Nat.le_refl _
  append window met more := by
    cases window with
    | nil => simp [need16] at met
    | cons byte rest => rfl
  met window unmet := by
    cases window with
    | nil => exact ⟨[0xC0], rfl, by decide⟩
    | cons byte rest =>
      refine ⟨List.replicate (need16 (byte :: rest) - (byte :: rest).length) 0, ?_, rfl⟩
      rw [List.length_append, List.length_replicate]
      omega

theorem need32_pos (window : List UInt8) : 0 < need32 window := by
  cases window with
  | nil => exact Nat.one_pos
  | cons byte rest =>
    simp only [need32]
    split <;> omega

theorem settling_need32 : Settling need32 where
  mono window more := by
    cases window with
    | nil => exact need32_pos more
    | cons byte rest =>
      cases decides : sibDecides (ModRM.ofByte byte) with
      | false => simp [need32_of_known decides]
      | true =>
        cases rest with
        | nil =>
          rw [need32_of_no_sib decides]
          cases more with
          | nil => simp [need32_of_no_sib decides]
          | cons sib more => simp [need32_of_sib decides]
        | cons sib rest => simp [need32_of_sib decides]
  append window met more := by
    cases window with
    | nil => simp [need32] at met
    | cons byte rest =>
      cases decides : sibDecides (ModRM.ofByte byte) with
      | false => simp [need32_of_known decides]
      | true =>
        cases rest with
        | nil => simp [need32_of_no_sib decides] at met
        | cons sib rest => simp [need32_of_sib decides]
  met window unmet := by
    cases window with
    | nil => exact ⟨[0xC0], rfl, by decide⟩
    | cons byte rest =>
      -- A SIB byte of zeros brings no displacement, so padding with zeros never raises the need.
      obtain ⟨missing, hmissing⟩ := Nat.exists_eq_add_of_lt unmet
      refine ⟨List.replicate (missing + 1) 0, ?_, ?_⟩
      · rw [List.length_append, List.length_replicate]
        omega
      · cases decides : sibDecides (ModRM.ofByte byte) with
        | false => simp [need32_of_known decides]
        | true =>
          cases rest with
          | nil =>
            rw [List.replicate_succ, need32_of_no_sib decides]
            exact need32_of_sib decides 0 _
          | cons sib rest => simp [need32_of_sib decides]

theorem settling_need (address16 : Bool) : Settling (need address16) := by
  cases address16
  · exact settling_need32
  · exact settling_need16

theorem need_pos (address16 : Bool) (window : List UInt8) : 0 < need address16 window := by
  calc 0 < need address16 [] := by cases address16 <;> decide
    _ ≤ need address16 ([] ++ window) := (settling_need address16).mono [] window

/-! ## Complete forms meet their need exactly -/

theorem form16_iff (bytes : List UInt8) : Form16 bytes ↔ need16 bytes = bytes.length := by
  constructor
  · intro form
    cases form <;> grind [need16, ModRM.displacement16, modRM_ofByte]
  · intro exactly
    cases bytes with
    | nil => simp [need16] at exactly
    | cons byte rest =>
      have length : (ModRM.ofByte byte).displacement16 = rest.length := by
        simp only [need16, List.length_cons] at exactly
        omega
      simp only [ModRM.displacement16, modRM_ofByte] at length
      split at length
      next mode =>
        split at length
        next rm => exact .absolute mode (by simpa using rm) length.symm
        next rm =>
          obtain rfl := List.length_eq_zero_iff.mp length.symm
          exact .indirect mode (by simpa using rm)
      next mode => exact .displaced8 mode length.symm
      next mode => exact .displaced16 mode length.symm
      next mode =>
        obtain rfl := List.length_eq_zero_iff.mp length.symm
        exact .register mode

theorem form32_of_no_sib {byte : UInt8} {rest : List UInt8}
    (noSib : (ModRM.ofByte byte).hasSib = false)
    (length : (ModRM.ofByte byte).displacement32 = rest.length) : Form32 (byte :: rest) := by
  have rm (mode : topBits byte ≠ 3) : lowBits byte ≠ 4 := by
    simpa [ModRM.hasSib, modRM_ofByte, mode] using noSib
  simp only [ModRM.displacement32, modRM_ofByte] at length
  split at length
  next mode =>
    split at length
    next relative => exact .relative mode (by simpa using relative) length.symm
    next notRelative =>
      obtain rfl := List.length_eq_zero_iff.mp length.symm
      exact .indirect mode (rm (by simp [mode])) (by simpa using notRelative)
  next mode => exact .displaced8 mode (rm (by simp [mode])) length.symm
  next mode => exact .displaced32 mode (rm (by simp [mode])) length.symm
  next mode =>
    obtain rfl := List.length_eq_zero_iff.mp length.symm
    exact .register mode

theorem form32_of_sib {byte sib : UInt8} {rest : List UInt8}
    (hasSib : (ModRM.ofByte byte).hasSib = true)
    (length : need32 (byte :: sib :: rest) = (byte :: sib :: rest).length) :
    Form32 (byte :: sib :: rest) := by
  obtain ⟨noRegister, rm⟩ : topBits byte ≠ 3 ∧ lowBits byte = 4 := by
    simpa [ModRM.hasSib, modRM_ofByte] using hasSib
  cases decides : sibDecides (ModRM.ofByte byte) with
  | true =>
    have mode : topBits byte = 0 := by
      rw [sibDecides_eq, hasSib, modRM_ofByte] at decides
      simpa using decides
    rw [need32_of_sib decides] at length
    simp only [Sib.displacement, sib_ofByte, List.length_cons] at length
    split at length
    next register =>
      obtain ⟨base, index⟩ : lowBits sib = 5 ∧ middleBits sib = 4 := by simpa using register
      exact .absolute mode rm base index (by omega)
    next register =>
      obtain rfl := List.length_eq_zero_iff.mp (show rest.length = 0 by omega)
      exact .indexed mode rm (by simpa using register)
  | false =>
    have noZero : topBits byte ≠ 0 := by
      rw [sibDecides_eq, hasSib, modRM_ofByte] at decides
      simpa using decides
    rw [need32_of_known decides, hasSib] at length
    simp only [ModRM.displacement32, modRM_ofByte, List.length_cons, Bool.toNat_true] at length
    split at length
    next mode => exact absurd mode noZero
    next mode => exact .indexed8 mode rm (by omega)
    next mode => exact .indexed32 mode rm (by omega)
    next mode => exact absurd mode noRegister

theorem form32_iff (bytes : List UInt8) : Form32 bytes ↔ need32 bytes = bytes.length := by
  constructor
  · intro form
    cases form <;>
      grind [need32, sibDecides, ModRM.hasSib, ModRM.displacement32, Sib.displacement,
        modRM_ofByte, sib_ofByte]
  · intro exactly
    cases bytes with
    | nil => simp [need32] at exactly
    | cons byte rest =>
      cases hasSib : (ModRM.ofByte byte).hasSib with
      | false =>
        have known : sibDecides (ModRM.ofByte byte) = false := by simp [sibDecides, hasSib]
        rw [need32_of_known known] at exactly
        simp only [hasSib, List.length_cons, Bool.toNat_false] at exactly
        exact form32_of_no_sib hasSib (by omega)
      | true =>
        cases rest with
        | nil =>
          simp only [need32, hasSib, List.length_cons, List.length_nil] at exactly
          split at exactly <;> simp at exactly
          omega
        | cons sib rest => exact form32_of_sib hasSib exactly

theorem form_iff (address16 : Bool) (bytes : List UInt8) :
    Form address16 bytes ↔ need address16 bytes = bytes.length := by
  cases address16
  · exact form32_iff bytes
  · exact form16_iff bytes

/-! ## Exact sizes and exact needs -/

theorem fitting_ok_iff {window : List UInt8} {least size : Nat} :
    fitting window least = .ok size ↔ least = size ∧ least ≤ window.length := by
  unfold fitting
  split <;> simp <;> omega

theorem fitting_error_iff {window : List UInt8} {least needed : Nat} :
    fitting window least = .error needed ↔ least = needed ∧ window.length < least := by
  unfold fitting
  split <;> simp <;> omega

/-- A need that is met depends only on the bytes that it asks for. -/
theorem Settling.congr {need : List UInt8 → Nat} (settling : Settling need)
    {window other : List UInt8} (met : need window ≤ window.length)
    (same : other.take (need window) = window.take (need window)) :
    need other = need window := by
  generalize lead : window.take (need window) = front at same
  have few : front.length = need window := by
    rw [← lead, List.length_take, Nat.min_eq_left met]
  -- The front asks for no more than the window does, so it meets its own need.
  have inFront : need front ≤ need window := by
    calc need front ≤ need (front ++ window.drop (need window)) := settling.mono front _
      _ = need window := by rw [← lead, List.take_append_drop]
  have settled := settling.append front (by omega)
  calc need other = need (front ++ other.drop (need window)) := by
        rw [← same, List.take_append_drop]
    _ = need (front ++ window.drop (need window)) := by rw [settled, settled]
    _ = need window := by rw [← lead, List.take_append_drop]

/-- A size that is found is exact: it is inside the window, and any window with the same bytes so
    far has it.  A need is exact as well: the window falls short of it, goes on falling short until
    it is met, and can be completed to an addressing part of just this size. -/
theorem size_exact (address16 : Bool) (window : List UInt8) :
    (∀ found, size address16 window = .ok found →
      1 ≤ found ∧ found ≤ window.length ∧
      ∀ other, other.take found = window.take found → size address16 other = .ok found) ∧
    ∀ needed, size address16 window = .error needed →
      window.length < needed ∧
      (∀ more, (window ++ more).length < needed →
        ∃ still, size address16 (window ++ more) = .error still) ∧
      ∃ more, (window ++ more).length = needed ∧ size address16 (window ++ more) = .ok needed := by
  have settling := settling_need address16
  simp only [size_eq, fitting_ok_iff, fitting_error_iff]
  constructor
  · rintro found ⟨rfl, met⟩
    refine ⟨need_pos address16 window, met, ?_⟩
    intro other same
    have sameNeed := settling.congr met same
    have sameLength := congrArg List.length same
    rw [List.length_take, List.length_take, Nat.min_eq_left met] at sameLength
    exact ⟨sameNeed, by omega⟩
  · rintro needed ⟨rfl, unmet⟩
    refine ⟨unmet, ?_, ?_⟩
    · intro more short
      have grows := settling.mono window more
      exact ⟨_, rfl, by omega⟩
    · obtain ⟨more, tight, sameNeed⟩ := settling.met window unmet
      exact ⟨more, tight, sameNeed, by omega⟩

/-- A ModR/M byte that leaves the size to a SIB byte asks for this byte alone.  With a SIB byte that
    names neither base nor index there are four more, whatever follows them. -/
theorem size_exact_sib :
    (size false [0x04] = .error 2 ∧
      ∃ more, ([0x04] ++ more).length = 2 ∧ size false ([0x04] ++ more) = .ok 2) ∧
    size false [0x04, 0x25, 0, 0, 0, 0] = .ok 6 ∧
      size false [0x04, 0x25, 0, 0, 0, 0, 0xC3] = .ok 6 := by
  have short : size false [0x04] = .error 2 := rfl
  have whole : size false [0x04, 0x25, 0, 0, 0, 0] = .ok 6 := rfl
  refine ⟨⟨short, ?_⟩, whole, ?_⟩
  · exact ((size_exact false [0x04]).2 2 short).2.2
  · exact ((size_exact false [0x04, 0x25, 0, 0, 0, 0]).1 6 whole).2.2 _ rfl

end X86Length.Addressing
