import X86Length.DecodeError
import X86Length.Word

/-! # Guarded access

A machine finds bytes by their index, cuts slices at their ends and counts in words of 64 bits.
None of this has an answer for every argument, and where it has none the machine cannot go on.
Here each such access tests its argument and breaks off with a `Breach` if it has to, so that a run
without a breach is one in which every access was in order. -/

namespace X86Length.Guarded

/-- Why an access has no answer. -/
inductive Breach where
  -- An index or an end of a slice lies outside of the list.
  | outside
  -- A difference is below zero.
  | negative
  -- A sum does not fit in a word.
  | overflow
  deriving DecidableEq, Repr

/-- Why a guarded run ends early: it cannot go on, or it reports an error. -/
inductive Halt where
  | breach (breach : Breach)
  | error (error : DecodeError)
  deriving DecidableEq, Repr

/-! ## Accesses -/

variable {α β : Type}

/-- Report an error. -/
def report (address : UInt64) (fault : Fault) : Except Halt α :=
  .error (.error { address, fault })

/-- The element at an index. -/
def element (list : List α) (index : Nat) : Except Halt α :=
  match list[index]? with
  | some found => .ok found
  | none => .error (.breach .outside)

/-- The elements from an index on. -/
def sliceFrom (list : List α) (start : Nat) : Except Halt (List α) :=
  if start ≤ list.length then .ok (list.drop start) else .error (.breach .outside)

/-- The elements from an index on and in front of another. -/
def slice (list : List α) (start stop : Nat) : Except Halt (List α) :=
  if start ≤ stop ∧ stop ≤ list.length then .ok ((list.drop start).take (stop - start))
  else .error (.breach .outside)

def sum (m n : Nat) : Except Halt Nat :=
  if m + n < wordLimit then .ok (m + n) else .error (.breach .overflow)

def difference (m n : Nat) : Except Halt Nat :=
  if n ≤ m then .ok (m - n) else .error (.breach .negative)

/-! ## Accesses in order -/

theorem ok_bind (found : α) (next : α → Except Halt β) : (Except.ok found >>= next) = next found :=
  rfl

theorem mapError_ok {ε ε' : Type} (change : ε → ε') (found : α) :
    (Except.ok found).mapError change = .ok found :=
  rfl

theorem mapError_error {ε ε' : Type} (change : ε → ε') (error : ε) :
    (Except.error error : Except ε α).mapError change = .error (change error) :=
  rfl

theorem element_of_some {list : List α} {index : Nat} {found : α}
    (inside : list[index]? = some found) : element list index = .ok found := by
  rw [element, inside]

theorem sliceFrom_of_le {list : List α} {start : Nat} (inside : start ≤ list.length) :
    sliceFrom list start = .ok (list.drop start) :=
  if_pos inside

theorem slice_of_le {list : List α} {start stop : Nat} (ordered : start ≤ stop)
    (inside : stop ≤ list.length) :
    slice list start stop = .ok ((list.drop start).take (stop - start)) :=
  if_pos ⟨ordered, inside⟩

theorem sum_of_lt {m n : Nat} (fits : m + n < wordLimit) : sum m n = .ok (m + n) :=
  if_pos fits

theorem difference_of_le {m n : Nat} (ordered : n ≤ m) : difference m n = .ok (m - n) :=
  if_pos ordered

end X86Length.Guarded
