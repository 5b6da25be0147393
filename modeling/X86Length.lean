import X86Length.Main
import X86Length.Proofs.Growth
import X86Length.Proofs.Completion
import X86Length.Proofs.Refill
import X86Length.Proofs.OpcodeMaps
import X86Length.Proofs.Grammar
import X86Length.Proofs.DeadEnds
import X86Length.Proofs.Limit
import X86Length.Proofs.Incremental
import X86Length.Proofs.Concatenation
import X86Length.Proofs.LeadingRun
import X86Length.Proofs.SpacedHex
import X86Length.Proofs.Extract
import X86Length.Proofs.NeutralPrefix
import X86Length.Proofs.GuardedDecoder
import X86Length.Proofs.PrefixPhase
import X86Length.Proofs.GuardedListing
import X86Length.Proofs.GuardedWalks
import X86Length.Proofs.Relocation
import X86Length.Proofs.PrefixFlags
import X86Length.Proofs.HexGrammar
import X86Length.Proofs.GuardedHexBytes
import X86Length.Proofs.Covering
import X86Length.Proofs.Numerals
import X86Length.Proofs.JsonGrammar
import X86Length.Proofs.JsonText
import X86Length.Proofs.PrintedListing
import X86Length.Proofs.NumberGrammar
import X86Length.Proofs.ErrorMessages
import X86Length.Proofs.FileWarning
import X86Length.Proofs.JsonReading
import X86Length.Proofs.JsonRecords
import X86Length.Proofs.WrittenForms
