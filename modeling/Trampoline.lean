import Trampoline.Bytes.Lemmas
import Trampoline.Lists
import Trampoline.Width.Lemmas
import Trampoline.Scalar.Lemmas
import Trampoline.IntegerType
import Trampoline.Memory
import Trampoline.Rounding.Lemmas
import Trampoline.Session
import Trampoline.Instruction.Decoding
import Trampoline.Machine
import Trampoline.Machine.Execution
import Trampoline.Machine.Lemmas
import Trampoline.Proofs.Decoding
import Trampoline.Proofs.Execution
import Trampoline.Proofs.Linking
import Trampoline.Proofs.Frame
import Trampoline.Proofs.Arguments
import Trampoline.Machine.Result
import Trampoline.Proofs.StubExecution
import Trampoline.Proofs.NativeCalls
import Trampoline.Arena.Lemmas
import Trampoline.Dispatch.History
import Trampoline.Proofs.Dispatch
import Trampoline.Proofs.Layout
import Trampoline.Compiler.History
import Trampoline.Proofs.Batches
import Trampoline.Proofs.Publication
import Trampoline.Proofs.Attachment
import Trampoline.Instruction.Listing
import Trampoline.Proofs.Fixups
import Trampoline.Proofs.Listing
import Trampoline.CallShape.Lemmas
import Trampoline.Proofs.Refusals
import Trampoline.Proofs.Image
import Trampoline.Linkage.History
import Trampoline.Proofs.Compilers
import Trampoline.UnitIndex.Lemmas
import Trampoline.UnitIndex.History
import Trampoline.Session.History
import Trampoline.Proofs.Units
import Trampoline.Proofs.Changes
import Trampoline.Proofs.Lifetimes
import Trampoline.Proofs.Owners
import Trampoline.Dispatch.Race
import Trampoline.Proofs.Races
import Trampoline.Memory.Lemmas
import Trampoline.Proofs.Accesses
import Trampoline.Proofs.RoundTrips
import Trampoline.Proofs.Templates
import Trampoline.Linkage.Dialogue
import Trampoline.Proofs.Selection
import Trampoline.Proofs.SignedMoves
import Trampoline.Proofs.Sweeps
import Trampoline.Proofs.Addresses
import Trampoline.Region.Words
import Trampoline.CallShape.Verdict
import Trampoline.CallShape.Descriptor
import Trampoline.Proofs.Sizing
import Trampoline.Proofs.Eligibility
import Trampoline.Proofs.Longs
import Trampoline.Proofs.Descriptors
import Trampoline.System
import Trampoline.Proofs.Commitment
import Trampoline.Proofs.SignatureTexts
import Trampoline.Proofs.Widening
import Trampoline.Proofs.Holders
