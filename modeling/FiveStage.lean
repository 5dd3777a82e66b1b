import FiveStage.CommandLine.Desk
import FiveStage.Machine.Run
import FiveStage.Machine.Sequential
import FiveStage.Main
import FiveStage.Proofs.Assembly.Accounts
import FiveStage.Proofs.Assembly.Agreement
import FiveStage.Proofs.Assembly.Landing
import FiveStage.Proofs.Assembly.Operands
import FiveStage.Proofs.Assembly.Redefinition
import FiveStage.Proofs.Assembly.Reformatting
import FiveStage.Proofs.Assembly.Reports
import FiveStage.Proofs.Assembly.SourceLine
import FiveStage.Proofs.Assembly.Tabulation
import FiveStage.Proofs.Assembly.Undefined
import FiveStage.Proofs.CommandLine.Listing
import FiveStage.Proofs.Instruction.Encoding
import FiveStage.Proofs.Json.Printing
import FiveStage.Proofs.Json.Record
import FiveStage.Proofs.Machine.Alignment
import FiveStage.Proofs.Machine.Foremost
import FiveStage.Proofs.Machine.Forward
import FiveStage.Proofs.Machine.Frame
import FiveStage.Proofs.Machine.Halting
import FiveStage.Proofs.Machine.Latches
import FiveStage.Proofs.Machine.Plain
import FiveStage.Proofs.Machine.Progress
import FiveStage.Proofs.Machine.Refinement
import FiveStage.Proofs.Machine.Residence
import FiveStage.Proofs.Session.Atomicity
import FiveStage.Proofs.Session.Budget
import FiveStage.Proofs.Session.Export
import FiveStage.Proofs.Session.Reformatting
import FiveStage.Proofs.Session.Refusal
import FiveStage.Proofs.Session.Running
import FiveStage.Proofs.Session.Safety
import FiveStage.Proofs.Session.Saving
import FiveStage.Proofs.Session.Tally
import FiveStage.Proofs.Session.Undo
import FiveStage.Proofs.Store.Ledger
import FiveStage.Proofs.Store.Recency
import FiveStage.Proofs.Store.Shelf
import FiveStage.Proofs.Token.Decimal
import FiveStage.Proofs.Token.Denotation
import FiveStage.Proofs.Token.Literal
import FiveStage.Proofs.Token.Target
import FiveStage.Proofs.Wire.Machine
import FiveStage.Proofs.Wire.Overlay
import FiveStage.Proofs.Wire.RoundTrip
import FiveStage.Session.Sharing
import FiveStage.Store.Failing
import FiveStage.Store.Ledger
import FiveStage.Store.Shelf
import FiveStage.Wire.Assembly
import FiveStage.Wire.Program
