import ModalHost.MessagePack.Packed
import ModalHost.Apps.Desk
import ModalHost.Session.Entry
import ModalHost.Main
import ModalHost.Proofs.Attribution
import ModalHost.Proofs.Representation
import ModalHost.Proofs.Outcome
import ModalHost.Proofs.Reopening
import ModalHost.Proofs.Ledger.Basic
import ModalHost.Proofs.Ledger.Mooring
import ModalHost.Proofs.Ledger.Track
import ModalHost.Proofs.Ledger.Runs
import ModalHost.Proofs.Ledger.Thread
import ModalHost.Proofs.Ledger.Passages
import ModalHost.Proofs.Ledger.Balance
import ModalHost.Proofs.Ledger.Overlay
import ModalHost.Proofs.Counting
import ModalHost.Proofs.Release
import ModalHost.Proofs.Lane.Basic
import ModalHost.Proofs.Lane.Courses
import ModalHost.Proofs.Lane.Strands
import ModalHost.Proofs.Lane.Runs
import ModalHost.Proofs.Lane.Moments
import ModalHost.Proofs.Lane.Shutting
import ModalHost.Proofs.Resolution
import ModalHost.Proofs.Stranding
import ModalHost.Proofs.Ground.Tree
import ModalHost.Proofs.Ground.Basic
import ModalHost.Proofs.Ground.Track
import ModalHost.Proofs.Ground.Runs
import ModalHost.Proofs.Moments
import ModalHost.Proofs.Strand.Standstill
import ModalHost.Proofs.Cancellation
import ModalHost.Proofs.Orphans
import ModalHost.Proofs.MessagePack.Utf8
import ModalHost.Proofs.MessagePack.Scalars
import ModalHost.Proofs.MessagePack.Records
import ModalHost.Proofs.MessagePack.RoundTrip
import ModalHost.Proofs.MessagePack.Steady
import ModalHost.Proofs.MessagePack.Truncation
import ModalHost.Proofs.MessagePack.Tolerance
import ModalHost.Proofs.Apps.History
import ModalHost.Proofs.Apps.Order
import ModalHost.Proofs.Text.Lowercase
import ModalHost.Proofs.Text.Lines
import ModalHost.Proofs.Text.Trimming
import ModalHost.Proofs.Text.Utf8
import ModalHost.Proofs.Json.Grammar
import ModalHost.Proofs.Json.Strings
import ModalHost.Proofs.Json.Numbers
import ModalHost.Proofs.Json.Values
import ModalHost.Proofs.Json.DoubleRange
import ModalHost.Proofs.Apps.ScanOrder
import ModalHost.Proofs.Apps.PackageLines
import ModalHost.Proofs.Apps.Recommending
import ModalHost.Proofs.Apps.EnabledKeys
import ModalHost.Proofs.Apps.Finding
import ModalHost.Proofs.Follow.Sync
import ModalHost.Proofs.Terminal.Answer
import ModalHost.Proofs.Terminal.Listing
import ModalHost.Proofs.Progress
import ModalHost.Proofs.FirstAnswer
import ModalHost.Proofs.Restoration
import ModalHost.Proofs.Independence
import ModalHost.Proofs.Withdrawal
import ModalHost.Proofs.SoleCall
import ModalHost.Proofs.Quiescence
import ModalHost.Proofs.Settling
