import UndoLog.Field.Canonical
import UndoLog.Field.Decoder
import UndoLog.Main
import UndoLog.Reader.Suspending
import UndoLog.Record.Canonical
import UndoLog.Simulation.Target
import UndoLog.Storage.Faulty
import UndoLog.Proofs.Scan.Memory
import UndoLog.Proofs.Record.Placed
import UndoLog.Proofs.Scan.Backward
import UndoLog.Proofs.Scan.Forward
import UndoLog.Proofs.Scan.Agreement
import UndoLog.Proofs.Journal.Grammar
import UndoLog.Proofs.Reader.Rollback
import UndoLog.Proofs.Report.Verification
import UndoLog.Proofs.Record.CutShort
import UndoLog.Proofs.Scan.CutShort
import UndoLog.Proofs.Writer
import UndoLog.Proofs.Simulation.Builder
import UndoLog.Proofs.Simulation.Target
import UndoLog.Proofs.Simulation.Run
import UndoLog.Proofs.Scan.Walk
import UndoLog.Proofs.Simulation.Recovery
import UndoLog.Proofs.Checksum
import UndoLog.Proofs.Scan.Relocated
import UndoLog.Proofs.Reader.Cursor
import UndoLog.Proofs.Journal.Torn
import UndoLog.Proofs.Writer.Session
import UndoLog.Proofs.Scan.Damaged
import UndoLog.Proofs.Journal.CutShort
import UndoLog.Proofs.Field.Stable
import UndoLog.Proofs.Reader.Polled
import UndoLog.Proofs.Record.Stable
import UndoLog.Proofs.Scan.Stable
import UndoLog.Proofs.Scan.Bounds
import UndoLog.Proofs.Reader.Faulted
import UndoLog.Proofs.Report.Listing
import UndoLog.Proofs.Writer.ReadBack
import UndoLog.Proofs.Scan.Unverified
import UndoLog.Proofs.Reader.Progress
import UndoLog.Proofs.Field.Sequence
import UndoLog.Proofs.Record.Bounded
import UndoLog.Proofs.Field.Atomic
import UndoLog.Proofs.Scan.Calls
import UndoLog.Proofs.Scan.Overflow
import UndoLog.Proofs.Storage.Buffered
import UndoLog.Proofs.Simulation.Lengths
import UndoLog.Proofs.Record.Header
