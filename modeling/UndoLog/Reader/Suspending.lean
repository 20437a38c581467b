import UndoLog.Reader.Call
import UndoLog.Scan.Future

/-!
# Readers whose scans are polled

A reader over a storage that suspends makes the same calls as any other. A scan can be polled a few
times and dropped; the reader then stands where it stood.

UndoJournal specification: sections 5.7 and 6.
-/

namespace UndoLog

/-- A call that is polled up to a number of times, and dropped if it is not ready then. -/
structure PolledCall where
  call : ReaderCall
  polls : Nat
  deriving DecidableEq, Repr

namespace Reader

variable {σ : Type} [Storage σ]

/-- Polls a task up to `polls` times. If it is ready the reader moves as after any scan, and else
the scan is dropped and the position stays (specification, sections 5.5 and 5.7). -/
def pollTask (pace : ReadPace) (polls : Nat) (task : ScanTask) (r : Reader σ) :
    Option (Except JournalError (Option Record)) × Reader σ :=
  match ScanFuture.pollTimes pace polls (.unstarted task) r.storage with
  | (.pending _, storage) => (none, { r with storage })
  | (.ready result, storage) =>
    let (result, r) := r.commit (result, storage)
    (some result, r)

/-- Polls a scan forward from the position. -/
def pollForward (pace : ReadPace) (polls targetLength : Nat) (r : Reader σ) :
    Option (Except JournalError (Option Record)) × Reader σ :=
  r.pollTask pace polls (r.forwardTask targetLength)

/-- Polls a scan backward from the position. -/
def pollBackward (pace : ReadPace) (polls : Nat) (r : Reader σ) :
    Option (Except JournalError (Option Record)) × Reader σ :=
  r.pollTask pace polls r.backwardTask

/-- Polls a call that is no scan. It is pending on the first `delay` polls and carried out on the
next. -/
def pollPlain (delay polls : Nat) (call : ReaderCall) (r : Reader σ) :
    Option ReaderAnswer × Reader σ :=
  if polls ≤ delay then (none, r)
  else
    let (answer, r) := r.perform call
    (some answer, r)

/-- Polls a call up to `polls` times. Sizes are told on the first poll and reads are made as the
storage has them; a call that is not ready is dropped. -/
def pollCall (pace : ReadPace) (polls : Nat) (call : ReaderCall) (r : Reader σ) :
    Option ReaderAnswer × Reader σ :=
  match call with
  | .forward targetLength =>
    let (result?, r) := r.pollForward pace polls targetLength
    (result?.map .next, r)
  | .backward =>
    let (result?, r) := r.pollBackward pace polls
    (result?.map .next, r)
  | .seek position => r.pollPlain 0 polls (.seek position)
  | .seekEnd => r.pollPlain 0 polls .seekEnd
  | .payload record => r.pollPlain pace.delay polls (.payload record)

end Reader
end UndoLog
