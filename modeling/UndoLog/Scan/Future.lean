import UndoLog.Scan.Run

/-!
# Scans that are polled

A scan over a storage whose reads suspend is polled until it is ready. Dropped before that, it has
made some calls on the storage and nothing else.

UndoJournal specification: sections 5.5 and 6.
-/

namespace UndoLog

/-- Whether a read is made on its first poll, or is pending then and made on its second. -/
inductive ReadPace
  | immediate
  | suspending
  deriving DecidableEq, Repr

/-- The number of polls on which a read is pending. -/
def ReadPace.delay : ReadPace → Nat
  | .immediate => 0
  | .suspending => 1

/-- A scan that is not ready: never polled, or waiting for a read that was polled once. -/
inductive ScanFuture
  | unstarted (task : ScanTask)
  | reading (scan : Scan)

/-- The result of a poll. -/
inductive Poll
  | ready (result : ScanResult)
  | pending (future : ScanFuture)

namespace Poll

/-- The poll of a scan that has come so far: over reads that suspend it waits for the next one, and
else it goes on to its end. -/
def ofProgress {σ : Type} [Storage σ] (pace : ReadPace) : ScanProgress × σ → Poll × σ
  | (.over result, storage) => (.ready result, storage)
  | (.waiting scan, storage) =>
    match pace with
    | .suspending => (.pending (.reading scan), storage)
    | .immediate =>
      let (result, storage) := scan.run storage
      (.ready result, storage)

end Poll

namespace ScanFuture

variable {σ : Type} [Storage σ]

/-- Polls a scan once. -/
def poll (pace : ReadPace) (future : ScanFuture) (storage : σ) : Poll × σ :=
  match future with
  | .unstarted task => Poll.ofProgress pace (task.begin storage)
  | .reading scan => Poll.ofProgress pace (scan.readOnce storage)

/-- Polls a scan up to `polls` times, while it is not ready. -/
def pollTimes (pace : ReadPace) : (polls : Nat) → (future : ScanFuture) → (storage : σ) → Poll × σ
  | 0, future, storage => (.pending future, storage)
  | polls + 1, future, storage =>
    match future.poll pace storage with
    | (.ready result, storage) => (.ready result, storage)
    | (.pending future, storage) => pollTimes pace polls future storage

end ScanFuture
end UndoLog
