import UndoLog.Storage.Memory

/-!
# Storage that fails on schedule

Bytes in memory behind a schedule of faults. The calls of each kind are counted from zero, failed
ones included, and those whose number is on the schedule fail and do nothing else.
-/

namespace UndoLog

/-- The numbers of the calls of each kind that fail, the error they fail with, and a size to tell in
place of the true one. -/
structure FaultPlan where
  reads : List Nat := []
  sizes : List Nat := []
  appends : List Nat := []
  flushes : List Nat := []
  error : StorageError := .closed
  claimedSize? : Option Nat := none
  deriving DecidableEq, Repr

/-- Bytes in memory that fail on schedule, with the number of calls so far and the ranges asked for,
newest first, failed reads included. -/
structure FaultyStorage where
  data : Bytes
  plan : FaultPlan
  readLog : List (Nat × Nat) := []
  sizeCount : Nat := 0
  appendCount : Nat := 0
  flushCount : Nat := 0
  deriving DecidableEq, Repr

namespace FaultyStorage

/-- The ranges asked for, oldest first. -/
def reads (f : FaultyStorage) : List (Nat × Nat) := f.readLog.reverse

instance : Storage FaultyStorage where
  size f :=
    let after := { f with sizeCount := f.sizeCount + 1 }
    if f.sizeCount ∈ f.plan.sizes then (.error f.plan.error, after)
    else (.ok (f.plan.claimedSize?.getD f.data.length), after)
  readAt f offset length :=
    let after := { f with readLog := (offset, length) :: f.readLog }
    if f.readLog.length ∈ f.plan.reads then (.error f.plan.error, after)
    else (f.data.read offset length, after)
  append f data :=
    let after := { f with appendCount := f.appendCount + 1 }
    if f.appendCount ∈ f.plan.appends then (.error f.plan.error, after)
    else (.ok f.data.length, { after with data := f.data ++ data })
  flush f :=
    let after := { f with flushCount := f.flushCount + 1 }
    if f.flushCount ∈ f.plan.flushes then (.error f.plan.error, after)
    else (.ok (), after)
  length_readAt f offset length bytes h := by
    dsimp only at h
    split at h
    · cases h
    · exact Bytes.length_of_read h

end FaultyStorage
end UndoLog
