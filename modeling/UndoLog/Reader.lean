import UndoLog.Scan.Run

/-!
# Reading a journal

A reader keeps one position in a journal. A scan that finds a record moves it past that record, in
the direction of the scan. Nothing else but a seek moves it, so after an error the reader stands
where it stood.

UndoJournal specification: section 5.7.
-/

namespace UndoLog

/-- A storage and a position in the journal it holds, the end of one record and the start of the
next. With `verifyTrailer` a forward scan reads payload and trailer too. -/
structure Reader (σ : Type) where
  storage : σ
  position : Nat := Layout.journalStart
  verifyTrailer : Bool := true
  deriving DecidableEq, Repr

namespace Reader

variable {σ : Type} [Storage σ]

/-- Moves to a position between the first record and the end. -/
def seek (r : Reader σ) (position : Nat) : Except JournalError Unit × Reader σ :=
  match Storage.size r.storage with
  | (.error error, storage) => (.error (.storage error), { r with storage })
  | (.ok journalLength, storage) =>
    match checkCursor position journalLength with
    | .error error => (.error error, { r with storage })
    | .ok () => (.ok (), { r with storage, position })

/-- Moves to the end and answers it. The size is asked for twice. -/
def seekEnd (r : Reader σ) : Except JournalError Nat × Reader σ :=
  match Storage.size r.storage with
  | (.error error, storage) => (.error (.storage error), { r with storage })
  | (.ok journalLength, storage) =>
    match { r with storage }.seek journalLength with
    | (.error error, r) => (.error error, r)
    | (.ok (), r) => (.ok journalLength, r)

/-- The task of finding the record that starts at the position. -/
def forwardTask (r : Reader σ) (targetLength : Nat) : ScanTask :=
  .forward r.position targetLength r.verifyTrailer

/-- The task of finding the record that ends at the position. -/
def backwardTask (r : Reader σ) : ScanTask := .backward r.position

/-- The reader after a scan: past the record, if one was found. -/
def commit (r : Reader σ) : ScanResult × σ → Except JournalError (Option Record) × Reader σ
  | (.error error, storage) => (.error error, { r with storage })
  | (.ok none, storage) => (.ok none, { r with storage })
  | (.ok (some found), storage) =>
    (.ok (some found.record), { r with storage, position := found.cursor })

/-- Reads the record that starts at the position, and moves to its end (specification, section
5.7). -/
def nextForward (r : Reader σ) (targetLength : Nat) :
    Except JournalError (Option Record) × Reader σ :=
  r.commit ((r.forwardTask targetLength).run r.storage)

/-- Reads the record that ends at the position, and moves to its start (specification, section
5.7). -/
def nextBackward (r : Reader σ) : Except JournalError (Option Record) × Reader σ :=
  r.commit (r.backwardTask.run r.storage)

/-- At most `calls` reads forward, the target length of each given by its number, up to the first
that finds no record. The answer has the records, and the ending if there was one. -/
def readForward (targetLengths : Nat → Nat) :
    (calls : Nat) → (r : Reader σ) → List Record × Option (Except JournalError Unit) × Reader σ
  | 0, r => ([], none, r)
  | calls + 1, r =>
    match r.nextForward (targetLengths 0) with
    | (.ok none, r) => ([], some (.ok ()), r)
    | (.error error, r) => ([], some (.error error), r)
    | (.ok (some record), r) =>
      let (records, ending?, last) := r.readForward (fun call => targetLengths (call + 1)) calls
      (record :: records, ending?, last)

/-- Reads the payload of a record. -/
def readPayload (r : Reader σ) (record : Record) : Except JournalError Bytes × Reader σ :=
  match Storage.readAt r.storage record.payloadOffset record.dataLength with
  | (.error error, storage) => (.error (.storage error), { r with storage })
  | (.ok payload, storage) => (.ok payload, { r with storage })

/-- A record read backward moves the reader towards the start. -/
theorem position_lt_of_nextBackward {r after : Reader σ} {record : Record}
    (h : r.nextBackward = (.ok (some record), after)) : after.position < r.position := by
  unfold nextBackward commit at h
  split at h <;> cases h
  next hr => exact ScanTask.cursor_lt_of_run hr

end Reader
end UndoLog
