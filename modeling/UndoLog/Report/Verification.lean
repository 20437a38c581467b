import UndoLog.Reader.Rollback

/-!
# Verifying a journal

A journal is sound if it opens with the reserved bytes and every record reads back from the end to
the first. What is found wrong is part of the result. Only a failure before the records are read is
an error.

UndoJournal specification: section 10.
-/

namespace UndoLog

/-- What is wrong with a journal: it ends inside the reserved bytes, opens with other bytes, or has
a record that cannot be read. -/
inductive Defect
  | tooShort (size : Nat)
  | badMagic (found : Bytes)
  | unreadable (error : JournalError)
  deriving DecidableEq, Repr

/-- The defect in words. -/
def Defect.message : Defect → String
  | .tooShort size =>
    s!"journal of {size} bytes is shorter than its {Layout.journalStart}-byte header"
  | .badMagic found => "bad journal header " ++ Hex.bracketed found
  | .unreadable error =>
    if error.isCorruption then s!"corruption: {error.message}" else error.message

/-- The result of a verification. The records and payload bytes are those read before the defect. -/
structure Verification where
  journalLength : Nat
  validRecords : Nat := 0
  payloadBytes : Nat := 0
  defect? : Option Defect := none
  deriving DecidableEq, Repr

/-- A failure while the first bytes are read, or while the end is looked for. -/
inductive VerificationError
  | storage (error : StorageError)
  | journal (error : JournalError)
  deriving DecidableEq, Repr

variable {σ : Type} [Storage σ]

/-- Reads the records of a journal from its end to its start. -/
def verifyRecords (journalLength : Nat) (storage : σ) :
    Except VerificationError Verification × σ :=
  match ({ storage } : Reader σ).seekEnd with
  | (.error error, r) => (.error (.journal error), r.storage)
  | (.ok _, r) =>
    let (records, error?, r) := r.rollback none
    (.ok {
      journalLength
      validRecords := records.length
      payloadBytes := records.foldl (fun total record => total + record.dataLength) 0
      defect? := error?.map .unreadable }, r.storage)

/-- Verifies a journal. -/
def verifyJournal (storage : σ) : Except VerificationError Verification × σ :=
  match Storage.size storage with
  | (.error error, storage) => (.error (.storage error), storage)
  | (.ok journalLength, storage) =>
    if journalLength < Layout.journalStart then
      (.ok { journalLength, defect? := some (.tooShort journalLength) }, storage)
    else
      match Storage.readAt storage 0 Layout.journalStart with
      | (.error error, storage) => (.error (.storage error), storage)
      | (.ok found, storage) =>
        if found = Layout.magic then verifyRecords journalLength storage
        else (.ok { journalLength, defect? := some (.badMagic found) }, storage)

end UndoLog
