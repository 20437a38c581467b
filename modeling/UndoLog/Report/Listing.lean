import UndoLog.Reader.Rollback
import UndoLog.Timestamp.Rfc3339

/-!
# Listing the records of a journal

A listing is taken from the end of a journal, so newest records come first. It can be cut to a
number of records, and turned round to show the oldest first; then the whole journal is read before
it is cut.

UndoJournal specification: section 10.
-/

namespace UndoLog

/-- What a listing shows of a record: a target offset for a write, the old and new length for a
change of length. -/
structure ListedRecord where
  offset : Nat
  endOffset : Nat
  type : RecordType
  timestamp : String
  targetOffset? : Option UInt64
  lengths? : Option (UInt64 × UInt64)
  dataLength : Nat
  deriving DecidableEq, Repr

/-- What a listing shows of a record. -/
def ListedRecord.ofRecord (r : Record) : ListedRecord where
  offset := r.journalOffset
  endOffset := r.endOffset
  type := r.type
  timestamp := r.timestamp.rfc3339
  targetOffset? :=
    match r.kind with
    | .write targetOffset _ => some targetOffset
    | .length .. => none
  lengths? :=
    match r.kind with
    | .write .. => none
    | .length oldLength newLength => some (oldLength, newLength)
  dataLength := r.dataLength

/-- The order of a listing. -/
inductive ListingOrder
  | newestFirst
  | oldestFirst
  deriving DecidableEq, Repr

/-- Lists a journal, at most a given number of records from the side that comes first. -/
def listRecords {σ : Type} [Storage σ] (order : ListingOrder) (limit? : Option Nat) (storage : σ) :
    Except JournalError (List ListedRecord) × σ :=
  match ({ storage } : Reader σ).seekEnd with
  | (.error error, r) => (.error error, r.storage)
  | (.ok _, r) =>
    let walkLimit? :=
      match order with
      | .newestFirst => limit?
      | .oldestFirst => none
    match r.rollback walkLimit? with
    | (_, some error, r) => (.error error, r.storage)
    | (records, none, r) =>
      let listed := records.map .ofRecord
      match order with
      | .newestFirst => (.ok listed, r.storage)
      | .oldestFirst =>
        let oldest := listed.reverse
        (.ok ((limit?.map oldest.take).getD oldest), r.storage)

end UndoLog
