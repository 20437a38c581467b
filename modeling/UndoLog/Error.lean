import UndoLog.Record
import UndoLog.Storage.Error
import UndoLog.Text.Digits

/-!
# Errors of journals

A journal is refused because its storage fails, because a position is not inside it, because the
bytes there are no record, or because the caller asks for what no record can say. Each damage and
each refusal is a case of its own; the words are made here and nowhere else.

UndoJournal specification: section 7.
-/

namespace UndoLog

/-- A reason why the bytes at an offset are no record. `field` is a header that a forward scan
cannot read, `header` one that starts where a trailer says; `described` is a caller's text. -/
inductive Damage
  | field (error : FieldError)
  | header (start : Nat) (error : FieldError)
  | emptyWriteInside (targetOffset targetLength : Nat)
  | writePastTarget (targetOffset targetLength : Nat)
  | preImagePastTarget (targetOffset dataLength targetLength : Nat)
  | oldLengthBelowTarget (oldLength targetLength : Nat)
  | preImageOverflow (targetOffset dataLength : Nat)
  | recordOverflow
  | trailerTag (tag : UInt8) (type : RecordType)
  | trailerHeaderLength (claimed decoded : Nat)
  | trailerDataLength (claimed decoded : Nat)
  | checksumMismatch (stored computed : UInt32)
  | impossibleHeaderLength (length : Nat) (type : RecordType)
  | noRoomForTrailer
  | noRoomForRecord (type : RecordType) (dataLength : Nat)
  | scanOver
  | described (text : String)
  deriving DecidableEq, Repr

/-- The text of the damage. -/
def Damage.message : Damage → String
  | .field error => error.message
  | .header start error => s!"header at {start}: {error.message}"
  | .emptyWriteInside targetOffset targetLength =>
    s!"empty write at target offset {targetOffset} lies inside target of length {targetLength}"
  | .writePastTarget targetOffset targetLength =>
    s!"target offset {targetOffset} is not below target length {targetLength}"
  | .preImagePastTarget targetOffset dataLength targetLength =>
    s!"pre-image {targetOffset}+{dataLength} exceeds target length {targetLength}"
  | .oldLengthBelowTarget oldLength targetLength =>
    s!"old length {oldLength} is below target length {targetLength}"
  | .preImageOverflow targetOffset dataLength =>
    s!"pre-image {targetOffset}+{dataLength} overflows"
  | .recordOverflow => "record size overflows the journal offset range"
  | .trailerTag tag type => s!"trailer tag {tag} does not match {type.name} header"
  | .trailerHeaderLength claimed decoded =>
    s!"trailer header length {claimed} does not match decoded {decoded}"
  | .trailerDataLength claimed decoded =>
    s!"trailer data length {claimed} does not match decoded {decoded}"
  | .checksumMismatch stored computed =>
    "checksum mismatch: trailer has " ++ Hex.ofWord32 stored ++ ", record hashes to " ++
      Hex.ofWord32 computed
  | .impossibleHeaderLength length type =>
    s!"trailer header length {length} is invalid for a {type.name} record"
  | .noRoomForTrailer => "not enough data from the current offset for a trailer"
  | .noRoomForRecord type dataLength =>
    s!"not enough data from the current offset for a {type.name} record " ++
      s!"of {dataLength} payload bytes"
  | .scanOver => "scan resumed after it finished"
  | .described text => text

/-- A reason why a call cannot be carried out. `described` is a caller's text. -/
inductive Refusal
  | payloadLength (type : RecordType) (declared actual : Nat)
  | preImageTooLong (length : Nat)
  | preImageOverflow (targetOffset dataLength : Nat)
  | journalTooShort (size : Nat)
  | described (text : String)
  deriving DecidableEq, Repr

/-- The text of the refusal. -/
def Refusal.message : Refusal → String
  | .payloadLength type declared actual =>
    s!"{type.name} record declares {declared} payload bytes, got {actual}"
  | .preImageTooLong length =>
    s!"pre-image of {length} bytes exceeds the maximum of {UInt32.size - 1} bytes"
  | .preImageOverflow targetOffset dataLength =>
    s!"pre-image range {targetOffset}+{dataLength} overflows"
  | .journalTooShort size =>
    s!"journal of {size} bytes is shorter than its {Layout.journalStart}-byte header"
  | .described text => text

/-- A reason for a journal operation to fail (specification, section 7). `recordEnd` is where a
truncated record ends, or its cut field. -/
inductive JournalError
  | storage (error : StorageError)
  | invalidCursor (cursor journalLength : Nat)
  | corruptRecord (offset : Nat) (damage : Damage)
  | truncatedJournal (offset recordEnd journalLength : Nat)
  | unrecognizedType (tag : UInt8) (offset : Nat)
  | invalidArgument (refusal : Refusal)
  deriving DecidableEq, Repr

namespace JournalError

/-- The journal's own bytes are at fault. -/
def isCorruption : JournalError → Bool
  | .corruptRecord .. | .truncatedJournal .. | .unrecognizedType .. => true
  | .storage _ | .invalidCursor .. | .invalidArgument _ => false

/-- The text of the error. -/
def message : JournalError → String
  | .storage error => s!"storage error: {error.message}"
  | .invalidCursor cursor journalLength =>
    s!"invalid cursor {cursor} (journal length {journalLength})"
  | .corruptRecord offset damage => s!"corrupt record at offset {offset}: {damage.message}"
  | .truncatedJournal offset recordEnd journalLength =>
    s!"truncated journal: record at {offset} ends at {recordEnd}, journal length {journalLength}"
  | .unrecognizedType tag offset => s!"unrecognized record type {tag} at offset {offset}"
  | .invalidArgument refusal => s!"invalid argument: {refusal.message}"

end JournalError
end UndoLog
