import UndoLog.Record
import UndoLog.Field.Read
import UndoLog.Checksum
import UndoLog.Error

/-!
# The trailer of a record

A trailer repeats what is needed to find the start of its record from the end, and holds the
checksum over the record's offset, header and payload. The bytes of a record are its header, its
payload and its trailer. They belong to the offset that the record is written at, and are made only
if the payload has the length that the header declares.

UndoJournal specification: sections 4 and 5.2.
-/

namespace UndoLog

/-- The fields that close a record. The checksum covers offset, header and payload. -/
structure Trailer where
  checksum : UInt32
  headerLength : UInt8
  dataLength : UInt64
  tag : UInt8
  deriving DecidableEq, Repr

namespace Trailer

/-- The fields in their order. -/
def fields (t : Trailer) : List FieldValue :=
  [.word32 t.checksum, .byte t.headerLength, .word64 t.dataLength, .byte t.tag]

/-- The encoding of a record with a payload of the declared length (specification, section 5.2). -/
def encode (t : Trailer) : Bytes := t.fields.flatMap FieldValue.encode

/-- The trailer that stands first in some bytes; what follows it is ignored. -/
def decode (bytes : Bytes) : Except FieldError Trailer := do
  let (checksum, bytes) ← Field.word32 bytes
  let (headerLength, bytes) ← Field.byte bytes
  let (dataLength, bytes) ← Field.word64 bytes
  let (tag, _) ← Field.byte bytes
  return { checksum, headerLength, dataLength, tag }

/-- The start of a record that ends at `endOffset`, unless that lies before the first record. -/
def recordStart? (t : Trailer) (endOffset : Nat) : Option Nat :=
  let length := t.headerLength.toNat + t.dataLength.toNat + Layout.trailerLength
  if Layout.journalStart + length ≤ endOffset then some (endOffset - length) else none

/-- A trailer has a fixed length. -/
@[simp] theorem length_encode (t : Trailer) : t.encode.length = Layout.trailerLength := by
  simp [encode, fields, FieldValue.encode, Layout.trailerLength]

/-- The start is found iff it lies behind the reserved bytes. -/
theorem recordStart?_eq_some_iff {t : Trailer} {endOffset start : Nat} :
    t.recordStart? endOffset = some start ↔
      Layout.journalStart ≤ start ∧
      start + t.headerLength.toNat + t.dataLength.toNat + Layout.trailerLength = endOffset := by
  unfold recordStart?
  dsimp only
  split
  · rw [Option.some.injEq]
    omega
  · constructor
    · intro h; cases h
    · intro h; omega

end Trailer

namespace Record

/-- The checksum under way after a record's offset and header. It covers the offset, so the same
bytes in another place do not pass. -/
def headerChecksum (journalOffset : Nat) (header : Bytes) : Checksum :=
  (Checksum.start.update (LittleEndian.encode 8 journalOffset)).update header

/-- The trailer of a record with a given payload. -/
def trailer (r : Record) (payload : Bytes) : Trailer where
  checksum := ((headerChecksum r.journalOffset r.header).update payload).value
  headerLength := UInt8.ofNat r.headerLength
  dataLength := UInt64.ofNat r.dataLength
  tag := r.type.tag

/-- The bytes of a record with a given payload. -/
def image (r : Record) (payload : Bytes) : Bytes :=
  r.header ++ payload ++ (r.trailer payload).encode

/-- The bytes of a record with a given payload, if that has the length the record declares. -/
def encode (r : Record) (payload : Bytes) : Except JournalError Bytes :=
  if payload.length = r.dataLength then .ok (r.image payload)
  else .error (.invalidArgument (.payloadLength r.type r.dataLength payload.length))

/-- A record is encoded iff the payload has the declared length, as its image. -/
theorem encode_eq_ok_iff {r : Record} {payload image : Bytes} :
    r.encode payload = .ok image ↔ payload.length = r.dataLength ∧ image = r.image payload := by
  unfold encode
  split
  · next h => simp [h, eq_comm]
  · next h => simp [h]

end Record
end UndoLog
