import UndoLog.Layout
import UndoLog.Field.Value

/-!
# Undo records

A record tells how to take back one change of a target: a write in place keeps the bytes that were
there, a change of length keeps the tail that was cut off. The header holds the fields, the payload
holds those bytes, and their number follows from the fields.

UndoJournal specification: sections 3 and 5.2.
-/

namespace UndoLog

/-- The two types of records. -/
inductive RecordType
  | write
  | length
  deriving DecidableEq, Repr

namespace RecordType

/-- The type with a given tag. -/
def ofTag? (tag : UInt8) : Option RecordType :=
  if tag = 0 then some .write
  else if tag = 1 then some .length
  else none

/-- The tag that opens and closes a record. -/
def tag : RecordType → UInt8
  | .write => 0
  | .length => 1

/-- The name in messages and listings. -/
def name : RecordType → String
  | .write => "WRITE"
  | .length => "LENGTH"

/-- The greatest length of a header. -/
def maxHeaderLength : RecordType → Nat
  | .write => Layout.maxWriteHeaderLength
  | .length => Layout.maxHeaderLength

/-- Every type is found by its tag. -/
@[simp] theorem ofTag?_tag (t : RecordType) : ofTag? t.tag = some t := by
  cases t <;> decide

/-- A type is found by its tag only. -/
theorem ofTag?_eq_some_iff {tag : UInt8} {t : RecordType} :
    ofTag? tag = some t ↔ tag = t.tag := by
  constructor
  · intro h
    unfold ofTag? at h
    split at h
    · cases h; assumption
    · split at h
      · cases h; assumption
      · cases h
  · rintro rfl
    exact ofTag?_tag t

end RecordType

/-- What a record takes back. A write is about to overwrite `dataLength` bytes at `targetOffset`; if
there are none it begins at the old end or past it. -/
inductive RecordKind
  | write (targetOffset : UInt64) (dataLength : UInt32)
  | length (oldLength newLength : UInt64)
  deriving DecidableEq, Repr

namespace RecordKind

/-- The type of record. -/
def type : RecordKind → RecordType
  | .write .. => .write
  | .length .. => .length

/-- The number of payload bytes: those overwritten, or those cut off. -/
def dataLength : RecordKind → Nat
  | .write _ dataLength => dataLength.toNat
  | .length oldLength newLength => oldLength.toNat - newLength.toNat

/-- The two fields that close the header. -/
def fields : RecordKind → List FieldValue
  | .write targetOffset dataLength => [.compact64 targetOffset, .compact32 dataLength]
  | .length oldLength newLength => [.compact64 oldLength, .compact64 newLength]

/-- The length of the header: a tag, a timestamp and the two fields. -/
def headerLength (kind : RecordKind) : Nat :=
  Layout.tagLength + Layout.timestampLength +
    match kind with
    | .write targetOffset dataLength =>
      Compact.encodedLength targetOffset.toNat + Compact.encodedLength dataLength.toNat
    | .length oldLength newLength =>
      Compact.encodedLength oldLength.toNat + Compact.encodedLength newLength.toNat

/-- Whether the bytes a write saved lie below the offset limit. -/
def FitsOffsets : RecordKind → Prop
  | .write targetOffset dataLength =>
    targetOffset.toNat + dataLength.toNat < Layout.offsetLimit
  | .length .. => True

instance : DecidablePred FitsOffsets
  | .write _ _ => inferInstanceAs (Decidable (_ < _))
  | .length _ _ => inferInstanceAs (Decidable True)

end RecordKind

/-- A record at the offset of its first byte, with the time when it was written. -/
structure Record where
  journalOffset : Nat
  timestamp : Timestamp
  kind : RecordKind
  deriving DecidableEq, Repr

namespace Record

/-- The type of record. -/
def type (r : Record) : RecordType := r.kind.type

/-- The number of payload bytes. -/
def dataLength (r : Record) : Nat := r.kind.dataLength

/-- The length of the header. -/
def headerLength (r : Record) : Nat := r.kind.headerLength

/-- The length of header, payload and trailer. -/
def encodedLength (r : Record) : Nat := r.headerLength + r.dataLength + Layout.trailerLength

/-- The offset of the first payload byte. -/
def payloadOffset (r : Record) : Nat := r.journalOffset + r.headerLength

/-- The offset past the record, where the next one starts. -/
def endOffset (r : Record) : Nat := r.journalOffset + r.encodedLength

/-- The fields of the header in their order. -/
def headerFields (r : Record) : List FieldValue :=
  .byte r.type.tag :: .timestamp r.timestamp :: r.kind.fields

/-- The bytes of the header. -/
def header (r : Record) : Bytes := r.headerFields.flatMap FieldValue.encode

end Record
end UndoLog
