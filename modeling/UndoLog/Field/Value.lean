import UndoLog.Timestamp
import UndoLog.Field.Compact

/-!
# Values of fields and how they are written

A record is a sequence of fields. A field holds a byte, a word of 32 or 64 bits, a timestamp, or a
compact integer of at most 32 or 64 bits. Words are little-endian and timestamps are signed
microseconds in eight bytes.

UndoJournal specification: section 4.
-/

namespace UndoLog

/-- The forms of a field: a byte, a little-endian word, microseconds in eight bytes, or a compact
integer below 2^32 or 2^64. -/
inductive FieldKind
  | byte
  | word32
  | word64
  | timestamp
  | compact32
  | compact64
  deriving DecidableEq, Repr

/-- The value of a field. -/
inductive FieldValue
  | byte (value : UInt8)
  | word32 (value : UInt32)
  | word64 (value : UInt64)
  | timestamp (value : Timestamp)
  | compact32 (value : UInt32)
  | compact64 (value : UInt64)
  deriving DecidableEq, Repr

namespace FieldValue

/-- The form of the field that holds a value. -/
def kind : FieldValue → FieldKind
  | .byte _ => .byte
  | .word32 _ => .word32
  | .word64 _ => .word64
  | .timestamp _ => .timestamp
  | .compact32 _ => .compact32
  | .compact64 _ => .compact64

/-- The bytes of a field; of a timestamp only the microseconds. -/
def encode : FieldValue → Bytes
  | .byte value => [value]
  | .word32 value => LittleEndian.encode 4 value.toNat
  | .word64 value => LittleEndian.encode 8 value.toNat
  | .timestamp value => LittleEndian.encodeSigned 8 value.micros
  | .compact32 value => Compact.encode value.toNat
  | .compact64 value => Compact.encode value.toNat

/-- The value decoded from the encoding: a timestamp truncated to its microseconds, if they are in
range, and every other value itself. -/
def stored : FieldValue → Option FieldValue
  | .timestamp value => (Timestamp.ofMicros? value.micros).map .timestamp
  | value => some value

end FieldValue
end UndoLog
