import UndoLog.Field.Value

/-!
# Reading one field

Each reader takes the bytes that are left, and gives the value of the field that stands first with
the bytes after it. A field that the bytes cut short is told apart from bytes that are no value.

UndoJournal specification: section 5.1.
-/

namespace UndoLog
namespace Field

/-- The first `n` bytes and the bytes after them. -/
def take (n : Nat) (bytes : Bytes) : Except FieldError (Bytes × Bytes) :=
  if bytes.length < n then .error (.unexpectedEnd n bytes.length)
  else .ok (bytes.take n, bytes.drop n)

/-- A read with its value converted. -/
def convert {α β : Type} (f : α → β) (read : Except FieldError (α × Bytes)) :
    Except FieldError (β × Bytes) :=
  read.map (Prod.map f id)

/-- One byte. -/
def byte : Bytes → Except FieldError (UInt8 × Bytes)
  | [] => .error (.unexpectedEnd 1 0)
  | b :: rest => .ok (b, rest)

/-- A word of four bytes. -/
def word32 (bytes : Bytes) : Except FieldError (UInt32 × Bytes) :=
  convert (fun field => UInt32.ofNat (LittleEndian.decode field)) (take 4 bytes)

/-- A word of eight bytes. -/
def word64 (bytes : Bytes) : Except FieldError (UInt64 × Bytes) :=
  convert (fun field => UInt64.ofNat (LittleEndian.decode field)) (take 8 bytes)

/-- A timestamp of eight bytes, refused if its microseconds are out of range. -/
def timestamp (bytes : Bytes) : Except FieldError (Timestamp × Bytes) :=
  match take 8 bytes with
  | .error error => .error error
  | .ok (field, rest) =>
    match Timestamp.ofMicros? (LittleEndian.decodeSigned field) with
    | some t => .ok (t, rest)
    | none => .error (.timestampOutOfRange (LittleEndian.decodeSigned field))

/-- A compact integer below 2^32. -/
def compact32 (bytes : Bytes) : Except FieldError (UInt32 × Bytes) :=
  convert UInt32.ofNat (Compact.decode 4 bytes)

/-- A compact integer below 2^64. -/
def compact64 (bytes : Bytes) : Except FieldError (UInt64 × Bytes) :=
  convert UInt64.ofNat (Compact.decode 8 bytes)

end Field

/-- The field of a given form at the start, and the bytes after it. -/
def FieldKind.read (kind : FieldKind) (bytes : Bytes) : Except FieldError (FieldValue × Bytes) :=
  match kind with
  | .byte => Field.convert .byte (Field.byte bytes)
  | .word32 => Field.convert .word32 (Field.word32 bytes)
  | .word64 => Field.convert .word64 (Field.word64 bytes)
  | .timestamp => Field.convert .timestamp (Field.timestamp bytes)
  | .compact32 => Field.convert .compact32 (Field.compact32 bytes)
  | .compact64 => Field.convert .compact64 (Field.compact64 bytes)

end UndoLog
