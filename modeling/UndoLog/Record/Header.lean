import UndoLog.Record
import UndoLog.Field.Read

/-!
# Reading the header of a record

The fields are read in their order. A failure tells at which offset in the header the field starts
that could not be read.

UndoJournal specification: sections 4 and 5.1.
-/

namespace UndoLog

/-- A reason to refuse the bytes of a header: its tag is that of no type, or the field that starts
`position` bytes into it cannot be read. -/
inductive HeaderError
  | unknownTag (tag : UInt8)
  | field (position : Nat) (error : FieldError)
  deriving DecidableEq, Repr

/-- A record read from its header, and the length of that header. -/
structure DecodedHeader where
  record : Record
  length : Nat
  deriving DecidableEq, Repr

namespace DecodedHeader

/-- Reads a field where `unread` is what is left of `bytes`. -/
def field {α : Type} (bytes : Bytes) (reader : Bytes → Except FieldError (α × Bytes))
    (unread : Bytes) : Except HeaderError (α × Bytes) :=
  (reader unread).mapError (.field (bytes.length - unread.length))

/-- The two fields that close the header of a given type. -/
def kind (bytes : Bytes) (type : RecordType) (unread : Bytes) :
    Except HeaderError (RecordKind × Bytes) :=
  match type with
  | .write => do
    let (targetOffset, unread) ← field bytes Field.compact64 unread
    let (dataLength, unread) ← field bytes Field.compact32 unread
    return (.write targetOffset dataLength, unread)
  | .length => do
    let (oldLength, unread) ← field bytes Field.compact64 unread
    let (newLength, unread) ← field bytes Field.compact64 unread
    return (.length oldLength newLength, unread)

/-- The header that stands first in some bytes; what follows it is ignored. -/
def decode (journalOffset : Nat) (bytes : Bytes) : Except HeaderError DecodedHeader := do
  let (tag, unread) ← field bytes Field.byte bytes
  match RecordType.ofTag? tag with
  | none => throw (.unknownTag tag)
  | some type =>
    let (timestamp, unread) ← field bytes Field.timestamp unread
    let (kind, unread) ← kind bytes type unread
    return ⟨⟨journalOffset, timestamp, kind⟩, bytes.length - unread.length⟩

/-- A decoded record has the given offset. -/
theorem journalOffset_of_decode {journalOffset : Nat} {bytes : Bytes} {d : DecodedHeader}
    (h : decode journalOffset bytes = .ok d) : d.record.journalOffset = journalOffset := by
  unfold decode at h
  simp only [bind, Except.bind, pure, Except.pure] at h
  repeat' split at h
  all_goals cases h <;> rfl

end DecodedHeader
end UndoLog
