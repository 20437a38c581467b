import UndoLog.Record.Trailer
import UndoLog.Scan.Step

/-!
# Going over a payload in chunks

The checksum of a record is computed while its payload is read from left to right, in chunks of
bounded length.

UndoJournal specification: section 5.6.
-/

namespace UndoLog

/-- A checksum under way, the offset of the next payload byte, and the number of payload bytes still
to be read. -/
structure PayloadCheck where
  checksum : Checksum
  offset : Nat
  remaining : Nat
  deriving DecidableEq, Repr

namespace PayloadCheck

/-- The check before the payload, after the bytes of the header. -/
def ofHeader (record : Record) (header : Bytes) : PayloadCheck where
  checksum := Record.headerChecksum record.journalOffset header
  offset := record.payloadOffset
  remaining := record.dataLength

/-- The next chunk. -/
def request (c : PayloadCheck) : ReadRequest := ⟨c.offset, min c.remaining Layout.chunkLength⟩

/-- The check after a chunk. -/
def update (c : PayloadCheck) (chunk : Bytes) : PayloadCheck where
  checksum := c.checksum.update chunk
  offset := c.offset + chunk.length
  remaining := c.remaining - chunk.length

/-- The check after a chunk, or `none` where the offset of the next byte overflows. -/
def update? (c : PayloadCheck) (chunk : Bytes) : Option PayloadCheck :=
  (Layout.addOffset? c.offset chunk.length).map fun offset => { c.update chunk with offset }

/-- A check without overflow is the check. -/
theorem eq_of_update? {c next : PayloadCheck} {chunk : Bytes} (h : c.update? chunk = some next) :
    c.update chunk = next := by
  obtain ⟨offset, hsum, rfl⟩ := Option.map_eq_some_iff.mp h
  rw [Layout.eq_of_addOffset? hsum]
  rfl

/-- The checked update fails iff the next offset reaches the limit. -/
theorem update?_eq_none_iff {c : PayloadCheck} {chunk : Bytes} :
    c.update? chunk = none ↔ Layout.offsetLimit ≤ c.offset + chunk.length := by
  rw [update?, Option.map_eq_none_iff, Layout.addOffset?_eq_none_iff]

/-- Updates compose. -/
theorem update_append (c : PayloadCheck) (a b : Bytes) :
    c.update (a ++ b) = (c.update a).update b := by
  simp only [update, Checksum.update_append, List.length_append, Nat.add_assoc, Nat.sub_add_eq]

/-- A requested chunk leaves less to read. -/
theorem remaining_update_lt {c : PayloadCheck} {chunk : Bytes} (hr : 0 < c.remaining)
    (hc : chunk.length = c.request.length) : (c.update chunk).remaining < c.remaining := by
  simp only [update, request, Layout.chunkLength] at hc ⊢
  omega

end PayloadCheck

/-- The payload length is a word of 64 bits. -/
theorem RecordKind.dataLength_lt (kind : RecordKind) : kind.dataLength < Layout.offsetLimit := by
  cases kind with
  | write targetOffset dataLength =>
    have := dataLength.toNat_lt
    simp only [RecordKind.dataLength, Layout.offsetLimit, UInt64.size]
    omega
  | length oldLength newLength =>
    have := oldLength.toNat_lt
    simp only [RecordKind.dataLength, Layout.offsetLimit, UInt64.size]
    omega

end UndoLog
