import Mathlib.Control.Monad.Basic
import UndoLog.Proofs.Record.Bounded
import UndoLog.Proofs.Record.CutShort
import UndoLog.Record.Trailer

/-!
# Headers are read as they are written

A header that is read is the one that its record is written with, and its length is told alike in
three places: by the reader's position, by the fields of the record, and by the trailer that closes
the record. Bytes that begin with it are read as the same record. Bytes that end inside it are
refused for the field that they end in, and bytes as long as the longest header never for ending.
-/

namespace UndoLog

namespace DecodedHeader

variable {journalOffset : Nat} {bytes : Bytes} {d : DecodedHeader}

/-- A header decoded at `journalOffset` is the one its record is encoded with: as long as the
record's fields, between the least and the greatest length of its type, and repeated by the trailer.
Every byte string that begins with these bytes decodes to it. Every proper prefix of them fails at
the end of input, inside the field that starts at the reported position, and needs no more than that
field. -/
structure IsExact (journalOffset : Nat) (bytes : Bytes) (d : DecodedHeader) : Prop where
  journalOffset_eq : d.record.journalOffset = journalOffset
  length_eq : d.length = d.record.headerLength
  minHeaderLength_le : Layout.minHeaderLength ≤ d.length
  length_le : d.length ≤ d.record.type.maxHeaderLength
  take_eq : bytes.take d.length = d.record.header
  encode_eq (payload : Bytes) (hpayload : payload.length = d.record.dataLength) :
    ∃ trailer : Trailer,
      d.record.encode payload = .ok (bytes.take d.length ++ payload ++ trailer.encode) ∧
        trailer.headerLength.toNat = d.length
  decode_of_isPrefix (other : Bytes) (hstarts : bytes.take d.length <+: other) :
    decode journalOffset other = .ok d
  decode_take (n : Nat) (hn : n < d.length) :
    ∃ position value needed available,
      FieldValue.StandsAt d.record.headerFields position value ∧
        decode journalOffset (bytes.take n) =
          .error (.field position (.unexpectedEnd needed available)) ∧
        position + available = n ∧ needed ≤ value.encode.length ∧
        n < position + needed ∧ position + needed ≤ d.length

private theorem take_eq_header (h : decode journalOffset bytes = .ok d) :
    bytes.take d.length = d.record.header := by
  obtain ⟨-, -, hlength, rest, hbytes⟩ := decode_eq_ok_iff.mp h
  rw [hbytes, hlength, Record.take_header_append]

private theorem decode_take_eq_error (h : decode journalOffset bytes = .ok d) {n : Nat}
    (hn : n < d.length) :
    ∃ position value needed available,
      FieldValue.StandsAt d.record.headerFields position value ∧
        decode journalOffset (bytes.take n) =
          .error (.field position (.unexpectedEnd needed available)) ∧
        position + available = n ∧ needed ≤ value.encode.length ∧
        n < position + needed ∧ position + needed ≤ d.length := by
  obtain ⟨-, hstored, hlength, -⟩ := decode_eq_ok_iff.mp h
  have hcut : bytes.take n = d.record.header.take n := by
    rw [← take_eq_header h, List.take_take, Nat.min_eq_left (Nat.le_of_lt hn)]
  have hlen : (d.record.header.take n).length = n := by
    rw [List.length_take, Record.length_header]
    omega
  obtain ⟨position, value, needed, available, hstands, hdecode, hend, hlacks, hneeded⟩ :=
    endsInField_decode hstored journalOffset (hlength ▸ hn)
  have hwithin : position + value.encode.length ≤ d.length := by
    rw [hlength, ← Record.length_header]
    exact hstands.end_le
  rw [Nat.zero_add] at hdecode hend
  rw [hcut]
  exact ⟨position, value, needed, available, hstands, hdecode, by omega, hneeded, by omega,
    by omega⟩

/-- A decoded header is exact. -/
theorem isExact_of_decode (h : decode journalOffset bytes = .ok d) :
    d.IsExact journalOffset bytes := by
  obtain ⟨hoffset, hstored, hlength, -⟩ := decode_eq_ok_iff.mp h
  have htake := take_eq_header h
  constructor
  case journalOffset_eq => exact hoffset
  case length_eq => exact hlength
  case minHeaderLength_le => exact hlength ▸ d.record.kind.minHeaderLength_le
  case length_le => exact hlength ▸ d.record.kind.headerLength_le_max
  case take_eq => exact htake
  case encode_eq =>
    intro payload hpayload
    refine ⟨d.record.trailer payload, ?_, ?_⟩
    · rw [htake, Record.encode_eq_ok_iff]
      exact ⟨hpayload, rfl⟩
    · rw [hlength, Record.toNat_headerLength_trailer]
  case decode_of_isPrefix =>
    rintro other ⟨more, rfl⟩
    exact decode_eq_ok_iff.mpr ⟨hoffset, hstored, hlength, more, by rw [htake]⟩
  case decode_take =>
    intro n hn
    exact decode_take_eq_error h hn

private theorem decode_ne_unexpectedEnd (h : Layout.maxHeaderLength ≤ bytes.length)
    (position needed available : Nat) :
    decode journalOffset bytes ≠ .error (.field position (.unexpectedEnd needed available)) := by
  intro hdecode
  obtain ⟨hpast, hmax⟩ := fieldEnd_of_decode hdecode rfl
  omega

private theorem decode_of_header_isPrefix {r : Record} {stored : Timestamp}
    (hstored : Timestamp.ofMicros? r.timestamp.micros = some stored)
    (hstarts : r.header <+: bytes) :
    decode journalOffset bytes = .ok ⟨⟨journalOffset, stored, r.kind⟩, r.headerLength⟩ := by
  obtain ⟨more, rfl⟩ := hstarts
  obtain ⟨his, hmicros⟩ := Timestamp.ofMicros?_eq_some_iff.mp hstored
  let read : Record := ⟨journalOffset, stored, r.kind⟩
  rw [r.header_congr read hmicros rfl]
  exact decode_header_append (r := read) his more

end DecodedHeader

/-- A decoded header is the encoding of its record: 11 to 23 bytes for a write and 11 to 27 for a
length change, as many as the record's fields take and as its trailer repeats. It decodes alike from
all bytes that begin with it, and its proper prefixes fail inside the field they end in. Bytes of 27
or more never fail for their end. Every encoded header decodes, with the timestamp of its
microseconds. -/
theorem headers_are_read_as_written (journalOffset : Nat) (bytes : Bytes) :
    (∀ d, DecodedHeader.decode journalOffset bytes = .ok d → d.IsExact journalOffset bytes) ∧
      (Layout.maxHeaderLength ≤ bytes.length → ∀ position needed available,
        DecodedHeader.decode journalOffset bytes ≠
          .error (.field position (.unexpectedEnd needed available))) ∧
      (∀ (r : Record) (stored : Timestamp),
        Timestamp.ofMicros? r.timestamp.micros = some stored → r.header <+: bytes →
          DecodedHeader.decode journalOffset bytes =
            .ok ⟨⟨journalOffset, stored, r.kind⟩, r.headerLength⟩) ∧
      Layout.minHeaderLength = 11 ∧ RecordType.write.maxHeaderLength = 23 ∧
      RecordType.length.maxHeaderLength = 27 ∧ Layout.maxHeaderLength = 27 := by
  refine ⟨?_, ?_, ?_, rfl, rfl, rfl, rfl⟩
  · intro d hdecode
    exact DecodedHeader.isExact_of_decode hdecode
  · intro hlong
    exact DecodedHeader.decode_ne_unexpectedEnd hlong
  · intro r stored hstored hstarts
    exact DecodedHeader.decode_of_header_isPrefix hstored hstarts

/-- The header of a write between two microseconds, before other bytes: 14 of 27 bytes are read,
with the earlier microsecond. Eleven of them leave two for the target offset, which needs three. -/
theorem headers_are_read_as_written_of_write :
    let r : Record := ⟨8, ⟨0, 1500, by decide, by decide⟩, .write 300 1⟩
    let stored : Timestamp := ⟨0, 1000, by decide, by decide⟩
    let bytes : Bytes := r.header ++ List.replicate 13 255
    let read : DecodedHeader := ⟨⟨8, stored, .write 300 1⟩, 14⟩
    Timestamp.ofMicros? r.timestamp.micros = some stored ∧ r.header <+: bytes ∧
      Layout.maxHeaderLength ≤ bytes.length ∧ DecodedHeader.decode 8 bytes = .ok read ∧
      read.IsExact 8 bytes ∧
      (∀ position needed available,
        DecodedHeader.decode 8 bytes ≠ .error (.field position (.unexpectedEnd needed available))) ∧
      DecodedHeader.decode 8 (bytes.take 11) = .error (.field 9 (.unexpectedEnd 3 2)) := by
  intro r stored bytes read
  have hstored : Timestamp.ofMicros? r.timestamp.micros = some stored := by decide
  have hstarts : r.header <+: bytes := List.prefix_append _ _
  have hlong : Layout.maxHeaderLength ≤ bytes.length := by decide
  obtain ⟨hexact, hend, hback, -⟩ := headers_are_read_as_written 8 bytes
  have hread : DecodedHeader.decode 8 bytes = .ok read := hback r stored hstored hstarts
  exact ⟨hstored, hstarts, hlong, hread, hexact read hread, hend hlong, by decide +kernel⟩

end UndoLog
