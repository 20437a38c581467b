import UndoLog.Field.Canonical
import UndoLog.Record.Header
import UndoLog.Record.Trailer

/-!
# Records have one form

A header is read exactly from the bytes that it is written as, and a trailer likewise. The length
that is computed for a header is that of its bytes.
-/

namespace UndoLog

private theorem bind_eq_ok_iff {ε α β : Type} {first : Except ε α} {second : α → Except ε β}
    {b : β} :
    (first >>= second) = .ok b ↔ ∃ a, first = .ok a ∧ second a = .ok b := by
  cases first <;> simp [bind, Except.bind]

namespace Trailer

/-- A trailer is decoded iff the bytes begin with its encoding. -/
theorem decode_eq_ok_iff {bytes : Bytes} {t : Trailer} :
    decode bytes = .ok t ↔ ∃ rest, bytes = t.encode ++ rest := by
  unfold decode
  simp only [bind_eq_ok_iff, Prod.exists, Field.word32_eq_ok_iff, Field.byte_eq_ok_iff,
    Field.word64_eq_ok_iff, pure, Except.pure, Except.ok.injEq]
  constructor
  · rintro ⟨checksum, _, rfl, headerLength, _, rfl, dataLength, _, rfl, tag, rest, rfl, rfl⟩
    exact ⟨rest, by simp [encode, fields, FieldValue.encode]⟩
  · rintro ⟨rest, rfl⟩
    exact ⟨t.checksum, _, by simp [encode, fields, FieldValue.encode], t.headerLength, _, rfl,
      t.dataLength, _, rfl, t.tag, rest, rfl, rfl⟩

/-- A trailer decodes from its encoding. -/
theorem decode_encode (t : Trailer) : decode t.encode = .ok t :=
  decode_eq_ok_iff.mpr ⟨[], by rw [List.append_nil]⟩

/-- Trailers with the same encoding are equal. -/
theorem eq_of_encode {t other : Trailer} (h : t.encode = other.encode) : t = other :=
  Except.ok.inj (by rw [← decode_encode, h, decode_encode])

/-- Bytes of a trailer's length that decode to it are its encoding. -/
theorem eq_encode_of_decode {bytes : Bytes} {t : Trailer} (h : decode bytes = .ok t)
    (hlen : bytes.length = Layout.trailerLength) : bytes = t.encode := by
  obtain ⟨rest, rfl⟩ := decode_eq_ok_iff.mp h
  rw [List.length_append, length_encode] at hlen
  have hrest : rest = [] := List.length_eq_zero_iff.mp (by omega)
  rw [hrest, List.append_nil]

end Trailer

namespace DecodedHeader

/-- A header field is read iff its reader succeeds. -/
theorem field_eq_ok_iff {α : Type} {bytes unread rest : Bytes}
    {reader : Bytes → Except FieldError (α × Bytes)} {v : α} :
    field bytes reader unread = .ok (v, rest) ↔ reader unread = .ok (v, rest) := by
  unfold field
  cases reader unread with
  | error error => constructor <;> intro h <;> cases h
  | ok found => constructor <;> intro h <;> cases h <;> rfl

private theorem kind_eq_ok_iff {bytes unread rest : Bytes} {type : RecordType} {kind : RecordKind} :
    DecodedHeader.kind bytes type unread = .ok (kind, rest) ↔
      kind.type = type ∧ unread = kind.fields.flatMap FieldValue.encode ++ rest := by
  cases type <;> cases kind <;>
    simp only [DecodedHeader.kind, bind_eq_ok_iff, Prod.exists, field_eq_ok_iff,
      Field.compact64_eq_ok_iff, Field.compact32_eq_ok_iff, pure, Except.pure, Except.ok.injEq,
      Prod.mk.injEq, RecordKind.type, RecordKind.fields]
  · constructor
    · rintro ⟨_, _, rfl, _, _, rfl, h, rfl⟩
      cases h
      simp [FieldValue.encode]
    · rintro ⟨-, rfl⟩
      exact ⟨_, _, by simp [FieldValue.encode], _, _, rfl, rfl, rfl⟩
  · simp
  · simp
  · constructor
    · rintro ⟨_, _, rfl, _, _, rfl, h, rfl⟩
      cases h
      simp [FieldValue.encode]
    · rintro ⟨-, rfl⟩
      exact ⟨_, _, by simp [FieldValue.encode], _, _, rfl, rfl, rfl⟩

end DecodedHeader

namespace Record

/-- A header has the computed length. -/
@[simp] theorem length_header (r : Record) : r.header.length = r.headerLength := by
  obtain ⟨journalOffset, timestamp, kind⟩ := r
  cases kind <;>
    simp [header, headerFields, RecordKind.fields, FieldValue.encode, headerLength,
      RecordKind.headerLength, Layout.tagLength, Layout.timestampLength] <;> omega

/-- A header is the prefix of its length. -/
@[simp] theorem take_header_append (r : Record) (rest : Bytes) :
    (r.header ++ rest).take r.headerLength = r.header := by
  rw [← length_header, List.take_left]

/-- A header is no longer than the computed length. -/
@[simp] theorem take_header (r : Record) : r.header.take r.headerLength = r.header := by
  rw [← length_header, List.take_length]

/-- An encoding has the computed length, if the payload has the declared one. -/
theorem length_image {r : Record} {payload : Bytes} (h : payload.length = r.dataLength) :
    (r.image payload).length = r.encodedLength := by
  simp [image, encodedLength, h, Nat.add_assoc]

end Record

namespace DecodedHeader

/-- A header is decoded iff its timestamp is stored and the bytes begin with its encoding, whose
length is reported. -/
theorem decode_eq_ok_iff {journalOffset : Nat} {bytes : Bytes} {d : DecodedHeader} :
    decode journalOffset bytes = .ok d ↔
      d.record.journalOffset = journalOffset ∧ d.record.timestamp.IsStored ∧
        d.length = d.record.headerLength ∧ ∃ rest, bytes = d.record.header ++ rest := by
  obtain ⟨⟨offset, timestamp, kind⟩, length⟩ := d
  unfold decode
  simp only [bind_eq_ok_iff, Prod.exists, field_eq_ok_iff, Field.byte_eq_ok_iff]
  constructor
  · rintro ⟨tag, unread, rfl, h⟩
    split at h
    · cases h
    · next type htype =>
      simp only [bind_eq_ok_iff, Prod.exists, field_eq_ok_iff, Field.timestamp_eq_ok_iff,
        kind_eq_ok_iff, pure, Except.pure, Except.ok.injEq] at h
      obtain ⟨t, _, ⟨hs, rfl⟩, k, rest, ⟨rfl, rfl⟩, h⟩ := h
      cases h
      have htag := RecordType.ofTag?_eq_some_iff.mp htype
      have hbytes : tag :: (LittleEndian.encodeSigned 8 timestamp.micros ++
          (kind.fields.flatMap FieldValue.encode ++ rest)) =
          (Record.mk journalOffset timestamp kind).header ++ rest := by
        simp [Record.header, Record.headerFields, FieldValue.encode, htag, Record.type]
      refine ⟨rfl, hs, ?_, rest, hbytes⟩
      rw [hbytes, List.length_append, Record.length_header]
      omega
  · rintro ⟨rfl, hs, hlen, rest, hbytes⟩
    refine ⟨kind.type.tag, LittleEndian.encodeSigned 8 timestamp.micros ++
      (kind.fields.flatMap FieldValue.encode ++ rest), ?_, ?_⟩
    · simp [hbytes, Record.header, Record.headerFields, FieldValue.encode, Record.type]
    · simp only [RecordType.ofTag?_tag, bind_eq_ok_iff, Prod.exists, field_eq_ok_iff,
        Field.timestamp_eq_ok_iff, kind_eq_ok_iff, pure, Except.pure, Except.ok.injEq]
      refine ⟨timestamp, _, ⟨hs, rfl⟩, kind, rest, ⟨rfl, rfl⟩, ?_⟩
      rw [hbytes, hlen, List.length_append, Record.length_header]
      simp

/-- A header decodes from its encoding, whatever follows. -/
theorem decode_header_append {r : Record} (h : r.timestamp.IsStored) (rest : Bytes) :
    decode r.journalOffset (r.header ++ rest) = .ok ⟨r, r.headerLength⟩ :=
  decode_eq_ok_iff.mpr ⟨rfl, h, rfl, rest, rfl⟩

end DecodedHeader
end UndoLog
