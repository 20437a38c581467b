import UndoLog.Record.Canonical
import UndoLog.Scan.Payload
import UndoLog.Scan.Validation

/-!
# Records in their place

`Record.StandsIn` says that a journal holds the bytes of a record at the record's own offset.
Header, payload and trailer are then three windows of the journal, and conversely three such windows
make the record. A header is never shorter than eleven bytes nor longer than its type allows.
-/

namespace UndoLog

namespace Timestamp

/-- A timestamp is stored iff it is a whole number of microseconds outside leap seconds. -/
theorem isStored_iff {t : Timestamp} : t.IsStored ↔ ¬ t.IsLeap ∧ t.nanos % 1000 = 0 := by
  constructor
  · intro h
    have hleap := not_isLeap_of_ofMicros? h
    refine ⟨hleap, ?_⟩
    have ht : t = t.truncateToMicros := Option.some.inj (h.symm.trans (ofMicros?_micros hleap))
    have hn : t.nanos = t.nanos - t.nanos % 1000 := congrArg nanos ht
    omega
  · rintro ⟨hleap, hn⟩
    have ht : t.truncateToMicros = t := by
      apply Timestamp.ext
      · rfl
      · show t.nanos - t.nanos % 1000 = t.nanos
        omega
    rw [IsStored, ofMicros?_micros hleap, ht]

end Timestamp

namespace RecordKind

variable (kind : RecordKind)

private theorem encodedLength_word32 (v : UInt32) :
    1 ≤ Compact.encodedLength v.toNat ∧ Compact.encodedLength v.toNat ≤ 5 := by
  have hw := Compact.byteWidth_word32 v
  exact ⟨Compact.encodedLength_pos _, Nat.add_le_add_left hw 1⟩

private theorem encodedLength_word64 (v : UInt64) :
    1 ≤ Compact.encodedLength v.toNat ∧ Compact.encodedLength v.toNat ≤ 9 := by
  have hw := Compact.byteWidth_word64 v
  exact ⟨Compact.encodedLength_pos _, Nat.add_le_add_left hw 1⟩

/-- A header has a tag, a timestamp and two integers of at least a byte. -/
theorem minHeaderLength_le : Layout.minHeaderLength ≤ kind.headerLength := by
  have hmin : Layout.minHeaderLength = 11 := rfl
  cases kind with
  | write targetOffset dataLength =>
    have ho := encodedLength_word64 targetOffset
    have hd := encodedLength_word32 dataLength
    simp only [headerLength, Layout.tagLength, Layout.timestampLength]
    omega
  | length oldLength newLength =>
    have ho := encodedLength_word64 oldLength
    have hn := encodedLength_word64 newLength
    simp only [headerLength, Layout.tagLength, Layout.timestampLength]
    omega

/-- A header is no longer than its type allows. -/
theorem headerLength_le_max : kind.headerLength ≤ kind.type.maxHeaderLength := by
  cases kind with
  | write targetOffset dataLength =>
    have hmax : (RecordKind.write targetOffset dataLength).type.maxHeaderLength = 23 := rfl
    have ho := encodedLength_word64 targetOffset
    have hd := encodedLength_word32 dataLength
    simp only [headerLength, Layout.tagLength, Layout.timestampLength]
    omega
  | length oldLength newLength =>
    have hmax : (RecordKind.length oldLength newLength).type.maxHeaderLength = 27 := rfl
    have ho := encodedLength_word64 oldLength
    have hn := encodedLength_word64 newLength
    simp only [headerLength, Layout.tagLength, Layout.timestampLength]
    omega

/-- A header is no longer than the longest one. -/
theorem headerLength_le : kind.headerLength ≤ Layout.maxHeaderLength := by
  have hmax : kind.type.maxHeaderLength ≤ Layout.maxHeaderLength := by
    cases kind.type <;> decide
  exact Nat.le_trans kind.headerLength_le_max hmax

end RecordKind

namespace Record

variable (r : Record) (payload : Bytes)

/-- A header depends on the microseconds and the kind only. -/
theorem header_congr (other : Record) (htime : r.timestamp.micros = other.timestamp.micros)
    (hkind : r.kind = other.kind) : r.header = other.header := by
  unfold header headerFields type
  rw [hkind]
  simp only [List.flatMap_cons, FieldValue.encode, htime]

/-- An encoding depends on the offset, the microseconds and the kind only. -/
theorem image_congr (other : Record) (hoffset : r.journalOffset = other.journalOffset)
    (htime : r.timestamp.micros = other.timestamp.micros) (hkind : r.kind = other.kind) :
    r.image payload = other.image payload := by
  unfold image trailer headerLength dataLength type
  rw [r.header_congr other htime hkind, hoffset, hkind]

/-- The trailer has the header length. -/
@[simp] theorem toNat_headerLength_trailer :
    (r.trailer payload).headerLength.toNat = r.headerLength := by
  have h := r.kind.headerLength_le
  have hmax : Layout.maxHeaderLength = 27 := rfl
  simp only [trailer, headerLength, UInt8.toNat_ofNat']
  omega

/-- The trailer has the payload length. -/
@[simp] theorem toNat_dataLength_trailer :
    (r.trailer payload).dataLength.toNat = r.dataLength := by
  have h := r.kind.dataLength_lt
  simp only [Layout.offsetLimit, UInt64.size] at h
  simp only [trailer, dataLength, UInt64.toNat_ofNat']
  omega

/-- A record's own trailer agrees with its header. -/
theorem checkHeader_trailer : (r.trailer payload).checkHeader r r.headerLength = .ok () :=
  Trailer.checkHeader_eq_ok_iff.mpr
    ⟨rfl, r.toNat_headerLength_trailer payload, r.toNat_dataLength_trailer payload⟩

/-- A trailer that agrees with the header and has the checksum is the record's own. -/
theorem eq_trailer_of_checkHeader {t : Trailer} (h : t.checkHeader r r.headerLength = .ok ())
    (hsum : ((headerChecksum r.journalOffset r.header).update payload).value = t.checksum) :
    t = r.trailer payload := by
  obtain ⟨htag, hheader, hdata⟩ := Trailer.checkHeader_eq_ok_iff.mp h
  obtain ⟨checksum, headerLength, dataLength, tag⟩ := t
  have hh : headerLength = (r.trailer payload).headerLength := by
    rw [← UInt8.toNat_inj, toNat_headerLength_trailer]
    exact hheader
  have hd : dataLength = (r.trailer payload).dataLength := by
    rw [← UInt64.toNat_inj, toNat_dataLength_trailer]
    exact hdata
  dsimp only at htag hsum
  rw [htag, ← hsum, hh, hd]
  rfl

/-- A window that begins with a header holds it in its first `headerLength` bytes. -/
theorem window_headerLength {journal rest : Bytes} {start n : Nat}
    (h : journal.window start n = r.header ++ rest) :
    journal.window start r.headerLength = r.header := by
  have hlen := congrArg List.length h
  rw [Bytes.length_window_eq_min, List.length_append, length_header] at hlen
  have htake := congrArg (List.take r.headerLength) h
  rw [take_header_append, Bytes.take_window, Nat.min_eq_left (by omega)] at htake
  exact htake

/-- A journal holds the encoding of a record with `payload` at the record's offset. -/
structure StandsIn (journal : Bytes) : Prop where
  start_le : Layout.journalStart ≤ r.journalOffset
  stored : r.timestamp.IsStored
  fitsOffsets : r.kind.FitsOffsets
  length_payload : payload.length = r.dataLength
  window_eq : journal.window r.journalOffset r.encodedLength = r.image payload

/-- A record is longer than its trailer. -/
theorem trailerLength_lt_encodedLength : Layout.trailerLength < r.encodedLength := by
  have h := r.kind.minHeaderLength_le
  have hmin : Layout.minHeaderLength = 11 := rfl
  simp only [encodedLength, headerLength]
  omega

/-- A record ends past its header, payload and trailer. -/
theorem endOffset_eq :
    r.endOffset = r.journalOffset + r.headerLength + r.dataLength + Layout.trailerLength := by
  simp only [endOffset, encodedLength, Nat.add_assoc]

/-- The payload ends where the trailer starts. -/
theorem payloadOffset_add_dataLength :
    r.payloadOffset + r.dataLength = r.endOffset - Layout.trailerLength := by
  rw [endOffset_eq, Nat.add_sub_cancel]
  rfl

namespace StandsIn

variable {r payload} {journal : Bytes}

/-- A record that stands in a journal ends inside it. -/
theorem endOffset_le (h : r.StandsIn payload journal) : r.endOffset ≤ journal.length := by
  have hpos := r.trailerLength_lt_encodedLength
  apply Bytes.add_le_length_of_window (by omega)
  rw [h.window_eq, length_image h.length_payload]

/-- The journal holds header, payload and trailer one after another iff it holds each in its
place. -/
theorem window_eq_iff {t : Trailer} (hp : payload.length = r.dataLength)
    (hend : r.endOffset ≤ journal.length) :
    journal.window r.journalOffset r.encodedLength = r.header ++ payload ++ t.encode ↔
      journal.window r.journalOffset r.headerLength = r.header ∧
      journal.window r.payloadOffset r.dataLength = payload ∧
      journal.window (r.endOffset - Layout.trailerLength) Layout.trailerLength = t.encode := by
  have hlen {start length : Nat} (h : start + length ≤ r.endOffset) :
      (journal.window start length).length = length := Bytes.length_window (by omega)
  have hend' : r.endOffset = r.payloadOffset + r.dataLength + Layout.trailerLength :=
    r.endOffset_eq
  have hoffset : r.payloadOffset = r.journalOffset + r.headerLength := rfl
  have hsplit : journal.window r.journalOffset r.encodedLength =
      journal.window r.journalOffset r.headerLength ++
      journal.window r.payloadOffset r.dataLength ++
      journal.window (r.endOffset - Layout.trailerLength) Layout.trailerLength := by
    rw [← payloadOffset_add_dataLength, encodedLength, Bytes.window_add, Bytes.window_add,
      ← Nat.add_assoc]
    rfl
  rw [hsplit]
  constructor
  · intro h
    obtain ⟨hfront, htrailer⟩ := List.append_inj h (by
      rw [List.length_append, List.length_append, hlen (by omega), hlen (by omega),
        length_header, hp])
    obtain ⟨hheader, hpayload⟩ := List.append_inj hfront (by
      rw [hlen (by omega), length_header])
    exact ⟨hheader, hpayload, htrailer⟩
  · rintro ⟨hheader, hpayload, htrailer⟩
    rw [hheader, hpayload, htrailer]

/-- The header, payload and trailer of a record that stands in a journal. -/
theorem windows (h : r.StandsIn payload journal) :
    journal.window r.journalOffset r.headerLength = r.header ∧
      journal.window r.payloadOffset r.dataLength = payload ∧
      journal.window (r.endOffset - Layout.trailerLength) Layout.trailerLength =
        (r.trailer payload).encode :=
  (window_eq_iff h.length_payload h.endOffset_le).mp h.window_eq

/-- The payload of a record that stands in a journal. -/
theorem window_payload (h : r.StandsIn payload journal) :
    journal.window r.payloadOffset r.dataLength = payload := h.windows.2.1

/-- A record stands where its encoding follows `journalOffset` bytes. -/
theorem of_append {before after : Bytes} (hstart : Layout.journalStart ≤ r.journalOffset)
    (hstored : r.timestamp.IsStored) (hfits : r.kind.FitsOffsets)
    (hp : payload.length = r.dataLength) (hbefore : before.length = r.journalOffset) :
    r.StandsIn payload (before ++ r.image payload ++ after) where
  start_le := hstart
  stored := hstored
  fitsOffsets := hfits
  length_payload := hp
  window_eq := by
    rw [← hbefore, ← length_image hp, Bytes.window_append_append]

/-- A record that ends inside a prefix of the journal stands there iff it stands in the journal. -/
theorem standsIn_take_iff {kept : Nat} (hend : r.endOffset ≤ kept) :
    r.StandsIn payload (journal.take kept) ↔ r.StandsIn payload journal := by
  have hwindow : Bytes.window (journal.take kept) r.journalOffset r.encodedLength =
      journal.window r.journalOffset r.encodedLength := Bytes.window_take hend
  constructor
  · rintro ⟨hstart, hstored, hfits, hp, hheld⟩
    exact ⟨hstart, hstored, hfits, hp, hwindow ▸ hheld⟩
  · rintro ⟨hstart, hstored, hfits, hp, hheld⟩
    exact ⟨hstart, hstored, hfits, hp, hwindow ▸ hheld⟩

end StandsIn
end Record
end UndoLog
