import UndoLog.Proofs.Record.Placed

/-!
# Records in a frame

`Record.FramedBy` says that a journal holds the header of a record at the record's own offset, and
a trailer that agrees with it where the record ends. That is all a scan has seen before it compares
the checksum: the record stands in the journal if the checksum is that of header and payload.
-/

namespace UndoLog.Record

variable {r : Record} {t : Trailer} {payload journal : Bytes}

/-- The checksum of a record's header and of the bytes in the place of its payload. -/
def checksumIn (r : Record) (journal : Bytes) : UInt32 :=
  ((headerChecksum r.journalOffset r.header).update
    (journal.window r.payloadOffset r.dataLength)).value

/-- A journal holds the header of a record in its place and, where the record ends, a trailer that
agrees with the header. -/
structure FramedBy (r : Record) (t : Trailer) (journal : Bytes) : Prop where
  start_le : Layout.journalStart ≤ r.journalOffset
  stored : r.timestamp.IsStored
  endOffset_le : r.endOffset ≤ journal.length
  header_eq : journal.window r.journalOffset r.headerLength = r.header
  trailer_eq : journal.window (r.endOffset - Layout.trailerLength) Layout.trailerLength = t.encode
  agrees : t.checkHeader r r.headerLength = .ok ()

/-- A record that stands in a journal is framed by its own trailer. -/
theorem StandsIn.framedBy (h : r.StandsIn payload journal) :
    r.FramedBy (r.trailer payload) journal where
  start_le := h.start_le
  stored := h.stored
  endOffset_le := h.endOffset_le
  header_eq := h.windows.1
  trailer_eq := h.windows.2.2
  agrees := r.checkHeader_trailer payload

/-- The checksum of a record that stands in a journal is that of its trailer. -/
theorem StandsIn.checksumIn_eq (h : r.StandsIn payload journal) :
    r.checksumIn journal = (r.trailer payload).checksum := by
  unfold checksumIn
  rw [h.window_payload]
  rfl

namespace FramedBy

/-- A decoded header and a trailer that agrees with it frame the record. -/
theorem of_decode (hstart : Layout.journalStart ≤ r.journalOffset)
    (hstored : r.timestamp.IsStored) (hend : r.endOffset ≤ journal.length)
    (hheader : journal.window r.journalOffset r.headerLength = r.header)
    (hdecode : Trailer.decode
      (journal.window (r.endOffset - Layout.trailerLength) Layout.trailerLength) = .ok t)
    (hagrees : t.checkHeader r r.headerLength = .ok ()) : r.FramedBy t journal where
  start_le := hstart
  stored := hstored
  endOffset_le := hend
  header_eq := hheader
  trailer_eq := by
    have htotal := r.endOffset_eq
    exact Trailer.eq_encode_of_decode hdecode (Bytes.length_window (by omega))
  agrees := hagrees

/-- The payload of a framed record lies inside the journal. -/
theorem payload_le (h : r.FramedBy t journal) :
    r.payloadOffset + r.dataLength ≤ journal.length := by
  have hend := h.endOffset_le
  rw [r.payloadOffset_add_dataLength]
  omega

/-- The trailer of a framed record has the lengths of the record. -/
theorem lengths_eq (h : r.FramedBy t journal) :
    t.headerLength.toNat = r.headerLength ∧ t.dataLength.toNat = r.dataLength :=
  (Trailer.checkHeader_eq_ok_iff.mp h.agrees).2

/-- The checksum of a framed record is that of its offset and of the bytes before its trailer. -/
theorem checksumIn_eq (h : r.FramedBy t journal) :
    r.checksumIn journal =
      ((Checksum.start.update (LittleEndian.encode 8 r.journalOffset)).update
        (journal.window r.journalOffset (r.headerLength + r.dataLength))).value := by
  rw [Bytes.window_add, h.header_eq, Checksum.update_append]
  rfl

/-- A framed record with its checksum in the trailer, whose saved bytes lie below the offset limit,
stands in the journal. -/
theorem standsIn (h : r.FramedBy t journal) (hfits : r.kind.FitsOffsets)
    (hsum : r.checksumIn journal = t.checksum) :
    r.StandsIn (journal.window r.payloadOffset r.dataLength) journal := by
  have hp : (journal.window r.payloadOffset r.dataLength).length = r.dataLength :=
    Bytes.length_window h.payload_le
  have htrailer := h.trailer_eq
  rw [r.eq_trailer_of_checkHeader _ h.agrees hsum] at htrailer
  exact ⟨h.start_le, h.stored, hfits, hp,
    (StandsIn.window_eq_iff hp h.endOffset_le).mpr ⟨h.header_eq, rfl, htrailer⟩⟩

end FramedBy

/-- Equal bytes in the place of a record frame the same record. -/
theorem framedBy_of_window_eq {place : Nat} (hstart : Layout.journalStart ≤ place)
    (hstored : r.timestamp.IsStored) (hp : payload.length = r.dataLength)
    (hheld : journal.window place r.encodedLength = r.image payload) :
    ({ r with journalOffset := place } : Record).FramedBy (r.trailer payload) journal ∧
      ({ r with journalOffset := place } : Record).checksumIn journal =
        ((headerChecksum place r.header).update payload).value := by
  let there : Record := { r with journalOffset := place }
  have hpos := r.trailerLength_lt_encodedLength
  have hend : there.endOffset ≤ journal.length := by
    apply Bytes.add_le_length_of_window (Nat.lt_of_le_of_lt (Nat.zero_le _) hpos)
    exact (congrArg List.length hheld).trans (length_image hp)
  have hparts : journal.window there.journalOffset there.encodedLength =
      there.header ++ payload ++ (r.trailer payload).encode := hheld
  have hdeclared : payload.length = there.dataLength := hp
  obtain ⟨hheader, hpayload, htrailer⟩ := (StandsIn.window_eq_iff hdeclared hend).mp hparts
  constructor
  · exact ⟨hstart, hstored, hend, hheader, htrailer, r.checkHeader_trailer payload⟩
  · show ((headerChecksum place there.header).update
      (journal.window there.payloadOffset there.dataLength)).value = _
    rw [hpayload]
    rfl

end UndoLog.Record
