import UndoLog.Proofs.Checksum
import UndoLog.Proofs.Scan.Backward
import UndoLog.Proofs.Scan.Forward
import UndoLog.Record.Trailer

/-!
# Records in another place

A framed record is refused in both directions unless the checksum in its trailer is that of its
offset, header and payload. The checksum tells two offsets below 2^32 apart, because they differ in
no more than four bytes, so the bytes of a record are refused in every other place that low.

UndoJournal specification: section 4.
-/

namespace UndoLog

namespace Record

private theorem eq_of_headerChecksum {a b : Nat} {header payload : Bytes} (ha : a < UInt32.size)
    (hb : b < UInt32.size)
    (h : ((headerChecksum a header).update payload).value =
      ((headerChecksum b header).update payload).value) : a = b := by
  have hsplit {n : Nat} (hn : n < UInt32.size) :
      LittleEndian.encode 8 n = LittleEndian.encode 4 n ++ LittleEndian.encode 4 0 := by
    have hhigh : n / 256 / 256 / 256 / 256 = 0 := by
      have hsize : UInt32.size = 4294967296 := rfl
      omega
    simp only [LittleEndian.encode, hhigh, List.cons_append, List.nil_append]
  have hchecksum {n : Nat} (hn : n < UInt32.size) :
      (headerChecksum n header).update payload =
        Checksum.start.update
          (LittleEndian.encode 4 n ++ (LittleEndian.encode 4 0 ++ header ++ payload)) := by
    simp only [headerChecksum, hsplit hn, Checksum.update_append]
  have hdecode {n : Nat} (hn : n < UInt32.size) :
      LittleEndian.decode (LittleEndian.encode 4 n) = n := LittleEndian.decode_encode hn
  rw [hchecksum ha, hchecksum hb] at h
  have hlow : LittleEndian.encode 4 a = LittleEndian.encode 4 b := by
    apply Checksum.eq_of_value_update _ _ h
    · rw [LittleEndian.length_encode, LittleEndian.length_encode]
    · rw [LittleEndian.length_encode]
  rw [← hdecode ha, hlow, hdecode hb]

namespace FramedBy

variable {r : Record} {t : Trailer} {journal : Bytes}

/-- A framed record without its checksum in the trailer is refused backward. -/
theorem resultOn_backward_of_ne (h : r.FramedBy t journal)
    (hsum : r.checksumIn journal ≠ t.checksum) :
    ∃ damage, (ScanTask.backward r.endOffset).resultOn journal =
      .error (.corruptRecord r.journalOffset damage) := by
  have hin := h.endOffset_le
  have hstart := h.start_le
  have hlonger := r.trailerLength_lt_encodedLength
  have hend : r.endOffset = r.journalOffset + r.encodedLength := rfl
  rw [ScanTask.resultOn_backward, if_pos ⟨by omega, hin⟩, if_neg (by omega), if_neg (by omega),
    BackwardScan.resultOn_of_framedBy h rfl rfl]
  cases r.kind.checkOffsets with
  | error damage => exact ⟨damage, rfl⟩
  | ok value =>
    refine ⟨.checksumMismatch t.checksum (r.checksumIn journal), ?_⟩
    dsimp only
    rw [BackwardScan.outcome_payload h, Trailer.checkSum_of_ne hsum]

/-- A framed record without its checksum in the trailer is refused forward, for every target
length. -/
theorem resultOn_forward_of_ne (h : r.FramedBy t journal)
    (hlimit : r.endOffset < Layout.offsetLimit) (hsum : r.checksumIn journal ≠ t.checksum)
    (targetLength : Nat) :
    ∃ damage, (ScanTask.forward r.journalOffset targetLength true).resultOn journal =
      .error (.corruptRecord r.journalOffset damage) := by
  obtain ⟨other, hframed, hsame⟩ | hcorrupt := ScanTask.framedBy_or_corrupt h.start_le h.stored
    h.header_eq h.endOffset_le hlimit targetLength
  · have hencode := hframed.trailer_eq
    rw [h.trailer_eq] at hencode
    rw [← Trailer.eq_of_encode hencode] at hsame
    exact absurd hsame hsum
  · exact hcorrupt

end FramedBy

end Record

/-- The encoding of a record is refused at every offset but its own, if both are below 2^32:
backward from its end, and forward from its start for every target length. -/
theorem relocated_record_is_corrupt {origin place : Nat} (hne : origin ≠ place)
    (horigin : origin < UInt32.size) (hplace : place < UInt32.size)
    (hstart : Layout.journalStart ≤ place) {timestamp : Timestamp}
    (htime : (Timestamp.ofMicros? timestamp.micros).isSome) {kind : RecordKind}
    {payload image journal : Bytes}
    (hencode : (⟨origin, timestamp, kind⟩ : Record).encode payload = .ok image)
    (hlen : journal.length < Layout.offsetLimit)
    (hheld : journal.window place image.length = image) :
    (∃ damage, (ScanTask.backward (place + image.length)).resultOn journal =
        .error (.corruptRecord place damage)) ∧
      ∀ targetLength, ∃ damage, (ScanTask.forward place targetLength true).resultOn journal =
        .error (.corruptRecord place damage) := by
  obtain ⟨stored, hstored⟩ := Option.isSome_iff_exists.mp htime
  have hmicros := Timestamp.micros_of_ofMicros? hstored
  let r : Record := ⟨origin, stored, kind⟩
  obtain ⟨hp, rfl⟩ := Record.encode_eq_ok_iff.mp hencode
  have himage : (⟨origin, timestamp, kind⟩ : Record).image payload = r.image payload :=
    Record.image_congr _ payload r rfl hmicros.symm rfl
  have hlength : (r.image payload).length = r.encodedLength := Record.length_image hp
  rw [himage, hlength] at hheld ⊢
  have hisStored : r.timestamp.IsStored := by
    unfold Timestamp.IsStored
    rw [hmicros]
    exact hstored
  obtain ⟨hframed, hchecksum⟩ := Record.framedBy_of_window_eq hstart hisStored hp hheld
  have hsum : ({ r with journalOffset := place } : Record).checksumIn journal ≠
      (r.trailer payload).checksum := by
    rw [hchecksum]
    intro h
    exact hne (Record.eq_of_headerChecksum hplace horigin h).symm
  constructor
  · exact hframed.resultOn_backward_of_ne hsum
  · intro targetLength
    exact hframed.resultOn_forward_of_ne (Nat.lt_of_le_of_lt hframed.endOffset_le hlen) hsum
      targetLength

/-- A write of two bytes followed by a copy of its encoding, which is no record. -/
theorem relocated_record_is_corrupt_of_copy :
    let record : Record := ⟨8, ⟨0, 0, by decide, by decide⟩, .write 3 2⟩
    let journal := Layout.magic ++ record.image [1, 2] ++ record.image [1, 2]
    record.encode [1, 2] = .ok (record.image [1, 2]) ∧
      journal.window 37 29 = record.image [1, 2] ∧
      (∃ damage, (ScanTask.backward 66).resultOn journal = .error (.corruptRecord 37 damage)) ∧
      ∃ damage, (ScanTask.forward 37 9 true).resultOn journal =
        .error (.corruptRecord 37 damage) := by
  intro record journal
  have hencode : record.encode [1, 2] = .ok (record.image [1, 2]) :=
    Record.encode_eq_ok_iff.mpr ⟨rfl, rfl⟩
  have hlength : (record.image [1, 2]).length = 29 := Record.length_image rfl
  have hlen : journal.length < Layout.offsetLimit := by
    rw [List.length_append, List.length_append, hlength]
    decide
  have hheld : journal.window 37 (record.image [1, 2]).length = record.image [1, 2] := by
    have hplace : (Layout.magic ++ record.image [1, 2]).length = 37 := by
      rw [List.length_append, hlength, Layout.length_magic]
      rfl
    have h := Bytes.window_append_append (Layout.magic ++ record.image [1, 2])
      (record.image [1, 2]) []
    rw [List.append_nil, hplace] at h
    exact h
  obtain ⟨hbackward, hforward⟩ := relocated_record_is_corrupt (by decide) (by decide) (by decide)
    (by decide) (by decide) hencode hlen hheld
  rw [hlength] at hheld hbackward
  exact ⟨hencode, hheld, hbackward, hforward 9⟩

end UndoLog
