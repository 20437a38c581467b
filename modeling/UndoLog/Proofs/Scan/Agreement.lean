import UndoLog.Proofs.Scan.Backward
import UndoLog.Proofs.Scan.Forward
import UndoLog.Record.Trailer

/-!
# Scans accept what records are written as

A scan backward accepts exactly the bytes that a record is written as, on arbitrary bytes. A scan
forward that verifies accepts the same ones, provided the record fits the length that the target
had, so the two directions find the same records.

UndoJournal specification: section 5.4, step 8, and section 11.
-/

namespace UndoLog

namespace Record

variable {r : Record} {journal : Bytes}

/-- A record stands in a journal and ends at a position iff the journal holds its encoding there,
with the bytes in the place of the payload. -/
theorem standsIn_iff_encode {cursor : Nat} :
    (r.endOffset = cursor ∧ ∃ payload, r.StandsIn payload journal) ↔
      Layout.journalStart ≤ r.journalOffset ∧ r.journalOffset < cursor ∧
        cursor ≤ journal.length ∧ r.timestamp.IsStored ∧ r.kind.FitsOffsets ∧
        r.encode (journal.window r.payloadOffset
            (cursor - Layout.trailerLength - r.payloadOffset)) =
          .ok (journal.window r.journalOffset (cursor - r.journalOffset)) := by
  have hlonger := r.trailerLength_lt_encodedLength
  have hafter := r.payloadOffset_add_dataLength
  constructor
  · rintro ⟨rfl, payload, h⟩
    have hin := h.endOffset_le
    have hpayload : r.endOffset - Layout.trailerLength - r.payloadOffset = r.dataLength := by
      omega
    have hrecord : r.endOffset - r.journalOffset = r.encodedLength := by
      unfold endOffset
      omega
    refine ⟨h.start_le, ?_, hin, h.stored, h.fitsOffsets, ?_⟩
    · unfold endOffset
      omega
    · rw [hpayload, hrecord, h.window_payload, encode_eq_ok_iff]
      exact ⟨h.length_payload, h.window_eq⟩
  · rintro ⟨hstart, hlt, hin, hstored, hfits, hencode⟩
    obtain ⟨hpayload, hwindow⟩ := encode_eq_ok_iff.mp hencode
    have hlen := congrArg List.length hwindow
    rw [Bytes.length_window (by omega), length_image hpayload] at hlen
    refine ⟨?_, _, hstart, hstored, hfits, hpayload, ?_⟩
    · unfold endOffset
      omega
    · rw [← hlen]
      exact hwindow

end Record

/-- A backward scan finds a record iff the bytes from the record's start to the position are its
encoding, with the bytes between header and trailer as payload. The timestamp is then a whole number
of microseconds outside leap seconds, and the saved bytes of a write lie below the offset limit. -/
theorem backward_finds_iff_encoded (journal : Bytes) (cursor start : Nat) (record : Record) :
    (ScanTask.backward cursor).resultOn journal = .ok (some ⟨record, start⟩) ↔
      Layout.journalStart ≤ start ∧ start < cursor ∧ cursor ≤ journal.length ∧
        record.journalOffset = start ∧
        (record.timestamp.nanos % 1000 = 0 ∧ ¬ record.timestamp.IsLeap ∧
          (Timestamp.ofMicros? record.timestamp.micros).isSome) ∧
        record.kind.FitsOffsets ∧
        record.encode (journal.window (start + record.headerLength)
            (cursor - Layout.trailerLength - (start + record.headerLength))) =
          .ok (journal.window start (cursor - start)) := by
  have hstored : (record.timestamp.nanos % 1000 = 0 ∧ ¬ record.timestamp.IsLeap ∧
      (Timestamp.ofMicros? record.timestamp.micros).isSome) ↔ record.timestamp.IsStored := by
    constructor
    · rintro ⟨hwhole, hleap, -⟩
      exact Timestamp.isStored_iff.mpr ⟨hleap, hwhole⟩
    · intro h
      obtain ⟨hleap, hwhole⟩ := Timestamp.isStored_iff.mp h
      refine ⟨hwhole, hleap, ?_⟩
      rw [show Timestamp.ofMicros? record.timestamp.micros = some record.timestamp from h]
      rfl
  rw [ScanTask.resultOn_backward_eq_some_iff, hstored]
  constructor
  · rintro ⟨hend, rfl, hstands⟩
    obtain ⟨hstart, hlt, hin, htime, hfits, hencode⟩ :=
      Record.standsIn_iff_encode.mp ⟨hend, hstands⟩
    exact ⟨hstart, hlt, hin, rfl, htime, hfits, hencode⟩
  · rintro ⟨hstart, hlt, hin, rfl, htime, hfits, hencode⟩
    obtain ⟨hend, hstands⟩ :=
      Record.standsIn_iff_encode.mpr ⟨hstart, hlt, hin, htime, hfits, hencode⟩
    exact ⟨hend, rfl, hstands⟩

/-- A record found by a verifying forward scan fits the target and is found by a backward scan from
its end. A record found backward is found by a verifying forward scan for every target length that
it fits, and is corrupt for every other. -/
theorem forward_backward_agree (journal : Bytes) (hlen : journal.length < Layout.offsetLimit)
    (cursor : Nat) (targetLength : UInt64) :
    (∀ record next,
      (ScanTask.forward cursor targetLength.toNat true).resultOn journal =
          .ok (some ⟨record, next⟩) →
        record.kind.FitsTarget targetLength.toNat ∧
          (ScanTask.backward next).resultOn journal = .ok (some ⟨record, cursor⟩)) ∧
    (∀ record start,
      (ScanTask.backward cursor).resultOn journal = .ok (some ⟨record, start⟩) →
        (record.kind.FitsTarget targetLength.toNat →
          (ScanTask.forward start targetLength.toNat true).resultOn journal =
            .ok (some ⟨record, cursor⟩)) ∧
        (¬ record.kind.FitsTarget targetLength.toNat →
          ∃ damage, (ScanTask.forward start targetLength.toNat true).resultOn journal =
            .error (.corruptRecord start damage))) := by
  constructor
  · intro record next h
    obtain ⟨hstart, hnext, hfits, -, hstands⟩ :=
      (ScanTask.resultOn_forward_eq_some_iff targetLength.toNat_lt).mp h
    exact ⟨hfits, ScanTask.resultOn_backward_eq_some_iff.mpr ⟨hnext, hstart, hstands⟩⟩
  · intro record start h
    obtain ⟨rfl, rfl, payload, hstands⟩ := ScanTask.resultOn_backward_eq_some_iff.mp h
    constructor
    · intro hfits
      exact ScanTask.resultOn_forward_of_standsIn hstands hfits
        (Nat.lt_of_le_of_lt hstands.endOffset_le hlen) true
    · intro hfits
      exact ScanTask.resultOn_forward_of_not_fitsTarget hstands.start_le hstands.stored
        hstands.windows.1 hfits

/-- A write of two bytes is found in both directions over a target of nine bytes, and is corrupt
forward over a target of four. -/
theorem forward_backward_agree_on_write :
    let record : Record := ⟨8, ⟨0, 0, by decide, by decide⟩, .write 3 2⟩
    let journal := Layout.magic ++ record.image [1, 2]
    journal.length < Layout.offsetLimit ∧
      (ScanTask.forward 8 9 true).resultOn journal = .ok (some ⟨record, 37⟩) ∧
      (ScanTask.backward 37).resultOn journal = .ok (some ⟨record, 8⟩) ∧
      ∃ damage, (ScanTask.forward 8 4 true).resultOn journal =
        .error (.corruptRecord 8 damage) := by
  intro record journal
  have hstands : record.StandsIn [1, 2] journal := by
    have h : record.StandsIn [1, 2] (Layout.magic ++ record.image [1, 2] ++ []) :=
      .of_append (by decide) (by decide) (by decide) rfl rfl
    rw [List.append_nil] at h
    exact h
  have hlen : journal.length < Layout.offsetLimit := by
    have himage : (record.image [1, 2]).length = record.encodedLength := Record.length_image rfl
    rw [List.length_append, himage]
    decide
  have hforward := ScanTask.resultOn_forward_of_standsIn hstands
    (by decide : record.kind.FitsTarget 9) (by decide) true
  have hbackward := ((forward_backward_agree journal hlen 8 9).1 record 37 hforward).2
  exact ⟨hlen, hforward, hbackward,
    ((forward_backward_agree journal hlen 37 4).2 record 8 hbackward).2 (by decide)⟩

end UndoLog
