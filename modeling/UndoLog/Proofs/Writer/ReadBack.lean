import UndoLog.Proofs.Scan.Backward
import UndoLog.Proofs.Writer

/-!
# What is read back of a written record

A record is written with the microseconds of its timestamp, and read back with the timestamp that
these give. Outside leap seconds that is the timestamp cut to microseconds, which the writer tells.
In a leap second it is one in the second after it; after the last second of all there is none, and
what was written cannot be read.
-/

namespace UndoLog

namespace Timestamp

variable {t : Timestamp}

private theorem isLeap_truncateToMicros (hleap : t.IsLeap) : t.truncateToMicros.IsLeap := by
  have hnanos : t.truncateToMicros.nanos = t.nanos - t.nanos % 1000 := rfl
  simp only [IsLeap] at hleap ⊢
  omega

private theorem exists_ofMicros?_of_isLeap (hleap : t.IsLeap) (hlast : t.seconds ≠ maxSeconds) :
    ∃ later, ofMicros? t.micros = some later ∧ later.seconds = t.seconds + 1 ∧
      later.nanos + 1000000000 = t.truncateToMicros.nanos := by
  have hs := t.seconds_mem
  have hn := t.nanos_lt
  have hnanos : t.truncateToMicros.nanos = t.nanos - t.nanos % 1000 := rfl
  simp only [IsLeap, minSeconds, maxSeconds] at hleap hlast hs
  unfold ofMicros?
  rw [dif_pos (by simp only [minMicros, maxMicros, minSeconds, maxSeconds, micros]; omega)]
  refine ⟨_, rfl, ?_, ?_⟩
  · dsimp only [micros]
    omega
  · dsimp only [micros]
    omega

private theorem ofMicros?_eq_none_of_isLeap (hleap : t.IsLeap) (hlast : t.seconds = maxSeconds) :
    ofMicros? t.micros = none := by
  simp only [IsLeap, maxSeconds] at hleap hlast
  unfold ofMicros?
  rw [dif_neg]
  simp only [minMicros, maxMicros, minSeconds, maxSeconds, micros]
  omega

end Timestamp

namespace DecodedHeader

private theorem decode_cons_eq_error {unread : Bytes} {error : FieldError}
    (h : Field.timestamp unread = .error error) (type : RecordType) (offset : Nat) :
    decode offset (type.tag :: unread) = .error (.field Layout.tagLength error) := by
  have htag : field (type.tag :: unread) Field.byte (type.tag :: unread) =
      .ok (type.tag, unread) := rfl
  have hposition : (type.tag :: unread).length - unread.length = Layout.tagLength :=
    Nat.add_sub_cancel_left _ _
  have htime : field (type.tag :: unread) Field.timestamp unread =
      .error (.field Layout.tagLength error) := by
    unfold field
    rw [h, hposition]
    rfl
  unfold decode
  simp only [htag, bind, Except.bind, RecordType.ofTag?_tag, htime]

private theorem decode_header_eq_error {r : Record}
    (h : Timestamp.ofMicros? r.timestamp.micros = none) (offset : Nat) :
    decode offset r.header =
      .error (.field Layout.tagLength (.timestampOutOfRange r.timestamp.micros)) := by
  have htake (rest : Bytes) :
      Field.take 8 (LittleEndian.encodeSigned 8 r.timestamp.micros ++ rest) =
        .ok (LittleEndian.encodeSigned 8 r.timestamp.micros, rest) :=
    Field.take_eq_ok_iff.mpr ⟨LittleEndian.length_encodeSigned 8 _, rfl⟩
  have hread := Field.decodeSigned_encodeSigned_micros r.timestamp
  exact decode_cons_eq_error
    (Field.timestamp_eq_error_iff.mpr (.inr ⟨_, _, htake _, by rw [hread, h], by rw [hread]⟩))
    r.type offset

end DecodedHeader

namespace ScanTask

variable {before payload : Bytes} {r : Record}

/-- At the end of an appended record a backward scan finds the record with the timestamp decoded
from its microseconds, or corruption if there is none. -/
private theorem resultOn_backward_append (hstart : Layout.journalStart ≤ before.length)
    (hoffset : r.journalOffset = before.length) (hfits : r.kind.FitsOffsets)
    (hp : payload.length = r.dataLength) :
    let journal := before ++ r.image payload
    (ScanTask.backward journal.length).resultOn journal =
      match Timestamp.ofMicros? r.timestamp.micros with
      | some stored => .ok (some ⟨{ r with timestamp := stored }, r.journalOffset⟩)
      | none => .error (.corruptRecord journal.length
          (.header r.journalOffset (.timestampOutOfRange r.timestamp.micros))) := by
  intro journal
  have hlen : journal.length = r.endOffset := by
    rw [List.length_append, Record.length_image hp, ← hoffset]
    rfl
  have hjournal : journal = before ++ r.image payload ++ [] := (List.append_nil _).symm
  cases hstored : Timestamp.ofMicros? r.timestamp.micros with
  | some stored =>
    let read : Record := { r with timestamp := stored }
    have hsame : r.image payload = read.image payload :=
      r.image_congr payload read rfl (Timestamp.micros_of_ofMicros? hstored).symm rfl
    have hstands : read.StandsIn payload journal := by
      rw [hjournal, hsame]
      exact .of_append (hoffset ▸ hstart) (Timestamp.ofMicros?_eq_some_iff.mp hstored).1 hfits hp
        hoffset.symm
    exact resultOn_backward_eq_some_iff.mpr ⟨hlen.symm, rfl, payload, hstands⟩
  | none =>
    have hwindow : journal.window r.journalOffset r.encodedLength = r.image payload := by
      rw [hjournal, hoffset, ← Record.length_image hp, Bytes.window_append_append]
    obtain ⟨hheader, -, htrailer⟩ :=
      (Record.StandsIn.window_eq_iff hp (Nat.le_of_eq hlen.symm)).mp hwindow
    have hlonger := r.trailerLength_lt_encodedLength
    have hend : r.endOffset = r.journalOffset + r.encodedLength := rfl
    rw [resultOn_backward, if_pos (by omega), if_neg (by omega), if_neg (by omega),
      BackwardScan.resultOn_of_trailer (hoffset ▸ hstart) (Nat.le_of_eq hlen.symm) htrailer
        (r.checkHeader_trailer payload) hlen rfl, hheader]
    unfold BackwardScan.afterHeader
    rw [DecodedHeader.decode_header_eq_error hstored]
    rfl

end ScanTask

/-- The record returned by a writer is found by a backward scan at the end of the journal iff its
timestamp is in no leap second. For a leap second the scan finds the second after it, and for the
last one an accepted record cannot be read. -/
theorem returned_record_is_read_back {w after : Writer MemoryStorage} {step : BuilderStep}
    {timestamp : Timestamp} {record : Record}
    (hstart : Layout.journalStart ≤ w.storage.data.length)
    (haccepted : w.record step timestamp = (.ok record, after)) :
    let journal := after.storage.data
    let scanned := (ScanTask.backward journal.length).resultOn journal
    (scanned = .ok (some ⟨record, record.journalOffset⟩) ↔ ¬ timestamp.IsLeap) ∧
      (timestamp.IsLeap → timestamp.seconds ≠ Timestamp.maxSeconds →
        ∃ later, later.seconds = record.timestamp.seconds + 1 ∧
          later.nanos + 1000000000 = record.timestamp.nanos ∧
          scanned = .ok (some ⟨{ record with timestamp := later }, record.journalOffset⟩)) ∧
      (timestamp.IsLeap → timestamp.seconds = Timestamp.maxSeconds →
        scanned = .error (.corruptRecord journal.length
          (.header record.journalOffset (.timestampOutOfRange timestamp.micros)))) := by
  have hwritable : step.IsWritable := Writer.record_memory_isOk_iff.mp ⟨record, after, haccepted⟩
  rw [Writer.record_of_isWritable hwritable, Writer.appendRecord_memory hwritable.length_payload]
    at haccepted
  cases haccepted
  intro journal scanned
  let record : Record := ⟨w.storage.data.length, timestamp.truncateToMicros, step.kind⟩
  have hscanned : scanned = _ := ScanTask.resultOn_backward_append (r := record) hstart rfl
    hwritable.fitsOffsets hwritable.length_payload
  rw [show record.timestamp.micros = timestamp.micros from timestamp.micros_truncateToMicros]
    at hscanned
  refine ⟨⟨?_, ?_⟩, ?_, ?_⟩
  · intro hfound hleap
    obtain ⟨-, -, _, hstands⟩ := ScanTask.resultOn_backward_eq_some_iff.mp hfound
    exact (Timestamp.isStored_iff.mp hstands.stored).1 (Timestamp.isLeap_truncateToMicros hleap)
  · intro hleap
    rw [hscanned, Timestamp.ofMicros?_micros hleap]
  · intro hleap hlast
    obtain ⟨later, hlater, hseconds, hnanos⟩ := Timestamp.exists_ofMicros?_of_isLeap hleap hlast
    exact ⟨later, hseconds, hnanos, by rw [hscanned, hlater]⟩
  · intro hleap hlast
    rw [hscanned, Timestamp.ofMicros?_eq_none_of_isLeap hleap hlast]

/-- A write in the leap second at the end of 2016. -/
theorem returned_record_is_read_back_of_leap :
    let leap : Timestamp := ⟨1483228799, 1500000000, by decide, by decide⟩
    let w := Writer.fresh true
    let written := w.record (.write 0 [7]) leap
    let record : Record := ⟨8, leap, .write 0 1⟩
    let journal := written.2.storage.data
    let scanned := (ScanTask.backward journal.length).resultOn journal
    Layout.journalStart ≤ w.storage.data.length ∧ written = (.ok record, written.2) ∧
      (scanned = .ok (some ⟨record, record.journalOffset⟩) ↔ ¬ leap.IsLeap) ∧
      leap.IsLeap ∧ leap.seconds ≠ Timestamp.maxSeconds ∧
      ∃ later, later.seconds = record.timestamp.seconds + 1 ∧
        later.nanos + 1000000000 = record.timestamp.nanos ∧
        scanned = .ok (some ⟨{ record with timestamp := later }, record.journalOffset⟩) := by
  intro leap w written record journal scanned
  have hstart : Layout.journalStart ≤ w.storage.data.length := by decide +kernel
  have haccepted : written = (.ok record, written.2) := Prod.ext (by decide +kernel) rfl
  have hleap : leap.IsLeap := by decide
  have hlast : leap.seconds ≠ Timestamp.maxSeconds := by decide
  obtain ⟨hiff, hlater, -⟩ := returned_record_is_read_back hstart haccepted
  exact ⟨hstart, haccepted, hiff, hleap, hlast, hlater hleap hlast⟩

/-- In a leap second the record returned is not the record found. -/
theorem returned_record_can_differ_in_leap_second :
    let leap : Timestamp := ⟨1483228799, 1500000000, by decide, by decide⟩
    let written := (Writer.fresh true).record (.write 0 [7]) leap
    let journal := written.2.storage.data
    ∃ record found, written.1 = .ok record ∧
      (ScanTask.backward journal.length).resultOn journal = .ok (some found) ∧
      found.record ≠ record := by
  intro leap written journal
  let later : Timestamp := ⟨1483228800, 500000000, by decide, by decide⟩
  refine ⟨⟨8, leap, .write 0 1⟩, ⟨⟨8, later, .write 0 1⟩, 8⟩, ?_, ?_, ?_⟩
  · decide +kernel
  · decide +kernel
  · decide

end UndoLog
