import UndoLog.Proofs.Journal.Boundaries
import UndoLog.Proofs.Scan.CutShort
import UndoLog.Proofs.Writer

/-!
# Journals that end inside a record

What a writer was appending when it stopped is left as a record that is cut short. A scan forward
from its start tells so, and never that the record is damaged, with an end that lies past the cut
and no further than the record.

UndoJournal specification: section 5.3, steps 6 and 7.
-/

namespace UndoLog

open Journal

/-- A journal that a writer accepted, cut inside a record that fits the target, is truncated for a
forward scan from the record's start. The reported `recordEnd` is past the cut and at most the
record's end, with equality iff the header is complete. If it is not, the answer is the same for
every target length. -/
theorem torn_record_is_truncated {syncOnWrite : Bool} {calls : List (BuilderStep × Timestamp)}
    {records : List Record} {w : Writer MemoryStorage}
    (haccepted : (Writer.fresh syncOnWrite).recordAll? calls = some (records, w))
    (hleap : ∀ call ∈ calls, ¬ call.2.IsLeap)
    (hlen : w.storage.data.length < Layout.offsetLimit) {record : Record}
    (hrecord : record ∈ records) {cut : Nat} (hlo : record.journalOffset < cut)
    (hhi : cut < record.endOffset) :
    ∃ recordEnd, cut < recordEnd ∧ recordEnd ≤ record.endOffset ∧
      (recordEnd = record.endOffset ↔ record.payloadOffset ≤ cut) ∧
      (∀ targetLength verifyTrailer, record.kind.FitsTarget targetLength →
        (ScanTask.forward record.journalOffset targetLength verifyTrailer).resultOn
            (w.storage.data.take cut) =
          .error (.truncatedJournal record.journalOffset recordEnd cut)) ∧
      (cut < record.payloadOffset → ∀ targetLength verifyTrailer,
        (ScanTask.forward record.journalOffset targetLength verifyTrailer).resultOn
            (w.storage.data.take cut) =
          .error (.truncatedJournal record.journalOffset recordEnd cut)) := by
  obtain ⟨entries, hstored, hdata, rfl, -⟩ :=
    Writer.recordAll?_ofEntries (Writer.data_fresh syncOnWrite) hleap haccepted
  rw [List.nil_append] at hdata
  obtain ⟨payload, hstands⟩ := standsIn_of_mem_recordsFrom hstored hrecord
  rw [← hdata] at hstands
  have hlimit : record.endOffset < Layout.offsetLimit :=
    Nat.lt_of_le_of_lt hstands.endOffset_le hlen
  obtain ⟨recordEnd, hpast, hwithin, hwhole, hresult⟩ :=
    ScanTask.resultOn_forward_take hstands hlimit hlo hhi
  refine ⟨recordEnd, hpast, hwithin, hwhole.symm, ?fits, ?header⟩
  case fits =>
    intro targetLength verifyTrailer hfits
    exact hresult targetLength verifyTrailer (.inl hfits)
  case header =>
    intro hcut targetLength verifyTrailer
    exact hresult targetLength verifyTrailer (.inr hcut)

/-- A write of two bytes behind another, cut between the two bytes and inside the timestamp. -/
theorem torn_record_is_truncated_of_two :
    let epoch : Timestamp := ⟨0, 0, by decide, by decide⟩
    let second : Record := ⟨37, epoch, .write 3 2⟩
    ∃ records w,
      (Writer.fresh true).recordAll? [(.write 3 [1, 2], epoch), (.write 3 [5, 6], epoch)] =
          some (records, w) ∧
        second ∈ records ∧
        (ScanTask.forward 37 9 true).resultOn (w.storage.data.take 51) =
          .error (.truncatedJournal 37 66 51) ∧
        ∃ recordEnd, 40 < recordEnd ∧ recordEnd < 66 ∧
          (ScanTask.forward 37 0 false).resultOn (w.storage.data.take 40) =
            .error (.truncatedJournal 37 recordEnd 40) := by
  intro epoch second
  have hfacts : ((Writer.fresh true).recordAll?
      [(.write 3 [1, 2], epoch), (.write 3 [5, 6], epoch)]).map
        (fun result => (result.1, result.2.storage.data.length)) =
          some ([⟨8, epoch, .write 3 2⟩, second], 66) := by decide +kernel
  obtain ⟨⟨records, w⟩, haccepted, hresult⟩ := Option.map_eq_some_iff.mp hfacts
  obtain ⟨hrecords, hlength⟩ := Prod.mk.inj hresult
  dsimp only at hrecords hlength
  have hrecord : second ∈ records := by simp [hrecords]
  have hleap : ∀ call ∈ [(BuilderStep.write 3 [1, 2], epoch), (.write 3 [5, 6], epoch)],
      ¬ call.2.IsLeap := by decide
  have hlen : w.storage.data.length < Layout.offsetLimit := by
    rw [hlength]
    decide
  obtain ⟨whole, -, -, hwhole, hfits, -⟩ :=
    torn_record_is_truncated haccepted hleap hlen hrecord (show second.journalOffset < 51 by decide)
      (by decide)
  obtain ⟨recordEnd, hpast, hwithin, hheader, -, hcut⟩ :=
    torn_record_is_truncated haccepted hleap hlen hrecord (show second.journalOffset < 40 by decide)
      (by decide)
  refine ⟨records, w, haccepted, hrecord, ?_, recordEnd, hpast, ?_, hcut (by decide) 0 false⟩
  · rw [hwhole.mpr (by decide)] at hfits
    exact hfits 9 true (by decide)
  · have hne : recordEnd ≠ second.endOffset := fun h => absurd (hheader.mp h) (by decide)
    have hend : second.endOffset = 66 := by decide
    omega

end UndoLog
