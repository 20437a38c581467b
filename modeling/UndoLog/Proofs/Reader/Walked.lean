import UndoLog.Proofs.Reader.Rollback
import UndoLog.Proofs.Tiling

/-!
# The records that a walk backward finds

In a journal of any bytes, scans backward find one record after another, each where the one before
starts, until the first record or damage is reached. A walk reads these records, and they lie side
by side between where it began and where it stopped.
-/

namespace UndoLog

/-- The positions of a record. -/
def Record.span (r : Record) : Span := ⟨r.journalOffset, r.endOffset⟩

/-- Backward scans, each from the start of the record before, find `records`, newest first, from
`position` down to `stop`. -/
inductive ScansBack (journal : Bytes) : (position : Nat) → List Record → (stop : Nat) → Prop
  | stop {position : Nat} : ScansBack journal position [] position
  | found {position before stop : Nat} {record : Record} {rest : List Record}
      (scan : (ScanTask.backward position).resultOn journal = .ok (some ⟨record, before⟩))
      (older : ScansBack journal before rest stop) :
      ScansBack journal position (record :: rest) stop

/-- The records of backward scans tile the positions passed. -/
theorem ScansBack.tiles {journal : Bytes} {position stop : Nat} {records : List Record}
    (h : ScansBack journal position records stop) :
    Tiles stop (records.reverse.map Record.span) position := by
  induction h with
  | stop => rfl
  | @found position before stop record rest scan _ ih =>
    obtain ⟨rfl, rfl, -⟩ := ScanTask.resultOn_backward_eq_some_iff.mp scan
    have hlonger := record.trailerLength_lt_encodedLength
    have hlt : record.journalOffset < record.endOffset := by
      simp only [Record.endOffset]
      omega
    rw [List.reverse_cons, List.map_append]
    exact ih.concat hlt

namespace Reader

variable {journal : Bytes}

/-- A walk in memory ends at the first record, or with the corruption error of a scan. -/
def WalkEnds (journal : Bytes) (stop : Nat) : Option JournalError → Prop
  | none => stop = Layout.journalStart
  | some error => (ScanTask.backward stop).resultOn journal = .error error ∧ error.isCorruption

/-- Over memory a walk without limit answers the records of backward scans, and ends at the first
record or with corruption. -/
theorem rollback_memory {position : Nat} (hstart : Layout.journalStart ≤ position)
    (hend : position ≤ journal.length) (verifyTrailer : Bool) :
    ∃ records error? stop,
      (⟨⟨journal⟩, position, verifyTrailer⟩ : Reader MemoryStorage).rollback none =
          (records, error?, ⟨⟨journal⟩, stop, verifyTrailer⟩) ∧
        ScansBack journal position records stop ∧ WalkEnds journal stop error? := by
  induction position using Nat.strongRecOn with
  | ind position ih =>
    obtain rfl | hlt := Nat.eq_or_lt_of_le hstart
    · have hnone := nextBackward_journalStart hend verifyTrailer
      exact ⟨[], none, _, rollback_of_none hnone, .stop, rfl⟩
    · obtain ⟨record, payload, hfound, rfl, hstands⟩ | ⟨error, hfailed, hcorrupt⟩ :=
        ScanTask.found_or_corrupt hlt hend
      · have hlonger := record.trailerLength_lt_encodedLength
        have hearlier : record.journalOffset < record.endOffset := by
          rw [Record.endOffset]
          omega
        obtain ⟨records, error?, stop, hwalk, hscans, hends⟩ :=
          ih record.journalOffset hearlier hstands.start_le (by omega)
        refine ⟨record :: records, error?, stop, ?_, .found hfound hscans, hends⟩
        rw [rollback_of_found (nextBackward_of_standsIn hstands verifyTrailer), hwalk]
      · have hnext := nextBackward_memory journal position verifyTrailer
        rw [hfailed] at hnext
        exact ⟨[], some error, position, rollback_of_error hnext, .stop, hfailed, hcorrupt⟩

end Reader
end UndoLog
