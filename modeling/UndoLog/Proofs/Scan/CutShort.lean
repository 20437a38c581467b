import UndoLog.Proofs.Record.CutShort
import UndoLog.Proofs.Scan.Forward

/-!
# Scans of records that are cut short

A scan forward over a record that a journal ends inside tells so. If the header is there, the end
that it tells is that of the record, and else it lies past the end of the journal and no further
than the header.
-/

namespace UndoLog.ScanTask

variable {journal : Bytes} {record : Record} {cut targetLength : Nat}

/-- A journal that ends inside a header is truncated, for every target length. -/
theorem resultOn_forward_of_header_cut (hstart : Layout.journalStart ≤ record.journalOffset)
    (hstored : record.timestamp.IsStored) (hlo : record.journalOffset < journal.length)
    (hhi : journal.length < record.payloadOffset)
    (hheader : journal.window record.journalOffset (journal.length - record.journalOffset) =
      record.header.take (journal.length - record.journalOffset)) :
    ∃ recordEnd, journal.length < recordEnd ∧ recordEnd ≤ record.payloadOffset ∧
      ∀ targetLength verifyTrailer,
        (ScanTask.forward record.journalOffset targetLength verifyTrailer).resultOn journal =
          .error (.truncatedJournal record.journalOffset recordEnd journal.length) := by
  have hoffset : record.payloadOffset = record.journalOffset + record.headerLength := rfl
  have hmax : record.headerLength ≤ Layout.maxHeaderLength := record.kind.headerLength_le
  have hlen := Bytes.length_window_eq_min journal record.journalOffset
    (journal.length - record.journalOffset)
  rw [hheader, Nat.min_self] at hlen
  obtain ⟨position, needed, available, hdecode, hpast, hwithin⟩ :=
    DecodedHeader.endsInside_decode hstored record.journalOffset
      (n := journal.length - record.journalOffset) (by omega)
  rw [hlen] at hpast
  refine ⟨record.journalOffset + position + needed, by omega, by omega, ?_⟩
  intro targetLength verifyTrailer
  rw [resultOn_forward_of_lt hstart hlo]
  dsimp only
  rw [headerBytes, Nat.min_eq_left (by omega), hheader, hdecode]
  simp only [ForwardScan.outcome, ForwardScan.headerError, hlen]
  exact congrArg Except.error (if_pos (by omega))

/-- A journal that ends inside a record whose header is complete and fits the target is truncated,
with the end of the record. -/
theorem resultOn_forward_of_body_cut (hstart : Layout.journalStart ≤ record.journalOffset)
    (hstored : record.timestamp.IsStored) (hlimit : record.endOffset < Layout.offsetLimit)
    (hheader : journal.window record.journalOffset record.headerLength = record.header)
    (hhi : journal.length < record.endOffset) (hfits : record.kind.FitsTarget targetLength)
    (verifyTrailer : Bool) :
    (ScanTask.forward record.journalOffset targetLength verifyTrailer).resultOn journal =
      .error (.truncatedJournal record.journalOffset record.endOffset journal.length) := by
  have hend := record.endOffset_eq
  have hcheck : record.kind.checkTarget targetLength = .ok () :=
    RecordKind.checkTarget_eq_ok_iff.mpr hfits
  rw [resultOn_forward_of_header hstart hstored hheader]
  simp only [ForwardScan.afterHeader, hcheck, ← hend]
  rw [if_neg (by omega), if_pos hhi]
  rfl

/-- Every proper prefix that cuts a record is truncated there. -/
theorem resultOn_forward_take {payload : Bytes} (h : record.StandsIn payload journal)
    (hlimit : record.endOffset < Layout.offsetLimit) (hlo : record.journalOffset < cut)
    (hhi : cut < record.endOffset) :
    ∃ recordEnd, cut < recordEnd ∧ recordEnd ≤ record.endOffset ∧
      (record.payloadOffset ≤ cut ↔ recordEnd = record.endOffset) ∧
      ∀ targetLength verifyTrailer,
        record.kind.FitsTarget targetLength ∨ cut < record.payloadOffset →
          (ScanTask.forward record.journalOffset targetLength verifyTrailer).resultOn
              (journal.take cut) =
            .error (.truncatedJournal record.journalOffset recordEnd cut) := by
  have hin := h.endOffset_le
  have hafter := record.payloadOffset_add_dataLength
  have hoffset : record.payloadOffset = record.journalOffset + record.headerLength := rfl
  have hlen : (journal.take cut).length = cut := by
    rw [List.length_take]
    omega
  by_cases hbody : record.payloadOffset ≤ cut
  · have hheader : Bytes.window (journal.take cut) record.journalOffset record.headerLength =
        record.header := by
      rw [Bytes.window_take (by omega), h.windows.1]
    refine ⟨record.endOffset, hhi, Nat.le_refl _, iff_of_true hbody rfl, ?_⟩
    rintro targetLength verifyTrailer (hfits | hcut)
    · have hresult := resultOn_forward_of_body_cut h.start_le h.stored hlimit hheader (by omega)
        hfits verifyTrailer
      rw [hlen] at hresult
      exact hresult
    · omega
  · have hheader : Bytes.window (journal.take cut) record.journalOffset
        ((journal.take cut).length - record.journalOffset) =
          record.header.take ((journal.take cut).length - record.journalOffset) := by
      rw [hlen, Bytes.window_take (by omega), ← h.windows.1, Bytes.take_window,
        Nat.min_eq_left (by omega)]
    obtain ⟨recordEnd, hpast, hwithin, hresult⟩ :=
      resultOn_forward_of_header_cut h.start_le h.stored (by omega) (by omega) hheader
    rw [hlen] at hpast hresult
    have hbefore : recordEnd ≠ record.endOffset := by
      have htrailer : Layout.trailerLength = 14 := rfl
      omega
    exact ⟨recordEnd, hpast, by omega, iff_of_false hbody hbefore,
      fun targetLength verifyTrailer _ => hresult targetLength verifyTrailer⟩

end UndoLog.ScanTask
