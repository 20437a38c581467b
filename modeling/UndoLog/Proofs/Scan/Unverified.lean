import UndoLog.Proofs.Scan.Agreement

/-!
# Scans forward without verification

A scan forward that does not verify stops after the header. What it does not find, a verifying scan
answers alike, word for word; what it finds, a verifying scan finds too or reports as corrupt. The
bytes of the record decide which: they are what the record is written as, with the payload that is
there, exactly if the verifying scan finds it.

UndoJournal specification: section 9.
-/

namespace UndoLog

namespace ForwardScan

variable {s : ForwardScan} {bytes : Bytes}

private theorem afterHeader_eq_error_of_verifyTrailer {decoded : DecodedHeader}
    {error : JournalError}
    (h : s.afterHeader bytes decoded = .error error) (verifyTrailer : Bool) :
    { s with verifyTrailer }.afterHeader bytes decoded = .error error := by
  unfold afterHeader at h ⊢
  dsimp only at h ⊢
  split at h
  · exact h
  · split at h
    · next hlimit =>
      rw [if_pos hlimit]
      exact h
    · next hlimit =>
      rw [if_neg hlimit]
      split at h
      · next hcut =>
        rw [if_pos hcut]
        exact h
      · split at h <;> cases h

end ForwardScan

namespace ScanTask

variable {journal : Bytes} {record : Record} {cursor next targetLength : Nat}

private theorem lt_length_of_resultOn_forward {verifyTrailer : Bool} {found : Scanned}
    (h : (ScanTask.forward cursor targetLength verifyTrailer).resultOn journal =
      .ok (some found)) : Layout.journalStart ≤ cursor ∧ cursor < journal.length := by
  rw [resultOn_forward] at h
  split at h
  · next hvalid =>
    split at h
    · cases h
    · omega
  · cases h

/-- An unverified forward scan finds a record iff its header stands at the position, and it fits the
target and ends inside the journal and below the offset limit. -/
theorem resultOn_unverified_eq_some_iff :
    (ScanTask.forward cursor targetLength false).resultOn journal = .ok (some ⟨record, next⟩) ↔
      Layout.journalStart ≤ cursor ∧ record.journalOffset = cursor ∧ record.endOffset = next ∧
        record.timestamp.IsStored ∧
        journal.window record.journalOffset record.headerLength = record.header ∧
        record.kind.FitsTarget targetLength ∧ next < Layout.offsetLimit ∧
        next ≤ journal.length := by
  constructor
  · intro h
    obtain ⟨hstart, hlt⟩ := lt_length_of_resultOn_forward h
    rw [resultOn_forward_of_lt hstart hlt] at h
    obtain ⟨result, hstage, hfound⟩ := ForwardScan.outcome_eq_ok_iff.mp h
    split at hstage
    · cases hstage
    · next decoded hdecode =>
      obtain ⟨hfits, hlimit, hin, rfl⟩ := ForwardScan.afterHeader_eq_ok_iff.mp hstage
      obtain ⟨hoffset, hstored, hlength, rest, hbytes⟩ := DecodedHeader.decode_eq_ok_iff.mp hdecode
      cases hfound
      rw [hlength, ← hoffset, ← decoded.record.endOffset_eq] at hlimit hin ⊢
      rw [← hoffset] at hstart hbytes
      exact ⟨hstart, rfl, rfl, hstored, decoded.record.window_headerLength hbytes, hfits, hlimit,
        hin⟩
  · rintro ⟨hstart, rfl, rfl, hstored, hheader, hfits, hlimit, hin⟩
    exact resultOn_forward_of_body hstart hstored hheader hfits hlimit hin

/-- Unless it finds a record, an unverified scan answers as a verifying one. -/
theorem resultOn_forward_of_unverified
    (h : ∀ found, (ScanTask.forward cursor targetLength false).resultOn journal ≠ .ok (some found))
    (verifyTrailer : Bool) :
    (ScanTask.forward cursor targetLength verifyTrailer).resultOn journal =
      (ScanTask.forward cursor targetLength false).resultOn journal := by
  by_cases hinside : Layout.journalStart ≤ cursor ∧ cursor < journal.length
  · obtain ⟨hstart, hlt⟩ := hinside
    rw [resultOn_forward_of_lt hstart hlt] at h ⊢
    rw [resultOn_forward_of_lt hstart hlt]
    dsimp only at h ⊢
    cases hdecode : DecodedHeader.decode cursor (headerBytes journal cursor) with
    | error error => rfl
    | ok decoded =>
      rw [hdecode] at h
      dsimp only at h ⊢
      cases hafter : ForwardScan.afterHeader ⟨cursor, journal.length, targetLength, false, .header⟩
          (headerBytes journal cursor) decoded with
      | error error =>
        have hverified := ForwardScan.afterHeader_eq_error_of_verifyTrailer hafter verifyTrailer
        dsimp only at hverified
        rw [hverified]
        rfl
      | ok result =>
        obtain ⟨-, -, -, rfl⟩ := ForwardScan.afterHeader_eq_ok_iff.mp hafter
        rw [hafter] at h
        exact absurd rfl (h _)
  · rw [resultOn_forward, resultOn_forward]
    split
    · next hvalid => rw [if_pos (by omega), if_pos (by omega)]
    · rfl

end ScanTask

/-- A record whose header stands in the journal is what the journal holds iff it stands there with
the bytes behind its header as payload. -/
private theorem Record.encode_window_eq_iff {record : Record} {journal : Bytes}
    (hstart : Layout.journalStart ≤ record.journalOffset) (hstored : record.timestamp.IsStored)
    (hfits : record.kind.FitsOffsets) (hin : record.endOffset ≤ journal.length) :
    record.encode (journal.window record.payloadOffset record.dataLength) =
        .ok (journal.window record.journalOffset (record.endOffset - record.journalOffset)) ↔
      ∃ payload, record.StandsIn payload journal := by
  have hafter := record.payloadOffset_add_dataLength
  have hlonger := record.trailerLength_lt_encodedLength
  have hend : record.endOffset = record.journalOffset + record.encodedLength := rfl
  have hpayload : record.endOffset - Layout.trailerLength - record.payloadOffset =
      record.dataLength := by omega
  constructor
  · intro hencode
    rw [← hpayload] at hencode
    exact (standsIn_iff_encode.mpr ⟨hstart, by omega, hin, hstored, hfits, hencode⟩).2
  · intro h
    obtain ⟨-, -, -, -, -, hencode⟩ := standsIn_iff_encode.mp ⟨rfl, h⟩
    rw [hpayload] at hencode
    exact hencode

/-- Verification only rejects. Unless it finds a record, an unverified forward scan answers as a
verifying one, message included. If it finds one, the verifying scan finds it too or reports it as
corrupt at the position, and finds it iff the bytes up to its end are its encoding with the bytes in
the place of the payload. -/
theorem verification_only_rejects (journal : Bytes) (cursor : Nat) (targetLength : UInt64) :
    let unverified := (ScanTask.forward cursor targetLength.toNat false).resultOn journal
    let verified := (ScanTask.forward cursor targetLength.toNat true).resultOn journal
    ((∀ found, unverified ≠ .ok (some found)) → verified = unverified) ∧
      ∀ record next, unverified = .ok (some ⟨record, next⟩) →
        record.journalOffset = cursor ∧
          (verified = .ok (some ⟨record, next⟩) ∨
            ∃ damage, verified = .error (.corruptRecord cursor damage)) ∧
          (verified = .ok (some ⟨record, next⟩) ↔
            record.encode (journal.window record.payloadOffset record.dataLength) =
              .ok (journal.window cursor (next - cursor))) := by
  intro unverified verified
  refine ⟨fun h => ScanTask.resultOn_forward_of_unverified h true, fun record next h => ?_⟩
  obtain ⟨hstart, rfl, rfl, hstored, hheader, hfits, hlimit, hin⟩ :=
    ScanTask.resultOn_unverified_eq_some_iff.mp h
  have hoffsets := hfits.fitsOffsets targetLength.toNat_lt
  refine ⟨rfl, ?_, ?_⟩
  · rcases ScanTask.framedBy_or_corrupt hstart hstored hheader hin hlimit targetLength.toNat with
      ⟨trailer, hframed, hsum⟩ | hcorrupt
    · have hstands := hframed.standsIn hoffsets hsum
      exact .inl (ScanTask.resultOn_forward_of_standsIn hstands hfits hlimit true)
    · exact .inr hcorrupt
  · rw [Record.encode_window_eq_iff hstart hstored hoffsets hin]
    constructor
    · intro hfound
      obtain ⟨-, -, -, -, hstands⟩ :=
        (ScanTask.resultOn_forward_eq_some_iff targetLength.toNat_lt).mp hfound
      exact hstands
    · rintro ⟨payload, hstands⟩
      exact ScanTask.resultOn_forward_of_standsIn hstands hfits hlimit true

/-- A write of two bytes is found with and without verification, and behind it both scans find the
end of the journal. -/
theorem verification_only_rejects_of_write :
    let record : Record := ⟨8, ⟨0, 0, by decide, by decide⟩, .write 3 2⟩
    let journal := Layout.magic ++ record.image [1, 2]
    (ScanTask.forward 8 9 false).resultOn journal = .ok (some ⟨record, 37⟩) ∧
      record.encode (journal.window 21 2) = .ok (journal.window 8 29) ∧
      (ScanTask.forward 8 9 true).resultOn journal = .ok (some ⟨record, 37⟩) ∧
      (ScanTask.forward 37 9 false).resultOn journal = .ok none ∧
      (ScanTask.forward 37 9 true).resultOn journal = .ok none := by
  intro record journal
  have hstands : record.StandsIn [1, 2] journal := by
    have h : record.StandsIn [1, 2] (Layout.magic ++ record.image [1, 2] ++ []) :=
      .of_append (by decide) (by decide) (by decide) rfl rfl
    rw [List.append_nil] at h
    exact h
  have hlength : journal.length = 37 := by
    rw [List.length_append, Record.length_image rfl]
    rfl
  have hfound : (ScanTask.forward 8 9 false).resultOn journal = .ok (some ⟨record, 37⟩) :=
    ScanTask.resultOn_forward_of_standsIn hstands (by decide) (by decide) false
  have hverified : (ScanTask.forward 8 9 true).resultOn journal = .ok (some ⟨record, 37⟩) :=
    ScanTask.resultOn_forward_of_standsIn hstands (by decide) (by decide) true
  have hlast : (ScanTask.forward 37 9 false).resultOn journal = .ok none := by
    rw [ScanTask.resultOn_forward, hlength]
    rfl
  obtain ⟨-, hfinds⟩ := verification_only_rejects journal 8 9
  obtain ⟨hmisses, -⟩ := verification_only_rejects journal 37 9
  obtain ⟨-, -, hencode⟩ := hfinds record 37 hfound
  have hnone : ∀ found, (ScanTask.forward 37 9 false).resultOn journal ≠ .ok (some found) := by
    intro found h
    cases hlast.symm.trans h
  exact ⟨hfound, hencode.mp hverified, hverified, hlast, (hmisses hnone).trans hlast⟩

end UndoLog
