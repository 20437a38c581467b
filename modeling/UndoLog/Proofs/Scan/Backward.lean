import UndoLog.Proofs.Record.Framed
import UndoLog.Proofs.Scan.Memory

/-!
# What a backward scan finds

Each stage of a backward scan succeeds on exactly the bytes that a record has in that place.
Together they say that the scan finds a record at a position if and only if the record stands in the
journal and ends there.
-/

namespace UndoLog

/-- A backward scan checks the position and then runs from the trailer. -/
theorem ScanTask.resultOn_backward (journal : Bytes) (cursor : Nat) :
    (ScanTask.backward cursor).resultOn journal =
      if Layout.journalStart ≤ cursor ∧ cursor ≤ journal.length then
        if cursor = Layout.journalStart then .ok none
        else if cursor < Layout.journalStart + Layout.trailerLength then
          .error (.corruptRecord cursor .noRoomForTrailer)
        else (Scan.backward { cursor, journalLength := journal.length }).resultOn journal
      else .error (.invalidCursor cursor journal.length) := by
  have hsize : Storage.size (⟨journal⟩ : MemoryStorage) = (.ok journal.length, ⟨journal⟩) := rfl
  unfold ScanTask.resultOn ScanTask.run ScanTask.begin
  rw [hsize]
  simp only [ScanTask.scan, Scan.start, BackwardScan.start, checkCursor]
  by_cases h : Layout.journalStart ≤ cursor ∧ cursor ≤ journal.length
  · rw [if_pos h, if_pos h]
    by_cases hstart : cursor = Layout.journalStart
    · simp only [hstart, if_true, Prod.map_apply, id_eq, ScanProgress.ofStep]
    · by_cases hroom : cursor < Layout.journalStart + Layout.trailerLength
      · simp only [hstart, if_false, hroom, if_true, Prod.map_apply, id_eq, ScanProgress.ofStep]
      · simp only [hstart, if_false, hroom, Prod.map_apply, id_eq, ScanProgress.ofStep]
        rfl
  · simp only [h, if_false, Prod.map_apply, id_eq, ScanProgress.ofStep]

namespace BackwardScan

variable {s : BackwardScan} {journal bytes : Bytes}

/-- A trailer is accepted iff its tag is known, its header length is one of that type, and the
record fits behind the reserved bytes. -/
theorem afterTrailer_eq_ok_iff {result : StageResult Stage} :
    s.afterTrailer bytes = .ok result ↔
      ∃ trailer type start, Trailer.decode bytes = .ok trailer ∧
        RecordType.ofTag? trailer.tag = some type ∧
        Layout.minHeaderLength ≤ trailer.headerLength.toNat ∧
        trailer.headerLength.toNat ≤ type.maxHeaderLength ∧
        trailer.recordStart? s.cursor = some start ∧
        result = .next (.header start trailer) := by
  unfold afterTrailer
  constructor
  · intro h
    split at h
    · cases h
    · next trailer htrailer =>
      split at h
      · cases h
      · next type htype =>
        dsimp only at h
        split at h
        · cases h
        · next hlen =>
          split at h
          · cases h
          · next start hstart =>
            cases h
            exact ⟨trailer, type, start, htrailer, htype, by omega, by omega, hstart, rfl⟩
  · rintro ⟨trailer, type, start, htrailer, htype, hmin, hmax, hstart, rfl⟩
    have hlen : ¬ (trailer.headerLength.toNat < Layout.minHeaderLength ∨
        type.maxHeaderLength < trailer.headerLength.toNat) := by omega
    simp only [htrailer, htype, hlen, if_false, hstart]

/-- A header is accepted iff it decodes, agrees with the trailer, and saves no bytes past the offset
limit. -/
theorem afterHeader_eq_ok_iff {start : Nat} {trailer : Trailer} {result : StageResult Stage} :
    s.afterHeader start trailer bytes = .ok result ↔
      ∃ decoded, DecodedHeader.decode start bytes = .ok decoded ∧
        trailer.checkHeader decoded.record decoded.length = .ok () ∧
        decoded.record.kind.checkOffsets = .ok () ∧
        afterPayload decoded.record trailer
          (.ofHeader decoded.record (bytes.take decoded.length)) = .ok result := by
  unfold afterHeader
  constructor
  · intro h
    split at h
    · cases h
    · cases h
    · next decoded hdecoded =>
      dsimp only at h
      split at h
      · cases h
      · next hheader =>
        split at h
        · cases h
        · next hoffsets => exact ⟨decoded, hdecoded, hheader, hoffsets, h⟩
  · rintro ⟨decoded, hdecoded, hheader, hoffsets, h⟩
    simp only [hdecoded, hheader, hoffsets, h]

private theorem outcome_afterPayload {record : Record} {trailer : Trailer} {check : PayloadCheck}
    (h : check.offset + check.remaining ≤ journal.length) :
    s.outcome journal (afterPayload record trailer check) =
      s.outcome journal (afterPayload record trailer
        (check.update (journal.window check.offset check.remaining))) := by
  refine PayloadCheck.eq_update_window
    (f := fun check => s.outcome journal (afterPayload record trailer check)) ?_ check h
  intro check hpos hin
  have hle : check.request.length ≤ check.remaining := Nat.min_le_left _ _
  have hnext : afterPayload record trailer check =
      .ok (.next (.payload record trailer check)) := by
    unfold afterPayload
    rw [if_pos hpos]
  rw [hnext]
  exact resultOn_eq_outcome (s := { s with stage := .payload record trailer check })
    (by simp only [request, PayloadCheck.request] at hle ⊢; omega)

/-- The run from the trailer. -/
theorem resultOn_trailer (hroom : Layout.trailerLength ≤ s.cursor)
    (hin : s.cursor ≤ journal.length) (hs : s.stage = .trailer) :
    (Scan.backward s).resultOn journal =
      s.outcome journal (s.afterTrailer
        (journal.window (s.cursor - Layout.trailerLength) Layout.trailerLength)) := by
  have hreq : s.request = ⟨s.cursor - Layout.trailerLength, Layout.trailerLength⟩ := by
    rw [request, hs]
  rw [resultOn_eq_outcome (by rw [hreq]; dsimp only; omega), hreq, advance, hs]

/-- The run from the header. -/
theorem outcome_header {start : Nat} {trailer : Trailer}
    (hin : start + trailer.headerLength.toNat ≤ journal.length) :
    s.outcome journal (.ok (.next (.header start trailer))) =
      s.outcome journal (s.afterHeader start trailer
        (journal.window start trailer.headerLength.toNat)) :=
  resultOn_eq_outcome (s := { s with stage := .header start trailer }) hin

/-- The run over the payload of a framed record compares the checksums. -/
theorem outcome_payload {record : Record} {trailer : Trailer}
    (h : record.FramedBy trailer journal) :
    s.outcome journal (afterPayload record trailer (.ofHeader record record.header)) =
      match trailer.checkSum (record.checksumIn journal) with
      | .error damage => .error (.corruptRecord record.journalOffset damage)
      | .ok () => .ok (some ⟨record, record.journalOffset⟩) := by
  have hlen : (journal.window record.payloadOffset record.dataLength).length =
      record.dataLength := Bytes.length_window h.payload_le
  let check := (PayloadCheck.ofHeader record record.header).update
    (journal.window record.payloadOffset record.dataLength)
  have hdone : ¬ 0 < check.remaining := by
    simp only [check, PayloadCheck.update, PayloadCheck.ofHeader, hlen]
    omega
  have hsum : check.checksum.value = record.checksumIn journal := rfl
  rw [outcome_afterPayload (by exact h.payload_le)]
  show s.outcome journal (afterPayload record trailer check) = _
  unfold afterPayload
  rw [if_neg hdone, hsum]
  cases trailer.checkSum (record.checksumIn journal) <;> rfl

/-- A refused trailer is corruption. -/
theorem isCorruption_of_afterTrailer {error : JournalError}
    (h : s.afterTrailer bytes = .error error) : error.isCorruption := by
  unfold afterTrailer at h
  dsimp only at h
  repeat' split at h
  all_goals cases h <;> rfl

/-- A refused header is corruption. -/
theorem isCorruption_of_afterHeader {start : Nat} {trailer : Trailer} {error : JournalError}
    (h : s.afterHeader start trailer bytes = .error error) : error.isCorruption := by
  unfold afterHeader afterPayload at h
  dsimp only at h
  repeat' split at h
  all_goals cases h <;> rfl

/-- An accepted trailer and header frame a record that ends at the position. -/
theorem framedBy_of_afterHeader {start : Nat} {trailer : Trailer} {result : StageResult Stage}
    (hin : s.cursor ≤ journal.length)
    (hdecode : Trailer.decode
      (journal.window (s.cursor - Layout.trailerLength) Layout.trailerLength) = .ok trailer)
    (hstart : trailer.recordStart? s.cursor = some start)
    (h : s.afterHeader start trailer (journal.window start trailer.headerLength.toNat) =
      .ok result) :
    ∃ record, record.FramedBy trailer journal ∧ record.endOffset = s.cursor ∧
      record.kind.FitsOffsets ∧
      afterPayload record trailer (.ofHeader record record.header) = .ok result := by
  obtain ⟨⟨record, length⟩, hrecord, hagrees, hoffsets, hpayload⟩ := afterHeader_eq_ok_iff.mp h
  obtain ⟨hoffset, hstored, hlength, rest, hbytes⟩ := DecodedHeader.decode_eq_ok_iff.mp hrecord
  obtain ⟨hstart_le, hcursor⟩ := Trailer.recordStart?_eq_some_iff.mp hstart
  obtain ⟨-, hheaderLength, hdataLength⟩ := Trailer.checkHeader_eq_ok_iff.mp hagrees
  dsimp only at hoffset hstored hlength hbytes hagrees hheaderLength hdataLength hpayload hoffsets
  subst hoffset hlength
  -- the trailer's lengths are those of the record, so the windows are its parts
  have hend : record.endOffset = s.cursor := by
    rw [record.endOffset_eq]
    omega
  rw [hbytes, record.take_header_append] at hpayload
  rw [← hend] at hdecode hin
  have hframed : record.FramedBy trailer journal :=
    .of_decode hstart_le hstored hin (record.window_headerLength hbytes) hdecode hagrees
  exact ⟨record, hframed, hend, RecordKind.checkOffsets_eq_ok_iff.mp hoffsets, hpayload⟩

/-- A run from the trailer finds a record that stands in the journal and ends at the position, or
fails with corruption. -/
theorem found_or_corrupt (hroom : Layout.trailerLength ≤ s.cursor)
    (hin : s.cursor ≤ journal.length) (hs : s.stage = .trailer) :
    (∃ record payload, (Scan.backward s).resultOn journal =
        .ok (some ⟨record, record.journalOffset⟩) ∧
          record.endOffset = s.cursor ∧ record.StandsIn payload journal) ∨
      ∃ error, (Scan.backward s).resultOn journal = .error error ∧ error.isCorruption := by
  rw [resultOn_trailer hroom hin hs]
  cases htrailer : s.afterTrailer
      (journal.window (s.cursor - Layout.trailerLength) Layout.trailerLength) with
  | error error => exact .inr ⟨error, rfl, isCorruption_of_afterTrailer htrailer⟩
  | ok result =>
    obtain ⟨trailer, type, start, hdecode, -, -, -, hstart, rfl⟩ :=
      afterTrailer_eq_ok_iff.mp htrailer
    have hcursor := (Trailer.recordStart?_eq_some_iff.mp hstart).2
    rw [outcome_header (by omega)]
    cases hheader : s.afterHeader start trailer
        (journal.window start trailer.headerLength.toNat) with
    | error error => exact .inr ⟨error, rfl, isCorruption_of_afterHeader hheader⟩
    | ok result =>
      obtain ⟨record, hframed, hend, hfits, hpayload⟩ :=
        framedBy_of_afterHeader hin hdecode hstart hheader
      rw [← hpayload, outcome_payload hframed]
      by_cases hsum : record.checksumIn journal = trailer.checksum
      · rw [Trailer.checkSum_eq_ok_iff.mpr hsum]
        exact .inl ⟨record, _, rfl, hend, hframed.standsIn hfits hsum⟩
      · rw [Trailer.checkSum_of_ne hsum]
        exact .inr ⟨_, rfl, rfl⟩

/-- After a trailer that agrees with a record the run reads the header of that record. -/
theorem resultOn_of_trailer {record : Record} {trailer : Trailer}
    (hstart_le : Layout.journalStart ≤ record.journalOffset)
    (hin : record.endOffset ≤ journal.length)
    (htrailer : journal.window (record.endOffset - Layout.trailerLength) Layout.trailerLength =
      trailer.encode)
    (hagrees : trailer.checkHeader record record.headerLength = .ok ())
    (hcursor : s.cursor = record.endOffset) (hs : s.stage = .trailer) :
    (Scan.backward s).resultOn journal =
      s.outcome journal (s.afterHeader record.journalOffset trailer
        (journal.window record.journalOffset record.headerLength)) := by
  have hlonger := record.trailerLength_lt_encodedLength
  have hlengths := record.endOffset_eq
  obtain ⟨htag, hheader, hdata⟩ := Trailer.checkHeader_eq_ok_iff.mp hagrees
  have hstart : trailer.recordStart? s.cursor = some record.journalOffset := by
    rw [Trailer.recordStart?_eq_some_iff, hheader, hdata]
    exact ⟨hstart_le, by omega⟩
  have hread : s.afterTrailer trailer.encode =
      .ok (.next (.header record.journalOffset trailer)) := by
    rw [afterTrailer_eq_ok_iff]
    refine ⟨trailer, record.type, record.journalOffset, ?_, ?_, ?_, ?_, hstart, rfl⟩
    · exact Trailer.decode_encode _
    · rw [htag]
      exact RecordType.ofTag?_tag record.type
    · rw [hheader]
      exact record.kind.minHeaderLength_le
    · rw [hheader]
      exact record.kind.headerLength_le_max
  rw [resultOn_trailer (by omega) (by omega) hs, hcursor, htrailer, hread,
    outcome_header (by omega), hheader]

/-- Over a framed record that saves no bytes past the offset limit the run goes over the payload. -/
theorem resultOn_of_framedBy {record : Record} {trailer : Trailer}
    (h : record.FramedBy trailer journal) (hcursor : s.cursor = record.endOffset)
    (hs : s.stage = .trailer) :
    (Scan.backward s).resultOn journal =
      match record.kind.checkOffsets with
      | .error damage => .error (.corruptRecord record.journalOffset damage)
      | .ok () =>
        s.outcome journal (afterPayload record trailer (.ofHeader record record.header)) := by
  have hdecode := DecodedHeader.decode_header_append h.stored []
  rw [List.append_nil] at hdecode
  rw [resultOn_of_trailer h.start_le h.endOffset_le h.trailer_eq h.agrees hcursor hs, h.header_eq]
  unfold afterHeader
  rw [hdecode]
  simp only [h.agrees, record.take_header]
  cases record.kind.checkOffsets <;> rfl

/-- A record that stands in the journal is found from its trailer. -/
theorem resultOn_of_standsIn {record : Record} {payload : Bytes}
    (h : record.StandsIn payload journal) (hcursor : s.cursor = record.endOffset)
    (hs : s.stage = .trailer) :
    (Scan.backward s).resultOn journal = .ok (some ⟨record, record.journalOffset⟩) := by
  rw [resultOn_of_framedBy h.framedBy hcursor hs,
    RecordKind.checkOffsets_eq_ok_iff.mpr h.fitsOffsets]
  dsimp only
  rw [outcome_payload h.framedBy, Trailer.checkSum_eq_ok_iff.mpr h.checksumIn_eq]

end BackwardScan

/-- A backward scan from past the first record's start finds a record that stands in the journal and
ends at the position, or fails with corruption. -/
theorem ScanTask.found_or_corrupt {journal : Bytes} {cursor : Nat}
    (hstart : Layout.journalStart < cursor) (hin : cursor ≤ journal.length) :
    (∃ record payload, (ScanTask.backward cursor).resultOn journal =
        .ok (some ⟨record, record.journalOffset⟩) ∧
          record.endOffset = cursor ∧ record.StandsIn payload journal) ∨
      ∃ error, (ScanTask.backward cursor).resultOn journal = .error error ∧ error.isCorruption := by
  rw [ScanTask.resultOn_backward, if_pos ⟨Nat.le_of_lt hstart, hin⟩, if_neg (by omega)]
  by_cases hroom : cursor < Layout.journalStart + Layout.trailerLength
  · rw [if_pos hroom]
    exact .inr ⟨_, rfl, rfl⟩
  · rw [if_neg hroom]
    exact BackwardScan.found_or_corrupt (by dsimp only; omega) hin rfl

/-- A backward scan finds a record iff it stands in the journal and ends at the position. -/
theorem ScanTask.resultOn_backward_eq_some_iff {journal : Bytes} {cursor start : Nat}
    {record : Record} :
    (ScanTask.backward cursor).resultOn journal = .ok (some ⟨record, start⟩) ↔
      record.endOffset = cursor ∧ record.journalOffset = start ∧
        ∃ payload, record.StandsIn payload journal := by
  constructor
  · intro h
    by_cases hvalid : Layout.journalStart < cursor ∧ cursor ≤ journal.length
    · obtain ⟨r, payload, hfound, hend, hstands⟩ | ⟨error, herror, -⟩ :=
        ScanTask.found_or_corrupt hvalid.1 hvalid.2
      · rw [h] at hfound
        cases hfound
        exact ⟨hend, rfl, payload, hstands⟩
      · rw [h] at herror
        cases herror
    · rw [ScanTask.resultOn_backward] at h
      split at h
      · rw [if_pos (by omega)] at h
        cases h
      · cases h
  · rintro ⟨hend, rfl, payload, h⟩
    have hin := h.endOffset_le
    have hlonger := record.trailerLength_lt_encodedLength
    have hle := h.start_le
    have hcursor : Layout.journalStart + Layout.trailerLength < cursor := by
      rw [← hend, Record.endOffset]
      omega
    rw [ScanTask.resultOn_backward, if_pos ⟨by omega, by omega⟩, if_neg (by omega),
      if_neg (by omega)]
    exact BackwardScan.resultOn_of_standsIn h hend.symm rfl

/-- A backward scan answers that there is no record iff it is at the start of the first one. -/
theorem ScanTask.resultOn_backward_eq_none_iff {journal : Bytes} {cursor : Nat} :
    (ScanTask.backward cursor).resultOn journal = .ok none ↔
      cursor = Layout.journalStart ∧ Layout.journalStart ≤ journal.length := by
  rw [ScanTask.resultOn_backward]
  constructor
  · intro h
    split at h
    · next hvalid =>
      split at h
      · next hcursor => exact ⟨hcursor, by omega⟩
      · split at h
        · cases h
        · exact absurd h (Scan.resultOn_ne_none _ _)
    · cases h
  · rintro ⟨rfl, h⟩
    rw [if_pos ⟨Nat.le_refl _, h⟩, if_pos rfl]

end UndoLog
