import UndoLog.Proofs.Record.Framed
import UndoLog.Proofs.Scan.Memory

/-!
# What a forward scan finds

A forward scan that verifies finds a record at a position if and only if the record stands there,
fits the target and ends below the offset limit. A record that stands there is found without
verification too, and one that does not fit the target is reported as corrupt.
-/

namespace UndoLog

/-- A forward scan checks the position and then runs from the header. -/
theorem ScanTask.resultOn_forward (journal : Bytes) (cursor targetLength : Nat)
    (verifyTrailer : Bool) :
    (ScanTask.forward cursor targetLength verifyTrailer).resultOn journal =
      if Layout.journalStart ≤ cursor ∧ cursor ≤ journal.length then
        if cursor = journal.length then .ok none
        else
          (Scan.forward { cursor, journalLength := journal.length, targetLength, verifyTrailer
            }).resultOn journal
      else .error (.invalidCursor cursor journal.length) := by
  have hsize : Storage.size (⟨journal⟩ : MemoryStorage) = (.ok journal.length, ⟨journal⟩) := rfl
  unfold ScanTask.resultOn ScanTask.run ScanTask.begin
  rw [hsize]
  simp only [ScanTask.scan, Scan.start, ForwardScan.start, checkCursor]
  by_cases h : Layout.journalStart ≤ cursor ∧ cursor ≤ journal.length
  · rw [if_pos h, if_pos h]
    by_cases hend : cursor = journal.length
    · simp only [hend, if_true, Prod.map_apply, id_eq, ScanProgress.ofStep]
    · simp only [hend, if_false, Prod.map_apply, id_eq, ScanProgress.ofStep]
      rfl
  · simp only [h, if_false, Prod.map_apply, id_eq, ScanProgress.ofStep]

/-- A record that fits a target of less than 2^64 bytes saves no bytes past the offset limit. -/
theorem RecordKind.FitsTarget.fitsOffsets {kind : RecordKind} {targetLength : Nat}
    (h : kind.FitsTarget targetLength) (hword : targetLength < Layout.offsetLimit) :
    kind.FitsOffsets := by
  cases kind with
  | write targetOffset dataLength =>
    have ho := targetOffset.toNat_lt
    simp only [FitsTarget] at h
    simp only [FitsOffsets]
    split at h
    · next hz =>
      rw [hz, UInt32.toNat_zero, Nat.add_zero]
      exact ho
    · omega
  | length oldLength newLength => trivial

namespace ForwardScan

variable {s : ForwardScan} {journal bytes : Bytes}

/-- A run succeeds only if the stage does. -/
theorem outcome_eq_ok_iff {stage : Except JournalError (StageResult Stage)}
    {found? : Option Scanned} :
    s.outcome journal stage = .ok found? ↔
      ∃ result, stage = .ok result ∧ s.outcome journal (.ok result) = .ok found? := by
  cases stage with
  | error error => simp [outcome]
  | ok result => simp

/-- The stage after a header whose record fits the target and the journal. -/
def afterFit (s : ForwardScan) (bytes : Bytes) (decoded : DecodedHeader) : StageResult Stage :=
  let next := s.cursor + decoded.length + decoded.record.dataLength + Layout.trailerLength
  if s.verifyTrailer then
    .next (.ofLocated {
      record := decoded.record, next
      headerLength := decoded.length
      check := .ofHeader decoded.record (bytes.take decoded.length) })
  else .found ⟨decoded.record, next⟩

/-- A header is accepted iff it decodes, and the record fits the target and ends inside the journal
and below the offset limit. -/
theorem afterHeader_eq_ok_iff {decoded : DecodedHeader} {result : StageResult Stage} :
    s.afterHeader bytes decoded = .ok result ↔
      decoded.record.kind.FitsTarget s.targetLength ∧
        s.cursor + decoded.length + decoded.record.dataLength + Layout.trailerLength <
          Layout.offsetLimit ∧
        s.cursor + decoded.length + decoded.record.dataLength + Layout.trailerLength ≤
          s.journalLength ∧
        result = s.afterFit bytes decoded := by
  unfold afterHeader afterFit
  rw [← RecordKind.checkTarget_eq_ok_iff]
  constructor
  · intro h
    dsimp only at h
    split at h
    · cases h
    · next hfits =>
      split at h
      · cases h
      · split at h
        · cases h
        · refine ⟨hfits, by omega, by omega, ?_⟩
          split at h
          · next hverify =>
            cases h
            simp only [hverify, if_true]
          · next hverify =>
            cases h
            simp only [hverify]
            rfl
  · rintro ⟨hfits, hlimit, hin, rfl⟩
    dsimp only
    rw [hfits, if_neg (by omega), if_neg (by omega)]
    cases s.verifyTrailer <;> rfl

/-- A trailer is accepted iff it agrees with the record and has its checksum. -/
theorem afterTrailer_eq_ok_iff {located : Located} {result : StageResult Stage} :
    s.afterTrailer located bytes = .ok result ↔
      ∃ trailer, Trailer.decode bytes = .ok trailer ∧
        trailer.checkHeader located.record located.headerLength = .ok () ∧
        located.check.checksum.value = trailer.checksum ∧
        result = .found ⟨located.record, located.next⟩ := by
  unfold afterTrailer
  constructor
  · intro h
    split at h
    · cases h
    · next trailer htrailer =>
      split at h
      · cases h
      · next hheader =>
        split at h
        · cases h
        · next hsum =>
          cases h
          exact ⟨trailer, htrailer, hheader, Trailer.checkSum_eq_ok_iff.mp hsum, rfl⟩
  · rintro ⟨trailer, htrailer, hheader, hsum, rfl⟩
    simp only [htrailer, hheader, Trailer.checkSum_eq_ok_iff.mpr hsum]

/-- A refused trailer makes the record corrupt at its start. -/
theorem corrupt_of_afterTrailer {located : Located} {error : JournalError}
    (hoffset : located.record.journalOffset = s.cursor)
    (h : s.afterTrailer located bytes = .error error) :
    ∃ damage, error = .corruptRecord s.cursor damage := by
  unfold afterTrailer at h
  split at h
  · next fieldError _ =>
    cases h
    exact ⟨.field fieldError, rfl⟩
  · split at h
    · next damage _ =>
      cases h
      exact ⟨damage, by rw [hoffset]⟩
    · split at h
      · next damage _ =>
        cases h
        exact ⟨damage, by rw [hoffset]⟩
      · cases h

/-- The outcome of a trailer does not depend on the journal. -/
theorem outcome_afterTrailer_congr {other : ForwardScan} {otherJournal : Bytes} {located : Located}
    (hcursor : other.cursor = s.cursor) :
    other.outcome otherJournal (other.afterTrailer located bytes) =
      s.outcome journal (s.afterTrailer located bytes) := by
  have hstage : other.afterTrailer located bytes = s.afterTrailer located bytes := by
    unfold afterTrailer
    rw [hcursor]
  rw [hstage]
  cases htrailer : s.afterTrailer located bytes with
  | error error => rfl
  | ok result =>
    obtain ⟨_, _, _, _, rfl⟩ := afterTrailer_eq_ok_iff.mp htrailer
    rfl

private theorem outcome_ofLocated {located : Located}
    (h : located.check.offset + located.check.remaining ≤ journal.length) :
    s.outcome journal (.ok (.next (.ofLocated located))) =
      s.outcome journal (.ok (.next (.ofLocated { located with
        check := located.check.update
          (journal.window located.check.offset located.check.remaining) }))) := by
  refine PayloadCheck.eq_update_window
    (f := fun check => s.outcome journal (.ok (.next (.ofLocated { located with check }))))
    ?_ located.check h
  intro check hpos hin
  have hle : check.request.length ≤ check.remaining := Nat.min_le_left _ _
  have hstage : Stage.ofLocated { located with check } = .payload { located with check } := by
    unfold Stage.ofLocated
    rw [if_pos hpos]
  rw [hstage]
  exact resultOn_eq_outcome (s := { s with stage := .payload { located with check } })
    (by simp only [request, PayloadCheck.request] at hle ⊢; omega)

private theorem resultOn_header (hin : s.cursor ≤ journal.length)
    (hlen : s.journalLength = journal.length) (hs : s.stage = .header) :
    (Scan.forward s).resultOn journal =
      let bytes := journal.window s.cursor
        (min (journal.length - s.cursor) Layout.maxHeaderLength)
      s.outcome journal (match DecodedHeader.decode s.cursor bytes with
        | .error error => .error (s.headerError bytes.length error)
        | .ok decoded => s.afterHeader bytes decoded) := by
  obtain ⟨cursor, journalLength, targetLength, verifyTrailer, stage⟩ := s
  dsimp only at hin hlen hs ⊢
  subst hlen hs
  exact resultOn_eq_outcome (by simp only [request]; omega)

/-- The run over payload and trailer is the outcome of the trailer after the whole payload. -/
theorem outcome_located {record : Record} {header : Bytes} {headerLength next : Nat}
    (hpayload : record.payloadOffset + record.dataLength ≤ journal.length)
    (hnext : next ≤ journal.length) (htrailer : Layout.trailerLength ≤ next) :
    s.outcome journal (.ok (.next (.ofLocated
        { record, headerLength, next, check := .ofHeader record header }))) =
      s.outcome journal (s.afterTrailer
        { record, headerLength, next
          check := (PayloadCheck.ofHeader record header).update
            (journal.window record.payloadOffset record.dataLength) }
        (journal.window (next - Layout.trailerLength) Layout.trailerLength)) := by
  have hlen : (journal.window record.payloadOffset record.dataLength).length =
      record.dataLength := Bytes.length_window hpayload
  let check := (PayloadCheck.ofHeader record header).update
    (journal.window record.payloadOffset record.dataLength)
  let located : Located := { record, headerLength, next, check }
  have hdone : Stage.ofLocated located = .trailer located := by
    unfold Stage.ofLocated
    rw [if_neg (by
      simp only [located, check, PayloadCheck.update, PayloadCheck.ofHeader, hlen]
      omega)]
  rw [outcome_ofLocated (by exact hpayload)]
  show s.outcome journal (.ok (.next (.ofLocated located))) = _
  rw [hdone]
  exact resultOn_eq_outcome (s := { s with stage := .trailer located })
    (by simp only [request, located]; omega)

/-- The run over payload and trailer finds the record iff the trailer agrees with it and has the
checksum. -/
private theorem outcome_located_eq_some_iff {record : Record} {header : Bytes}
    {headerLength next : Nat} {found : Scanned}
    (hpayload : record.payloadOffset + record.dataLength ≤ journal.length)
    (hnext : next ≤ journal.length) (htrailer : Layout.trailerLength ≤ next) :
    s.outcome journal (.ok (.next (.ofLocated
        { record, headerLength, next, check := .ofHeader record header }))) = .ok (some found) ↔
      (∃ trailer, Trailer.decode
          (journal.window (next - Layout.trailerLength) Layout.trailerLength) = .ok trailer ∧
        trailer.checkHeader record headerLength = .ok () ∧
        ((Record.headerChecksum record.journalOffset header).update
          (journal.window record.payloadOffset record.dataLength)).value = trailer.checksum) ∧
        found = ⟨record, next⟩ := by
  rw [outcome_located hpayload hnext htrailer, outcome_eq_ok_iff]
  constructor
  · rintro ⟨result, hresult, hfound⟩
    obtain ⟨trailer, hdecode, hagrees, hsum, rfl⟩ := afterTrailer_eq_ok_iff.mp hresult
    exact ⟨⟨trailer, hdecode, hagrees, hsum⟩, (Option.some.inj (Except.ok.inj hfound)).symm⟩
  · rintro ⟨⟨trailer, hdecode, hagrees, hsum⟩, rfl⟩
    exact ⟨_, afterTrailer_eq_ok_iff.mpr ⟨trailer, hdecode, hagrees, hsum, rfl⟩, rfl⟩

/-- A record found with verification stands in the journal and fits the target. -/
theorem standsIn_of_resultOn {found : Scanned} (hstart : Layout.journalStart ≤ s.cursor)
    (hin : s.cursor ≤ journal.length) (hlen : s.journalLength = journal.length)
    (hs : s.stage = .header) (hverify : s.verifyTrailer = true)
    (hword : s.targetLength < Layout.offsetLimit)
    (h : (Scan.forward s).resultOn journal = .ok (some found)) :
    found.record.journalOffset = s.cursor ∧ found.cursor = found.record.endOffset ∧
      found.record.kind.FitsTarget s.targetLength ∧
      found.record.endOffset < Layout.offsetLimit ∧
      ∃ payload, found.record.StandsIn payload journal := by
  rw [resultOn_header hin hlen hs] at h
  dsimp only at h
  obtain ⟨result, hstage, h⟩ := outcome_eq_ok_iff.mp h
  split at hstage
  · cases hstage
  · next decoded hdecode =>
    obtain ⟨record, length⟩ := decoded
    obtain ⟨hfits, hlimit, hnext, rfl⟩ := afterHeader_eq_ok_iff.mp hstage
    obtain ⟨hoffset, hstored, hlength, rest, hbytes⟩ := DecodedHeader.decode_eq_ok_iff.mp hdecode
    dsimp only at hoffset hstored hlength hbytes hfits hlimit hnext
    subst hlength
    rw [← hoffset] at hstart hbytes hlimit hnext
    have hend := record.endOffset_eq
    have hafter := record.payloadOffset_add_dataLength
    have htrailer : Layout.trailerLength ≤ record.endOffset := by omega
    rw [← hend] at hlimit hnext
    rw [hlen] at hnext
    simp only [afterFit, hverify, if_true, ← hoffset, ← hend, hbytes,
      record.take_header_append] at h
    rw [outcome_located_eq_some_iff (by omega) hnext htrailer] at h
    obtain ⟨⟨trailer, hdecodeTrailer, hagrees, hsum⟩, rfl⟩ := h
    have hframed : record.FramedBy trailer journal :=
      .of_decode hstart hstored hnext (record.window_headerLength hbytes) hdecodeTrailer hagrees
    exact ⟨hoffset, rfl, hfits, hlimit, _, hframed.standsIn (hfits.fitsOffsets hword) hsum⟩

private theorem afterHeader_header_append (record : Record) (rest : Bytes) :
    s.afterHeader (record.header ++ rest) ⟨record, record.headerLength⟩ =
      s.afterHeader record.header ⟨record, record.headerLength⟩ := by
  unfold afterHeader
  simp only [record.take_header_append, record.take_header]

end ForwardScan

namespace ScanTask

variable {journal : Bytes} {record : Record} {cursor targetLength : Nat} {verifyTrailer : Bool}

/-- The header window at a position. -/
def headerBytes (journal : Bytes) (cursor : Nat) : Bytes :=
  journal.window cursor (min (journal.length - cursor) Layout.maxHeaderLength)

/-- Before the end of the journal a forward scan is the outcome of the header window. -/
theorem resultOn_forward_of_lt (hstart : Layout.journalStart ≤ cursor)
    (hin : cursor < journal.length) :
    (ScanTask.forward cursor targetLength verifyTrailer).resultOn journal =
      let scan : ForwardScan := ⟨cursor, journal.length, targetLength, verifyTrailer, .header⟩
      scan.outcome journal (match DecodedHeader.decode cursor (headerBytes journal cursor) with
        | .error error => .error (scan.headerError (headerBytes journal cursor).length error)
        | .ok decoded => scan.afterHeader (headerBytes journal cursor) decoded) := by
  rw [resultOn_forward, if_pos ⟨hstart, Nat.le_of_lt hin⟩, if_neg (Nat.ne_of_lt hin)]
  exact ForwardScan.resultOn_header (Nat.le_of_lt hin) rfl rfl

/-- The forward scan at the header of a record. -/
theorem resultOn_forward_of_header (hstart : Layout.journalStart ≤ record.journalOffset)
    (hstored : record.timestamp.IsStored)
    (hheader : journal.window record.journalOffset record.headerLength = record.header) :
    (ScanTask.forward record.journalOffset targetLength verifyTrailer).resultOn journal =
      let scan : ForwardScan :=
        ⟨record.journalOffset, journal.length, targetLength, verifyTrailer, .header⟩
      scan.outcome journal (scan.afterHeader record.header ⟨record, record.headerLength⟩) := by
  have hmin := record.kind.minHeaderLength_le
  have hmax := record.kind.headerLength_le
  have hpos : Layout.minHeaderLength = 11 := rfl
  have hlen := congrArg List.length hheader
  rw [Bytes.length_window_eq_min, Record.length_header] at hlen
  simp only [Record.headerLength] at hlen hheader ⊢
  let n := min (journal.length - record.journalOffset) Layout.maxHeaderLength
  have hwindow : headerBytes journal record.journalOffset = record.header ++
      journal.window (record.journalOffset + record.headerLength) (n - record.headerLength) := by
    show journal.window record.journalOffset n = _
    have hn : n = record.headerLength + (n - record.headerLength) := by
      simp only [n, Record.headerLength]
      omega
    have hadd := Bytes.window_add journal record.journalOffset record.headerLength
      (n - record.headerLength)
    rw [← hn] at hadd
    rw [hadd]
    exact congrArg (· ++ _) hheader
  have hdecode := DecodedHeader.decode_header_append hstored
    (journal.window (record.journalOffset + record.headerLength) (n - record.headerLength))
  rw [← hwindow] at hdecode
  rw [resultOn_forward_of_lt hstart (by omega)]
  dsimp only
  rw [hdecode, hwindow]
  exact congrArg _ (ForwardScan.afterHeader_header_append record _)

/-- At a record that fits the target and the journal a forward scan finds it, or with verification
has the outcome of its trailer. -/
theorem resultOn_forward_of_body (hstart : Layout.journalStart ≤ record.journalOffset)
    (hstored : record.timestamp.IsStored)
    (hheader : journal.window record.journalOffset record.headerLength = record.header)
    (hfits : record.kind.FitsTarget targetLength) (hlimit : record.endOffset < Layout.offsetLimit)
    (hin : record.endOffset ≤ journal.length) :
    (ScanTask.forward record.journalOffset targetLength verifyTrailer).resultOn journal =
      let scan : ForwardScan :=
        ⟨record.journalOffset, journal.length, targetLength, verifyTrailer, .header⟩
      if verifyTrailer then
        scan.outcome journal (scan.afterTrailer
          { record
            headerLength := record.headerLength
            next := record.endOffset
            check := (PayloadCheck.ofHeader record record.header).update
              (journal.window record.payloadOffset record.dataLength) }
          (journal.window (record.endOffset - Layout.trailerLength) Layout.trailerLength))
      else .ok (some ⟨record, record.endOffset⟩) := by
  have hafter := record.payloadOffset_add_dataLength
  have hlonger := record.trailerLength_lt_encodedLength
  have hend := record.endOffset_eq
  rw [resultOn_forward_of_header hstart hstored hheader]
  dsimp only
  rw [ForwardScan.afterHeader_eq_ok_iff.mpr ⟨hfits, by dsimp only; omega,
    by dsimp only; omega, rfl⟩]
  cases verifyTrailer with
  | false =>
    simp only [ForwardScan.afterFit, ForwardScan.outcome, ← hend]
    rfl
  | true =>
    simp only [ForwardScan.afterFit, if_true, ← hend, record.take_header]
    exact ForwardScan.outcome_located (by omega) hin (by unfold Record.endOffset; omega)

/-- A record that stands in the journal is found forward if it fits the target and ends below the
offset limit. -/
theorem resultOn_forward_of_standsIn {payload : Bytes} (h : record.StandsIn payload journal)
    (hfits : record.kind.FitsTarget targetLength) (hlimit : record.endOffset < Layout.offsetLimit)
    (verifyTrailer : Bool) :
    (ScanTask.forward record.journalOffset targetLength verifyTrailer).resultOn journal =
      .ok (some ⟨record, record.endOffset⟩) := by
  obtain ⟨hheader, hpayload, htrailer⟩ := h.windows
  rw [resultOn_forward_of_body h.start_le h.stored hheader hfits hlimit h.endOffset_le]
  cases verifyTrailer with
  | false => rfl
  | true =>
    dsimp only
    rw [if_pos rfl, htrailer, hpayload, ForwardScan.afterTrailer_eq_ok_iff.mpr
      ⟨record.trailer payload, Trailer.decode_encode _, record.checkHeader_trailer payload, rfl,
        rfl⟩]
    rfl

/-- A record that does not fit the target is corrupt, whatever follows its header. -/
theorem resultOn_forward_of_not_fitsTarget (hstart : Layout.journalStart ≤ record.journalOffset)
    (hstored : record.timestamp.IsStored)
    (hheader : journal.window record.journalOffset record.headerLength = record.header)
    (hfits : ¬ record.kind.FitsTarget targetLength) :
    ∃ damage, (ScanTask.forward record.journalOffset targetLength verifyTrailer).resultOn journal =
      .error (.corruptRecord record.journalOffset damage) := by
  rw [resultOn_forward_of_header hstart hstored hheader]
  cases hcheck : record.kind.checkTarget targetLength with
  | ok value => exact absurd (RecordKind.checkTarget_eq_ok_iff.mp hcheck) hfits
  | error damage =>
    refine ⟨damage, ?_⟩
    simp only [ForwardScan.afterHeader, hcheck, ForwardScan.outcome]

/-- The header of a record that ends inside the journal belongs to a record framed with its
checksum, or a verifying forward scan reports it as corrupt for every target length. -/
theorem framedBy_or_corrupt (hstart : Layout.journalStart ≤ record.journalOffset)
    (hstored : record.timestamp.IsStored)
    (hheader : journal.window record.journalOffset record.headerLength = record.header)
    (hin : record.endOffset ≤ journal.length) (hlimit : record.endOffset < Layout.offsetLimit)
    (targetLength : Nat) :
    (∃ trailer, record.FramedBy trailer journal ∧
        record.checksumIn journal = trailer.checksum) ∨
      ∃ damage, (ScanTask.forward record.journalOffset targetLength true).resultOn journal =
        .error (.corruptRecord record.journalOffset damage) := by
  by_cases hfits : record.kind.FitsTarget targetLength
  · rw [resultOn_forward_of_body hstart hstored hheader hfits hlimit hin]
    dsimp only
    rw [if_pos rfl]
    generalize htrailer : ForwardScan.afterTrailer _ _ _ = result
    cases result with
    | error error =>
      obtain ⟨damage, rfl⟩ := ForwardScan.corrupt_of_afterTrailer rfl htrailer
      exact .inr ⟨damage, rfl⟩
    | ok result =>
      obtain ⟨trailer, hdecode, hagrees, hsum, -⟩ :=
        ForwardScan.afterTrailer_eq_ok_iff.mp htrailer
      exact .inl ⟨trailer, .of_decode hstart hstored hin hheader hdecode hagrees, hsum⟩
  · exact .inr (resultOn_forward_of_not_fitsTarget hstart hstored hheader hfits)

/-- A verifying forward scan finds a record iff it stands at the position, fits the target and ends
below the offset limit. -/
theorem resultOn_forward_eq_some_iff {cursor next : Nat}
    (hword : targetLength < Layout.offsetLimit) :
    (ScanTask.forward cursor targetLength true).resultOn journal =
        .ok (some ⟨record, next⟩) ↔
      record.journalOffset = cursor ∧ record.endOffset = next ∧
        record.kind.FitsTarget targetLength ∧ next < Layout.offsetLimit ∧
        ∃ payload, record.StandsIn payload journal := by
  constructor
  · intro h
    rw [resultOn_forward] at h
    split at h
    · next hvalid =>
      split at h
      · cases h
      · obtain ⟨hstart, hend, hfits, hlimit, hstands⟩ :=
          ForwardScan.standsIn_of_resultOn hvalid.1 hvalid.2 rfl rfl rfl hword h
        dsimp only at hstart hend hfits hlimit hstands
        exact ⟨hstart, hend.symm, hfits, by omega, hstands⟩
    · cases h
  · rintro ⟨rfl, rfl, hfits, hlimit, payload, h⟩
    exact resultOn_forward_of_standsIn h hfits hlimit true

/-- A forward scan answers that there is no record iff it is at the end of the journal. -/
theorem resultOn_forward_eq_none_iff {cursor : Nat} :
    (ScanTask.forward cursor targetLength verifyTrailer).resultOn journal = .ok none ↔
      cursor = journal.length ∧ Layout.journalStart ≤ journal.length := by
  rw [resultOn_forward]
  constructor
  · intro h
    split at h
    · next hvalid =>
      split at h
      · next hcursor => exact ⟨hcursor, by omega⟩
      · exact absurd h (Scan.resultOn_ne_none _ _)
    · cases h
  · rintro ⟨rfl, h⟩
    rw [if_pos ⟨h, Nat.le_refl _⟩, if_pos rfl]

end ScanTask
end UndoLog
