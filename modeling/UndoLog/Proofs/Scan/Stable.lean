import UndoLog.Proofs.Record.Stable
import UndoLog.Proofs.Scan.Backward
import UndoLog.Proofs.Scan.CutShort

/-!
# Scans of journals that grow

A scan backward sees nothing of the reserved bytes and of what stands past its position. A scan
forward that finds a record, or refuses the bytes for what they are, does so again after more bytes
were appended. One that reports a truncated journal reaches, when there is more, at least the end
that it reported.
-/

namespace UndoLog

private theorem Bytes.window_eq_of_window_eq {data other : Bytes} {first stop start length : Nat}
    (h : data.window first (stop - first) = other.window first (stop - first))
    (hfirst : first ≤ start) (hstop : start + length ≤ stop) :
    data.window start length = other.window start length := by
  have hinside (bytes : Bytes) : bytes.window start length =
      (bytes.window first (stop - first)).window (start - first) length := by
    unfold window
    rw [List.drop_take, List.take_take, List.drop_drop, Nat.min_eq_left (by omega),
      Nat.add_sub_cancel' hfirst]
  rw [hinside data, hinside other, h]

private theorem Record.FramedBy.of_window_eq {r : Record} {t : Trailer} {journal other : Bytes}
    (h : r.FramedBy t journal) (hin : r.endOffset ≤ other.length)
    (heq : journal.window Layout.journalStart (r.endOffset - Layout.journalStart) =
      other.window Layout.journalStart (r.endOffset - Layout.journalStart)) :
    r.FramedBy t other ∧ r.checksumIn other = r.checksumIn journal := by
  have hstart := h.start_le
  have hend := r.endOffset_eq
  have hoffset : r.payloadOffset = r.journalOffset + r.headerLength := rfl
  have hwindow {start length : Nat} (hlo : Layout.journalStart ≤ start)
      (hhi : start + length ≤ r.endOffset) :
      other.window start length = journal.window start length :=
    (Bytes.window_eq_of_window_eq heq hlo hhi).symm
  constructor
  · exact {
      start_le := h.start_le
      stored := h.stored
      endOffset_le := hin
      header_eq := by rw [hwindow hstart (by omega), h.header_eq]
      trailer_eq := by rw [hwindow (by omega) (by omega), h.trailer_eq]
      agrees := h.agrees }
  · unfold checksumIn
    rw [hwindow (by omega) (by omega)]

/-- Equal bytes from behind the reserved ones to the position give the same run from the trailer. -/
theorem BackwardScan.resultOn_congr {journal other : Bytes} {cursor : Nat}
    (hroom : Layout.journalStart + Layout.trailerLength ≤ cursor)
    (hin : cursor ≤ journal.length) (hother : cursor ≤ other.length)
    (h : journal.window Layout.journalStart (cursor - Layout.journalStart) =
      other.window Layout.journalStart (cursor - Layout.journalStart)) :
    (Scan.backward { cursor, journalLength := journal.length }).resultOn journal =
      (Scan.backward { cursor, journalLength := other.length }).resultOn other := by
  let s : BackwardScan := { cursor, journalLength := journal.length }
  let so : BackwardScan := { cursor, journalLength := other.length }
  have hwindow {start length : Nat} (hlo : Layout.journalStart ≤ start)
      (hhi : start + length ≤ cursor) :
      other.window start length = journal.window start length :=
    (Bytes.window_eq_of_window_eq h hlo hhi).symm
  rw [resultOn_trailer (by dsimp only; omega) hin rfl,
    resultOn_trailer (by dsimp only; omega) hother rfl]
  dsimp only
  rw [hwindow (by omega) (by omega)]
  show s.outcome journal (s.afterTrailer _) = so.outcome other (s.afterTrailer _)
  cases htrailer : s.afterTrailer
      (journal.window (cursor - Layout.trailerLength) Layout.trailerLength) with
  | error error => rfl
  | ok result =>
    obtain ⟨trailer, type, start, hdecode, -, -, -, hstart, rfl⟩ :=
      afterTrailer_eq_ok_iff.mp htrailer
    obtain ⟨hafter, hend⟩ := Trailer.recordStart?_eq_some_iff.mp hstart
    have hheaderEnd : start + trailer.headerLength.toNat ≤ cursor := by
      show _ ≤ s.cursor
      omega
    rw [outcome_header (Nat.le_trans hheaderEnd hin),
      outcome_header (Nat.le_trans hheaderEnd hother), hwindow hafter hheaderEnd]
    show s.outcome journal (s.afterHeader start trailer _) =
      so.outcome other (s.afterHeader start trailer _)
    cases hheader : s.afterHeader start trailer
        (journal.window start trailer.headerLength.toNat) with
    | error error => rfl
    | ok result =>
      obtain ⟨record, hframed, hcursor, -, hpayload⟩ :=
        framedBy_of_afterHeader (s := s) hin hdecode hstart hheader
      have hend : record.endOffset = cursor := hcursor
      rw [← hend] at h hother
      obtain ⟨hframedOther, hsum⟩ := hframed.of_window_eq hother h
      rw [← hpayload, outcome_payload hframed, outcome_payload hframedOther, hsum]

namespace ScanTask

/-- The result is a record that ends at `recordEnd` or later, a truncation with such an end, or a
refusal of the bytes. -/
def EndsFrom (recordEnd : Nat) : ScanResult → Prop
  | .ok none => False
  | .ok (some found) => recordEnd ≤ found.cursor
  | .error (.invalidCursor ..) => False
  | .error (.truncatedJournal _ laterEnd _) => recordEnd ≤ laterEnd
  | .error _ => True

/-- A later answer is the same if the first found a record, corruption or an unknown tag; if the
first was a truncation, the later one reaches its `recordEnd`. -/
structure Foretells (answer later : ScanResult) : Prop where
  found {scanned : Scanned} (h : answer = .ok (some scanned)) : later = answer
  corrupt {offset : Nat} {damage : Damage} (h : answer = .error (.corruptRecord offset damage)) :
    later = answer
  unrecognized {tag : UInt8} {offset : Nat} (h : answer = .error (.unrecognizedType tag offset)) :
    later = answer
  truncated {offset recordEnd journalLength : Nat}
    (h : answer = .error (.truncatedJournal offset recordEnd journalLength)) :
    EndsFrom recordEnd later

private theorem Foretells.refl (answer : ScanResult) : Foretells answer answer where
  found _ := rfl
  corrupt _ := rfl
  unrecognized _ := rfl
  truncated h := by
    rw [h]
    exact Nat.le_refl _

private theorem foretells_of_endsFrom {offset recordEnd journalLength : Nat} {later : ScanResult}
    (h : EndsFrom recordEnd later) :
    Foretells (.error (.truncatedJournal offset recordEnd journalLength)) later where
  found h := by cases h
  corrupt h := by cases h
  unrecognized h := by cases h
  truncated heq := by
    cases heq
    exact h

private theorem EndsFrom.mono {recordEnd before : Nat} {answer : ScanResult}
    (h : EndsFrom recordEnd answer) (hle : before ≤ recordEnd) : EndsFrom before answer := by
  match answer, h with
  | .ok (some found), h => exact Nat.le_trans hle h
  | .error (.truncatedJournal offset laterEnd journalLength), h => exact Nat.le_trans hle h
  | .error (.storage error), _ => trivial
  | .error (.corruptRecord offset damage), _ => trivial
  | .error (.unrecognizedType tag offset), _ => trivial
  | .error (.invalidArgument refusal), _ => trivial

/-- A header refused not for its end has the same error for every number of bytes. -/
theorem exists_headerError_of_refused {error : HeaderError} (h : error.fieldEnd? = none)
    (cursor : Nat) :
    ∃ answer : JournalError, (∀ limit, EndsFrom limit (.error answer)) ∧
      ∀ (s : ForwardScan) (available : Nat), s.cursor = cursor →
        s.headerError available error = answer := by
  cases error with
  | unknownTag tag =>
    refine ⟨.unrecognizedType tag cursor, fun _ => trivial, ?_⟩
    rintro s available rfl
    rfl
  | field position error =>
    refine ⟨.corruptRecord cursor (.field error), fun _ => trivial, ?_⟩
    rintro s available rfl
    cases error with
    | unexpectedEnd needed available => cases h
    | invalidWidth width max => rfl
    | nonCanonical width => rfl
    | timestampOutOfRange micros => rfl

/-- A header cut in a field is a truncation at the end of that field, unless the window has the
maximal header length. -/
theorem exists_headerError_of_cut {error : HeaderError} {fieldEnd : Nat}
    (h : error.fieldEnd? = some fieldEnd) :
    ∃ damage, ∀ (s : ForwardScan) (available : Nat), s.headerError available error =
      if available < Layout.maxHeaderLength then
        s.truncated (s.cursor + fieldEnd)
      else .corruptRecord s.cursor damage := by
  cases error with
  | unknownTag tag => cases h
  | field position error =>
    cases error with
    | unexpectedEnd needed available =>
      cases h
      exact ⟨.field (.unexpectedEnd needed available), fun s available => by
        rw [← Nat.add_assoc]; rfl⟩
    | invalidWidth width max => cases h
    | nonCanonical width => cases h
    | timestampOutOfRange micros => cases h

variable {journal other : Bytes} {record : Record} {cursor targetLength : Nat}
  {verifyTrailer : Bool}

/-- A record that does not fit the target, or ends past the offset limit, is corrupt in the same way
wherever its header is in place. -/
private theorem resultOn_forward_of_refused (hstart : Layout.journalStart ≤ record.journalOffset)
    (hstored : record.timestamp.IsStored)
    (hrefused : ¬ (record.kind.FitsTarget targetLength ∧ record.endOffset < Layout.offsetLimit)) :
    ∃ damage, ∀ journal : Bytes,
      journal.window record.journalOffset record.headerLength = record.header →
      (ScanTask.forward record.journalOffset targetLength verifyTrailer).resultOn journal =
        .error (.corruptRecord record.journalOffset damage) := by
  have hend := record.endOffset_eq
  cases hcheck : record.kind.checkTarget targetLength with
  | error damage =>
    refine ⟨damage, ?_⟩
    intro journal hheader
    rw [resultOn_forward_of_header hstart hstored hheader]
    simp only [ForwardScan.afterHeader, hcheck, ForwardScan.outcome]
  | ok value =>
    have hfits : record.kind.FitsTarget targetLength := RecordKind.checkTarget_eq_ok_iff.mp hcheck
    have hlimit : ¬ record.endOffset < Layout.offsetLimit := fun h => hrefused ⟨hfits, h⟩
    refine ⟨.recordOverflow, ?_⟩
    intro journal hheader
    rw [resultOn_forward_of_header hstart hstored hheader]
    simp only [ForwardScan.afterHeader, hcheck, ← hend]
    rw [if_pos (by omega)]
    rfl

private theorem endsFrom_of_header (hstart : Layout.journalStart ≤ record.journalOffset)
    (hstored : record.timestamp.IsStored)
    (hheader : journal.window record.journalOffset record.headerLength = record.header) :
    EndsFrom record.endOffset
      ((ScanTask.forward record.journalOffset targetLength verifyTrailer).resultOn journal) := by
  by_cases hfound : record.kind.FitsTarget targetLength ∧ record.endOffset < Layout.offsetLimit
  · by_cases hin : record.endOffset ≤ journal.length
    · rw [resultOn_forward_of_body hstart hstored hheader hfound.1 hfound.2 hin]
      cases verifyTrailer with
      | false => exact Nat.le_refl _
      | true =>
        dsimp only
        rw [if_pos rfl]
        generalize htrailer : ForwardScan.afterTrailer _ _ _ = result
        cases result with
        | error error =>
          obtain ⟨damage, rfl⟩ := ForwardScan.corrupt_of_afterTrailer rfl htrailer
          trivial
        | ok result =>
          obtain ⟨_, _, _, _, rfl⟩ := ForwardScan.afterTrailer_eq_ok_iff.mp htrailer
          exact Nat.le_refl _
    · rw [resultOn_forward_of_body_cut hstart hstored hfound.2 hheader (by omega) hfound.1]
      exact Nat.le_refl _
  · obtain ⟨damage, hcorrupt⟩ := resultOn_forward_of_refused hstart hstored hfound
    rw [hcorrupt journal hheader]
    trivial

/-- Equal bytes in the place of a record give the same forward scan. -/
theorem resultOn_forward_congr (hstart : Layout.journalStart ≤ record.journalOffset)
    (hstored : record.timestamp.IsStored) (hin : record.endOffset ≤ journal.length)
    (hother : record.endOffset ≤ other.length)
    (hheader : journal.window record.journalOffset record.headerLength = record.header)
    (heq : ∀ start length, start + length ≤ record.endOffset →
      other.window start length = journal.window start length) :
    (ScanTask.forward record.journalOffset targetLength verifyTrailer).resultOn other =
      (ScanTask.forward record.journalOffset targetLength verifyTrailer).resultOn journal := by
  have hend := record.endOffset_eq
  have hpayload := record.payloadOffset_add_dataLength
  have hheaderOther :
      other.window record.journalOffset record.headerLength = record.header := by
    rw [heq _ _ (by omega), hheader]
  by_cases hfound : record.kind.FitsTarget targetLength ∧ record.endOffset < Layout.offsetLimit
  · obtain ⟨hfits, hlimit⟩ := hfound
    rw [resultOn_forward_of_body hstart hstored hheader hfits hlimit hin,
      resultOn_forward_of_body hstart hstored hheaderOther hfits hlimit hother]
    cases verifyTrailer with
    | false => rfl
    | true =>
      dsimp only
      rw [if_pos rfl, if_pos rfl, heq _ _ (by omega), heq _ _ (by omega)]
      exact ForwardScan.outcome_afterTrailer_congr rfl
  · obtain ⟨damage, hcorrupt⟩ := resultOn_forward_of_refused hstart hstored hfound
    rw [hcorrupt journal hheader, hcorrupt other hheaderOther]

private theorem foretells_of_header (hstart : Layout.journalStart ≤ record.journalOffset)
    (hstored : record.timestamp.IsStored)
    (hheader : journal.window record.journalOffset record.headerLength = record.header)
    (more : Bytes) :
    Foretells
      ((ScanTask.forward record.journalOffset targetLength verifyTrailer).resultOn journal)
      ((ScanTask.forward record.journalOffset targetLength verifyTrailer).resultOn
        (journal ++ more)) := by
  have hend := record.endOffset_eq
  have hminHeader := record.kind.minHeaderLength_le
  have hmin : Layout.minHeaderLength = 11 := rfl
  have hheaderEnd : record.journalOffset + record.headerLength ≤ journal.length := by
    apply Bytes.add_le_length_of_window
    · unfold Record.headerLength
      omega
    · rw [hheader, Record.length_header]
  have hheaderMore : Bytes.window (journal ++ more) record.journalOffset record.headerLength =
      record.header := by
    rw [Bytes.window_append_left hheaderEnd, hheader]
  by_cases hin : record.endOffset ≤ journal.length
  · have hmore : record.endOffset ≤ (journal ++ more).length := by
      rw [List.length_append]
      omega
    rw [resultOn_forward_congr hstart hstored hin hmore hheader
      fun start length h => Bytes.window_append_left (Nat.le_trans h hin) more]
    exact .refl _
  · by_cases hfound : record.kind.FitsTarget targetLength ∧ record.endOffset < Layout.offsetLimit
    · rw [resultOn_forward_of_body_cut hstart hstored hfound.2 hheader (by omega) hfound.1]
      exact foretells_of_endsFrom (endsFrom_of_header hstart hstored hheaderMore)
    · obtain ⟨damage, hcorrupt⟩ := resultOn_forward_of_refused hstart hstored hfound
      rw [hcorrupt journal hheader, hcorrupt (journal ++ more) hheaderMore]
      exact .refl _

private theorem headerBytes_append (hin : cursor ≤ journal.length) (more : Bytes) :
    ∃ rest, headerBytes (journal ++ more) cursor = headerBytes journal cursor ++ rest ∧
      (Layout.maxHeaderLength ≤ (headerBytes journal cursor).length → rest = []) := by
  unfold headerBytes
  let n := min (journal.length - cursor) Layout.maxHeaderLength
  let later := min ((journal ++ more).length - cursor) Layout.maxHeaderLength
  have hlater : later = n + (later - n) := by
    simp only [later, n, List.length_append]
    omega
  refine ⟨Bytes.window (journal ++ more) (cursor + n) (later - n), ?_, ?_⟩
  · show Bytes.window (journal ++ more) cursor later = journal.window cursor n ++ _
    calc Bytes.window (journal ++ more) cursor later
      _ = Bytes.window (journal ++ more) cursor (n + (later - n)) := by rw [← hlater]
      _ = Bytes.window (journal ++ more) cursor n ++
          Bytes.window (journal ++ more) (cursor + n) (later - n) := Bytes.window_add _ _ _ _
      _ = _ := by rw [Bytes.window_append_left (by simp only [n]; omega)]
  · intro hlong
    rw [Bytes.length_window_eq_min] at hlong
    have hnone : later - n = 0 := by
      simp only [later, n, List.length_append]
      omega
    rw [hnone, Bytes.window, List.take_zero]

private theorem endsFrom_of_decode {limit : Nat} (hstart : Layout.journalStart ≤ cursor)
    (hin : cursor < journal.length)
    (hok : ∀ decoded, DecodedHeader.decode cursor (headerBytes journal cursor) = .ok decoded →
      limit ≤ cursor + decoded.length)
    (hcut : ∀ error fieldEnd,
      DecodedHeader.decode cursor (headerBytes journal cursor) = .error error →
      error.fieldEnd? = some fieldEnd → limit ≤ cursor + fieldEnd) :
    EndsFrom limit
      ((ScanTask.forward cursor targetLength verifyTrailer).resultOn journal) := by
  cases hdecode : DecodedHeader.decode cursor (headerBytes journal cursor) with
  | ok decoded =>
    have hlimit := hok decoded hdecode
    obtain ⟨rfl, hstored, hlength, rest, hbytes⟩ := DecodedHeader.decode_eq_ok_iff.mp hdecode
    have hend := decoded.record.endOffset_eq
    apply (endsFrom_of_header hstart hstored (decoded.record.window_headerLength hbytes)).mono
    omega
  | error error =>
    rw [resultOn_forward_of_lt hstart hin]
    dsimp only
    rw [hdecode]
    cases hend : error.fieldEnd? with
    | none =>
      obtain ⟨answer, hends, hanswer⟩ := exists_headerError_of_refused hend cursor
      dsimp only
      rw [hanswer _ _ rfl]
      exact hends limit
    | some fieldEnd =>
      obtain ⟨damage, hanswer⟩ := exists_headerError_of_cut hend
      dsimp only
      rw [hanswer]
      split
      · exact hcut error fieldEnd hdecode hend
      · trivial

private theorem foretells_of_refused {error : HeaderError} (hstart : Layout.journalStart ≤ cursor)
    (hin : cursor < journal.length)
    (hdecode : DecodedHeader.decode cursor (headerBytes journal cursor) = .error error)
    (hrefused : error.fieldEnd? = none) (more : Bytes) :
    Foretells ((ScanTask.forward cursor targetLength verifyTrailer).resultOn journal)
      ((ScanTask.forward cursor targetLength verifyTrailer).resultOn (journal ++ more)) := by
  have hinMore : cursor < (journal ++ more).length := by
    rw [List.length_append]
    omega
  obtain ⟨rest, hbytes, -⟩ := headerBytes_append (Nat.le_of_lt hin) more
  have hdecodeMore := DecodedHeader.decode_append_of_refused rest hdecode hrefused
  obtain ⟨answer, -, hanswer⟩ := exists_headerError_of_refused hrefused cursor
  rw [← hbytes] at hdecodeMore
  rw [resultOn_forward_of_lt hstart hin, resultOn_forward_of_lt hstart hinMore]
  dsimp only
  rw [hdecode, hdecodeMore]
  dsimp only
  rw [hanswer _ _ rfl, hanswer _ _ rfl]
  exact .refl _

/-- A header cut in a field reaches the end of that field after an append, or is refused in the same
way. -/
private theorem foretells_of_cut {error : HeaderError} {fieldEnd : Nat}
    (hstart : Layout.journalStart ≤ cursor) (hin : cursor < journal.length)
    (hdecode : DecodedHeader.decode cursor (headerBytes journal cursor) = .error error)
    (hcut : error.fieldEnd? = some fieldEnd) (more : Bytes) :
    Foretells ((ScanTask.forward cursor targetLength verifyTrailer).resultOn journal)
      ((ScanTask.forward cursor targetLength verifyTrailer).resultOn (journal ++ more)) := by
  have hinMore : cursor < (journal ++ more).length := by
    rw [List.length_append]
    omega
  obtain ⟨rest, hbytes, hwhole⟩ := headerBytes_append (Nat.le_of_lt hin) more
  obtain ⟨damage, hanswer⟩ := exists_headerError_of_cut hcut
  rw [resultOn_forward_of_lt hstart hin]
  dsimp only
  rw [hdecode]
  dsimp only
  rw [hanswer]
  by_cases hshort : (headerBytes journal cursor).length < Layout.maxHeaderLength
  · obtain ⟨-, hok, hlater⟩ := DecodedHeader.decode_append_of_cut rest hdecode hcut
    rw [← hbytes] at hok hlater
    rw [if_pos hshort]
    apply foretells_of_endsFrom
    apply endsFrom_of_decode hstart hinMore
    · intro decoded hdecoded
      exact Nat.add_le_add_left (hok decoded hdecoded) cursor
    · intro later laterEnd hdecoded hlaterCut
      exact Nat.add_le_add_left (hlater later laterEnd hdecoded hlaterCut) cursor
  · obtain rfl := hwhole (Nat.not_lt.mp hshort)
    rw [List.append_nil] at hbytes
    rw [resultOn_forward_of_lt hstart hinMore]
    dsimp only
    rw [hbytes, hdecode]
    dsimp only
    rw [hanswer, if_neg hshort, if_neg hshort]
    exact .refl _

/-- A forward scan foretells the one after an append. -/
theorem foretells_append (more : Bytes) :
    Foretells ((ScanTask.forward cursor targetLength verifyTrailer).resultOn journal)
      ((ScanTask.forward cursor targetLength verifyTrailer).resultOn (journal ++ more)) := by
  by_cases hinside : Layout.journalStart ≤ cursor ∧ cursor < journal.length
  · obtain ⟨hstart, hin⟩ := hinside
    cases hdecode : DecodedHeader.decode cursor (headerBytes journal cursor) with
    | ok decoded =>
      obtain ⟨rfl, hstored, -, rest, hheader⟩ := DecodedHeader.decode_eq_ok_iff.mp hdecode
      exact foretells_of_header hstart hstored (decoded.record.window_headerLength hheader) more
    | error error =>
      cases hend : error.fieldEnd? with
      | none => exact foretells_of_refused hstart hin hdecode hend more
      | some fieldEnd => exact foretells_of_cut hstart hin hdecode hend more
  · have hnothing : (ScanTask.forward cursor targetLength verifyTrailer).resultOn journal =
        .ok none ∨ (ScanTask.forward cursor targetLength verifyTrailer).resultOn journal =
          .error (.invalidCursor cursor journal.length) := by
      rw [resultOn_forward]
      by_cases hvalid : Layout.journalStart ≤ cursor ∧ cursor ≤ journal.length
      · have hend : cursor = journal.length := by omega
        rw [if_pos hvalid, if_pos hend]
        exact .inl rfl
      · rw [if_neg hvalid]
        exact .inr rfl
    obtain hnone | hinvalid := hnothing
    · rw [hnone]
      exact ⟨nofun, nofun, nofun, nofun⟩
    · rw [hinvalid]
      exact ⟨nofun, nofun, nofun, nofun⟩

end ScanTask

/-- A backward scan is the same over all journals with the same bytes from behind the reserved ones
to the position. A forward scan foretells the one after an append, up to a length of 2^63: a record,
corruption or an unknown tag is found again, and a truncation reaches its `recordEnd`. -/
theorem scans_are_local_and_stable :
    (∀ (journal other : Bytes) (cursor : Nat), Layout.journalStart ≤ cursor →
      cursor ≤ journal.length → cursor ≤ other.length →
      journal.window Layout.journalStart (cursor - Layout.journalStart) =
        other.window Layout.journalStart (cursor - Layout.journalStart) →
      (ScanTask.backward cursor).resultOn journal = (ScanTask.backward cursor).resultOn other) ∧
    ∀ (journal more : Bytes) (cursor targetLength : Nat) (verifyTrailer : Bool),
      (journal ++ more).length < 9223372036854775808 →
      ScanTask.Foretells
        ((ScanTask.forward cursor targetLength verifyTrailer).resultOn journal)
        ((ScanTask.forward cursor targetLength verifyTrailer).resultOn (journal ++ more)) := by
  constructor
  · intro journal other cursor hstart hin hother h
    have hvalid : Layout.journalStart ≤ cursor ∧ cursor ≤ journal.length := ⟨hstart, hin⟩
    have hvalidOther : Layout.journalStart ≤ cursor ∧ cursor ≤ other.length := ⟨hstart, hother⟩
    rw [ScanTask.resultOn_backward, ScanTask.resultOn_backward, if_pos hvalid, if_pos hvalidOther]
    by_cases hroom : cursor < Layout.journalStart + Layout.trailerLength
    · rw [if_pos hroom, if_pos hroom]
    · rw [if_neg hroom, if_neg hroom,
        BackwardScan.resultOn_congr (Nat.not_lt.mp hroom) hin hother h]
  · intro journal more cursor targetLength verifyTrailer _
    exact ScanTask.foretells_append more

/-- A write of two bytes, found backward whatever the reserved bytes are and whatever follows it,
and found forward with the end reported when the journal ended inside it. -/
theorem scans_are_local_and_stable_of_write :
    let record : Record := ⟨8, ⟨0, 0, by decide, by decide⟩, .write 3 2⟩
    let journal := Layout.magic ++ record.image [1, 2]
    let other := [0, 0, 0, 0, 0, 0, 0, 0] ++ record.image [1, 2] ++ [7]
    (8 ≤ 37 ∧ 37 ≤ journal.length ∧ 37 ≤ other.length ∧
      journal.window 8 29 = other.window 8 29 ∧
      (ScanTask.backward 37).resultOn journal = (ScanTask.backward 37).resultOn other) ∧
    (journal.take 20 ++ journal.drop 20).length < 9223372036854775808 ∧
      ∃ recordEnd, (ScanTask.forward 8 9 true).resultOn (journal.take 20) =
          .error (.truncatedJournal 8 recordEnd 20) ∧
        ScanTask.EndsFrom recordEnd ((ScanTask.forward 8 9 true).resultOn journal) := by
  intro record journal other
  have hlength : (record.image [1, 2]).length = 29 := Record.length_image rfl
  have hjournal : journal.length = 37 := by
    rw [List.length_append, hlength]
    rfl
  have hother : other.length = 38 := by
    rw [List.length_append, List.length_append, hlength]
    rfl
  have hwindow : journal.window 8 29 = other.window 8 29 := by
    have hleft := Bytes.window_append_append Layout.magic (record.image [1, 2]) []
    have hright := Bytes.window_append_append [0, 0, 0, 0, 0, 0, 0, 0] (record.image [1, 2]) [7]
    rw [hlength] at hleft hright
    rw [List.append_nil] at hleft
    exact hleft.trans hright.symm
  have hstands : record.StandsIn [1, 2] journal := by
    have h : record.StandsIn [1, 2] (Layout.magic ++ record.image [1, 2] ++ []) :=
      .of_append (by decide) (by decide) (by decide) rfl rfl
    rw [List.append_nil] at h
    exact h
  have hwhole : (journal.take 20 ++ journal.drop 20).length < 9223372036854775808 := by
    rw [List.take_append_drop, hjournal]
    decide
  obtain ⟨hbackward, hforward⟩ := scans_are_local_and_stable
  refine ⟨⟨by decide, by omega, by omega, hwindow,
    hbackward journal other 37 (by decide) (by omega) (by omega) hwindow⟩, hwhole, ?_⟩
  obtain ⟨recordEnd, -, -, -, hcut⟩ := ScanTask.resultOn_forward_take hstands (by decide)
    (show 8 < 20 by decide) (show 20 < 37 by decide)
  have htruncated := hcut 9 true (.inl (by decide))
  have hends := (hforward (journal.take 20) (journal.drop 20) 8 9 true hwhole).truncated htruncated
  rw [List.take_append_drop] at hends
  exact ⟨recordEnd, htruncated, hends⟩

end UndoLog
