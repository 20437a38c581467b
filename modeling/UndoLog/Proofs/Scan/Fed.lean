import UndoLog.Proofs.Scan.Backward
import UndoLog.Proofs.Scan.Forward

/-!
# Scans that are fed what they request

`Scan.Reached` lists the scans that a start and resumes over words lead to, each resume with as many
bytes as were requested. The offsets of such a scan are exact and stay inside the journal
(`Scan.Reached.isWithin`).
-/

namespace UndoLog

/-- The offsets of a located record and of its payload check are exact and inside the journal. -/
structure ForwardScan.Located.IsWithin (cursor journalLength : Nat) (located : Located) : Prop where
  journalOffset_eq : located.record.journalOffset = cursor
  check_eq : located.check.offset + located.check.remaining =
    located.record.payloadOffset + located.record.dataLength
  next_eq : located.next = located.record.endOffset
  next_le : located.next ≤ journalLength

/-- A waiting stage with its offsets inside the journal. -/
def ForwardScan.Stage.IsWithin (cursor journalLength : Nat) : Stage → Prop
  | .header => cursor < journalLength
  | .payload located => located.IsWithin cursor journalLength
  | .trailer located => located.IsWithin cursor journalLength
  | .finished => False

/-- A next stage or a found record with its offsets inside the journal. -/
def ForwardScan.ResultIsWithin (cursor journalLength : Nat) : StageResult Stage → Prop
  | .next stage => stage.IsWithin cursor journalLength
  | .found found => found.cursor = found.record.endOffset ∧ found.cursor ≤ journalLength

/-- A waiting stage with its offsets before the position. -/
def BackwardScan.Stage.IsWithin (cursor : Nat) : Stage → Prop
  | .trailer => Layout.trailerLength ≤ cursor
  | .header start t =>
    start + t.headerLength.toNat + t.dataLength.toNat + Layout.trailerLength = cursor
  | .payload _ _ check => check.offset + check.remaining + Layout.trailerLength = cursor
  | .finished => False

/-- A waiting scan with its offsets inside the journal. -/
def Scan.IsWithin : Scan → Prop
  | .forward scan => scan.stage.IsWithin scan.cursor scan.journalLength
  | .backward scan => scan.stage.IsWithin scan.cursor ∧ scan.cursor ≤ scan.journalLength

/-- The waiting scans reached from `s`, with their requests: started, and then resumed with as many
bytes as requested. -/
inductive Scan.Reached (s : Scan) : ReadRequest → Scan → Prop
  | started {request : ReadRequest} {mid : Scan} (asks : s.start = (.ok (.read request), mid)) :
      Reached s request mid
  | resumed {request later : ReadRequest} {mid next : Scan} {bytes : Bytes}
      (before : Reached s request mid) (fed : bytes.length = request.length)
      (asks : mid.resume? bytes = some (.ok (.read later), next)) : Reached s later next

private theorem PayloadCheck.end_update {c : PayloadCheck} {chunk : Bytes}
    (hfed : chunk.length = c.request.length) :
    (c.update chunk).offset + (c.update chunk).remaining = c.offset + c.remaining := by
  have hle : chunk.length ≤ c.remaining := by
    rw [hfed]
    exact Nat.min_le_left _ _
  simp only [update]
  omega

/-- The offset after a requested chunk is at most the end of the payload. -/
theorem PayloadCheck.offset_add_length_le {c : PayloadCheck} {chunk : Bytes}
    (hfed : chunk.length = c.request.length) :
    c.offset + chunk.length ≤ c.offset + c.remaining := by
  rw [hfed]
  exact Nat.add_le_add_left (Nat.min_le_left _ _) _

namespace ForwardScan

variable {s : ForwardScan} {bytes : Bytes} {cursor journalLength : Nat}

/-- A forward start requests a header iff the position is before the end of the journal. -/
theorem start_eq_read_iff {mid : ForwardScan} {request : ReadRequest} :
    s.start = (.ok (.read request), mid) ↔
      Layout.journalStart ≤ s.cursor ∧ s.cursor < s.journalLength ∧ mid = s ∧
        request = ⟨s.cursor, min (s.journalLength - s.cursor) Layout.maxHeaderLength⟩ := by
  unfold start checkCursor
  by_cases hvalid : Layout.journalStart ≤ s.cursor ∧ s.cursor ≤ s.journalLength
  · rw [if_pos hvalid]
    dsimp only
    by_cases hend : s.cursor = s.journalLength
    · rw [if_pos hend]
      constructor
      · intro h
        cases h
      · omega
    · rw [if_neg hend]
      constructor
      · intro h
        cases h
        exact ⟨hvalid.1, by omega, rfl, rfl⟩
      · rintro ⟨-, -, rfl, rfl⟩
        rfl
  · rw [if_neg hvalid]
    constructor
    · intro h
      cases h
    · omega

private theorem Located.IsWithin.ofLocated {located : Located}
    (h : located.IsWithin cursor journalLength) :
    (Stage.ofLocated located).IsWithin cursor journalLength := by
  unfold Stage.ofLocated
  split <;> exact h

private theorem Located.IsWithin.update {located : Located}
    (h : located.IsWithin cursor journalLength)
    (hfed : bytes.length = located.check.request.length) :
    Located.IsWithin cursor journalLength
      { located with check := located.check.update bytes } where
  journalOffset_eq := h.journalOffset_eq
  check_eq := (PayloadCheck.end_update hfed).trans h.check_eq
  next_eq := h.next_eq
  next_le := h.next_le

private theorem Located.isWithin_of_decode {decoded : DecodedHeader}
    (hdecode : DecodedHeader.decode cursor bytes = .ok decoded)
    (hin : cursor + decoded.length + decoded.record.dataLength + Layout.trailerLength ≤
      journalLength) :
    Located.IsWithin cursor journalLength {
      record := decoded.record
      next := cursor + decoded.length + decoded.record.dataLength + Layout.trailerLength
      headerLength := decoded.length
      check := .ofHeader decoded.record (bytes.take decoded.length) } := by
  obtain ⟨hoffset, -, hlength, -⟩ := DecodedHeader.decode_eq_ok_iff.mp hdecode
  exact {
    journalOffset_eq := hoffset
    check_eq := rfl
    next_eq := by
      dsimp only
      rw [hlength, ← hoffset, Record.endOffset_eq]
    next_le := hin }

/-- A fed stage leads to a stage within. -/
theorem isWithin_of_advance {result : StageResult Stage}
    (h : s.stage.IsWithin s.cursor s.journalLength) (hfed : bytes.length = s.request.length)
    (hadvance : s.advance bytes = .ok result) :
    ResultIsWithin s.cursor s.journalLength result := by
  unfold advance at hadvance
  cases hstage : s.stage with
  | header =>
    rw [hstage] at hadvance
    dsimp only at hadvance
    cases hdecode : DecodedHeader.decode s.cursor bytes with
    | error error =>
      rw [hdecode] at hadvance
      cases hadvance
    | ok decoded =>
      rw [hdecode] at hadvance
      obtain ⟨-, -, hin, rfl⟩ := afterHeader_eq_ok_iff.mp hadvance
      have hwithin := Located.isWithin_of_decode hdecode hin
      unfold afterFit
      dsimp only
      split
      · exact hwithin.ofLocated
      · exact ⟨hwithin.next_eq, hwithin.next_le⟩
  | payload located =>
    rw [hstage] at h hadvance
    cases hadvance
    have hrequest : s.request = located.check.request := by rw [request, hstage]
    exact (Located.IsWithin.update h (by rw [hfed, hrequest])).ofLocated
  | trailer located =>
    rw [hstage] at h hadvance
    obtain ⟨_, _, _, _, rfl⟩ := afterTrailer_eq_ok_iff.mp hadvance
    exact ⟨h.next_eq, h.next_le⟩
  | finished =>
    rw [hstage] at hadvance
    cases hadvance

end ForwardScan

namespace BackwardScan

variable {s : BackwardScan} {bytes : Bytes}

/-- A backward start requests a trailer iff there is room for one before the position. -/
theorem start_eq_read_iff {mid : BackwardScan} {request : ReadRequest} :
    s.start = (.ok (.read request), mid) ↔
      Layout.journalStart + Layout.trailerLength ≤ s.cursor ∧ s.cursor ≤ s.journalLength ∧
        mid = s ∧ request = ⟨s.cursor - Layout.trailerLength, Layout.trailerLength⟩ := by
  have hlength : 0 < Layout.trailerLength := by decide
  unfold start checkCursor
  by_cases hvalid : Layout.journalStart ≤ s.cursor ∧ s.cursor ≤ s.journalLength
  · rw [if_pos hvalid]
    dsimp only
    by_cases hroom : Layout.journalStart + Layout.trailerLength ≤ s.cursor
    · rw [if_neg (by omega), if_neg (by omega)]
      constructor
      · intro h
        cases h
        exact ⟨hroom, hvalid.2, rfl, rfl⟩
      · rintro ⟨-, -, rfl, rfl⟩
        rfl
    · constructor
      · intro h
        split at h
        · cases h
        · rw [if_pos (Nat.not_le.mp hroom)] at h
          cases h
      · exact fun h => absurd h.1 hroom
  · rw [if_neg hvalid]
    constructor
    · intro h
      cases h
    · omega

private theorem eq_payload_of_afterPayload {record : Record} {trailer : Trailer}
    {check : PayloadCheck} {stage : Stage}
    (h : afterPayload record trailer check = .ok (.next stage)) :
    stage = .payload record trailer check := by
  unfold afterPayload at h
  split at h
  · cases h
    rfl
  · split at h <;> cases h

/-- A fed stage leads to a stage within. -/
theorem isWithin_of_advance {stage : Stage} (h : s.stage.IsWithin s.cursor)
    (hfed : bytes.length = s.request.length) (hadvance : s.advance bytes = .ok (.next stage)) :
    stage.IsWithin s.cursor := by
  unfold advance at hadvance
  cases hstage : s.stage with
  | trailer =>
    rw [hstage] at hadvance
    obtain ⟨trailer, type, start, -, -, -, -, hstart, hnext⟩ := afterTrailer_eq_ok_iff.mp hadvance
    cases hnext
    exact (Trailer.recordStart?_eq_some_iff.mp hstart).2
  | header start trailer =>
    rw [hstage] at h hadvance
    obtain ⟨decoded, hdecode, hagrees, -, hpayload⟩ := afterHeader_eq_ok_iff.mp hadvance
    obtain rfl := eq_payload_of_afterPayload hpayload
    obtain ⟨hoffset, -, hlength, -⟩ := DecodedHeader.decode_eq_ok_iff.mp hdecode
    obtain ⟨-, hheader, hdata⟩ := Trailer.checkHeader_eq_ok_iff.mp hagrees
    have hend : start + trailer.headerLength.toNat + trailer.dataLength.toNat +
        Layout.trailerLength = s.cursor := h
    rw [hheader, hlength, hdata, ← hoffset] at hend
    exact hend
  | payload record trailer check =>
    rw [hstage] at h hadvance
    obtain rfl := eq_payload_of_afterPayload hadvance
    have hrequest : s.request = check.request := by rw [request, hstage]
    have hchunk : bytes.length = check.request.length := by rw [hfed, hrequest]
    have hend : check.offset + check.remaining + Layout.trailerLength = s.cursor := h
    rw [← PayloadCheck.end_update hchunk] at hend
    exact hend
  | finished =>
    rw [hstage] at hadvance
    cases hadvance

end BackwardScan

namespace Scan

variable {mid next : Scan} {bytes : Bytes} {request : ReadRequest}

private theorem isWithin_of_start {task : ScanTask} {journalLength : Nat}
    (h : (task.scan journalLength).start = (.ok (.read request), mid)) :
    mid = task.scan journalLength ∧ request = mid.request ∧ mid.IsWithin := by
  obtain rfl := eq_of_start h
  refine ⟨rfl, ?_⟩
  cases task with
  | forward cursor targetLength verifyTrailer =>
    let scan : ForwardScan := { cursor, journalLength, targetLength, verifyTrailer }
    have hstart : scan.start.1 = .ok (.read request) := congrArg Prod.fst h
    obtain ⟨-, hin, -, hrequest⟩ := ForwardScan.start_eq_read_iff.mp (Prod.ext hstart rfl)
    exact ⟨hrequest, hin⟩
  | backward cursor =>
    let scan : BackwardScan := { cursor, journalLength }
    have hstart : scan.start.1 = .ok (.read request) := congrArg Prod.fst h
    obtain ⟨hroom, hin, -, hrequest⟩ := BackwardScan.start_eq_read_iff.mp (Prod.ext hstart rfl)
    exact ⟨hrequest, Nat.le_trans (Nat.le_add_left _ _) hroom, hin⟩

private theorem isWithin_of_resume (hwithin : mid.IsWithin)
    (hfed : bytes.length = mid.request.length)
    (h : mid.resume bytes = (.ok (.read request), next)) :
    next.finish = mid.finish ∧ request = next.request ∧ next.IsWithin := by
  cases mid with
  | forward scan =>
    rw [resume_forward, StageResult.settle_eq_read_iff] at h
    obtain ⟨stage, hadvance, rfl, rfl⟩ := h
    exact ⟨rfl, rfl, ForwardScan.isWithin_of_advance hwithin hfed hadvance⟩
  | backward scan =>
    rw [resume_backward, StageResult.settle_eq_read_iff] at h
    obtain ⟨stage, hadvance, rfl, rfl⟩ := h
    have hnext := BackwardScan.isWithin_of_advance hwithin.1 hfed hadvance
    exact ⟨rfl, rfl, hnext, hwithin.2⟩

/-- A reached scan differs in its stage only, and is within. -/
theorem Reached.isWithin {task : ScanTask} {journalLength : Nat}
    (h : (task.scan journalLength).Reached request mid) :
    mid.finish = (task.scan journalLength).finish ∧ request = mid.request ∧ mid.IsWithin := by
  induction h with
  | started asks =>
    obtain ⟨rfl, hrequest, hwithin⟩ := isWithin_of_start asks
    exact ⟨rfl, hrequest, hwithin⟩
  | resumed before fed asks ih =>
    obtain ⟨hsame, rfl, hwithin⟩ := ih
    obtain ⟨hkept, hlater, hnext⟩ := isWithin_of_resume hwithin fed (eq_of_resume? asks)
    exact ⟨hkept.trans hsame, hlater, hnext⟩

end Scan
end UndoLog
