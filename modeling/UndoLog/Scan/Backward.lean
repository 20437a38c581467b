import UndoLog.Record.Header
import UndoLog.Scan.Payload
import UndoLog.Scan.Validation

/-!
# Scanning backward

A backward scan reads the record that ends at a position. It takes the trailer first, which tells
where the record starts, then the header, compares the two, and goes over the payload. The checksum
is always compared.

UndoJournal specification: section 5.4.
-/

namespace UndoLog

namespace BackwardScan

/-- What a backward scan waits for: the trailer, the header that the trailer places at `start`, or a
chunk of payload. -/
inductive Stage
  | trailer
  | header (start : Nat) (trailer : Trailer)
  | payload (record : Record) (trailer : Trailer) (check : PayloadCheck)
  | finished
  deriving DecidableEq, Repr

end BackwardScan

/-- A scan of the record that ends at `cursor`. -/
structure BackwardScan where
  cursor : Nat
  journalLength : Nat
  stage : BackwardScan.Stage := .trailer
  deriving DecidableEq, Repr

namespace BackwardScan

/-- The bytes that a stage requests. -/
def request (s : BackwardScan) : ReadRequest :=
  match s.stage with
  | .trailer => ⟨s.cursor - Layout.trailerLength, Layout.trailerLength⟩
  | .header start trailer => ⟨start, trailer.headerLength.toNat⟩
  | .payload _ _ check => check.request
  | .finished => ⟨s.cursor, 0⟩

/-- Checks the position (specification, section 5.4, steps 1 to 3). -/
def start (s : BackwardScan) : Except JournalError ScanStep × BackwardScan :=
  match checkCursor s.cursor s.journalLength with
  | .error error => (.error error, s)
  | .ok () =>
    if s.cursor = Layout.journalStart then (.ok (.done none), { s with stage := .finished })
    else if s.cursor < Layout.journalStart + Layout.trailerLength then
      (.error (.corruptRecord s.cursor .noRoomForTrailer), s)
    else
      (.ok (.read ⟨s.cursor - Layout.trailerLength, Layout.trailerLength⟩), s)

/-- The stage after a trailer (section 5.4, steps 4 and 5). -/
def afterTrailer (s : BackwardScan) (bytes : Bytes) :
    Except JournalError (StageResult Stage) :=
  match Trailer.decode bytes with
  | .error error => .error (.corruptRecord s.cursor (.field error))
  | .ok trailer =>
    match RecordType.ofTag? trailer.tag with
    | none =>
      .error (.unrecognizedType trailer.tag (s.cursor - 1))
    | some type =>
      let headerLength := trailer.headerLength.toNat
      if headerLength < Layout.minHeaderLength ∨ type.maxHeaderLength < headerLength then
        .error (.corruptRecord s.cursor (.impossibleHeaderLength headerLength type))
      else
        match trailer.recordStart? s.cursor with
        | none =>
          .error (.corruptRecord s.cursor (.noRoomForRecord type trailer.dataLength.toNat))
        | some start => .ok (.next (.header start trailer))

/-- The stage after a trailer. It is `none` where the offset of an unknown tag, one before the
position, underflows. -/
def afterTrailer? (s : BackwardScan) (bytes : Bytes) :
    Option (Except JournalError (StageResult Stage)) :=
  match s.afterTrailer bytes with
  | .error (.unrecognizedType tag offset) =>
    if s.cursor = 0 then none else some (.error (.unrecognizedType tag offset))
  | result => some result

/-- The stage before the next chunk, or the comparison of the checksums after the last. -/
def afterPayload (record : Record) (trailer : Trailer) (check : PayloadCheck) :
    Except JournalError (StageResult Stage) :=
  if 0 < check.remaining then .ok (.next (.payload record trailer check))
  else
    match trailer.checkSum check.checksum.value with
    | .error damage => .error (.corruptRecord record.journalOffset damage)
    | .ok () => .ok (.found ⟨record, record.journalOffset⟩)

/-- The stage after a header (section 5.4, steps 6 and 7). -/
def afterHeader (s : BackwardScan) (start : Nat) (trailer : Trailer) (bytes : Bytes) :
    Except JournalError (StageResult Stage) :=
  match DecodedHeader.decode start bytes with
  | .error (.unknownTag tag) => .error (.unrecognizedType tag start)
  | .error (.field _ error) => .error (.corruptRecord s.cursor (.header start error))
  | .ok decoded =>
    let record := decoded.record
    match trailer.checkHeader record decoded.length with
    | .error damage => .error (.corruptRecord record.journalOffset damage)
    | .ok () =>
      match record.kind.checkOffsets with
      | .error damage => .error (.corruptRecord record.journalOffset damage)
      | .ok () => afterPayload record trailer (.ofHeader record (bytes.take decoded.length))

/-- The result of a stage that is given `bytes`. -/
def advance (s : BackwardScan) (bytes : Bytes) : Except JournalError (StageResult Stage) :=
  match s.stage with
  | .trailer => s.afterTrailer bytes
  | .header start trailer => s.afterHeader start trailer bytes
  | .payload record trailer check => afterPayload record trailer (check.update bytes)
  | .finished => .error (.corruptRecord s.cursor .scanOver)

/-- The result of a stage that is given `bytes`, or `none` where an offset overflows. -/
def advance? (s : BackwardScan) (bytes : Bytes) :
    Option (Except JournalError (StageResult Stage)) :=
  match s.stage with
  | .trailer => s.afterTrailer? bytes
  | .header start trailer => some (s.afterHeader start trailer bytes)
  | .payload record trailer check => (check.update? bytes).map (afterPayload record trailer)
  | .finished => some (.error (.corruptRecord s.cursor .scanOver))

/-- The answer to a stage result, and the scan after it. -/
def settle (s : BackwardScan) :
    Except JournalError (StageResult Stage) → Except JournalError ScanStep × BackwardScan :=
  StageResult.settle { s with stage := .finished } (fun stage => { s with stage }) request

/-- Gives the scan some bytes. It is over when it finds the record and when it fails. -/
def resume (s : BackwardScan) (bytes : Bytes) : Except JournalError ScanStep × BackwardScan :=
  s.settle (s.advance bytes)

/-- Gives the scan some bytes. It is `none` where the call panics because an offset overflows. -/
def resume? (s : BackwardScan) (bytes : Bytes) :
    Option (Except JournalError ScanStep × BackwardScan) :=
  (s.advance? bytes).map s.settle

/-- At a position past zero nothing underflows. -/
theorem afterTrailer?_eq {s : BackwardScan} (h : s.cursor ≠ 0) (bytes : Bytes) :
    s.afterTrailer? bytes = some (s.afterTrailer bytes) := by
  unfold afterTrailer?
  split
  · next htrailer => rw [if_neg h, htrailer]
  · rfl

/-- A stage result without overflow is the stage result. -/
theorem eq_of_advance? {s : BackwardScan} {bytes : Bytes}
    {result : Except JournalError (StageResult Stage)} (h : s.advance? bytes = some result) :
    s.advance bytes = result := by
  unfold advance? at h
  unfold advance
  generalize s.stage = stage at h ⊢
  cases stage with
  | trailer =>
    dsimp only at h ⊢
    unfold afterTrailer? at h
    repeat' split at h
    · cases h
    · next htrailer _ => exact htrailer.trans (Option.some.inj h)
    · exact Option.some.inj h
  | header start trailer => exact Option.some.inj h
  | payload record trailer check =>
    obtain ⟨next, hnext, rfl⟩ := Option.map_eq_some_iff.mp h
    rw [← PayloadCheck.eq_of_update? hnext]
  | finished => exact Option.some.inj h

/-- A start refuses the position, finds nothing, or requests bytes. Only finding nothing changes the
scan. -/
theorem start_cases (s : BackwardScan) :
    (∃ error, s.start = (.error error, s)) ∨
      s.start = (.ok (.done none), { s with stage := .finished }) ∨
      ∃ request, s.start = (.ok (.read request), s) := by
  unfold start
  repeat' split
  all_goals simp

/-- A bound on the reads before the end of a stage. -/
def Stage.rank : Stage → Nat
  | .trailer => Layout.offsetLimit + 2
  | .header .. => Layout.offsetLimit + 1
  | .payload _ _ check => check.remaining + 1
  | .finished => 0

private theorem rank_of_afterPayload {record : Record} {trailer : Trailer} {check : PayloadCheck}
    {stage : Stage} (h : afterPayload record trailer check = .ok (.next stage)) :
    stage.rank = check.remaining + 1 ∧ 0 < check.remaining := by
  unfold afterPayload at h
  split at h
  · cases h
    exact ⟨rfl, by assumption⟩
  · split at h <;> cases h

private theorem rank_lt_of_afterTrailer {s : BackwardScan} {bytes : Bytes} {stage : Stage}
    (h : s.afterTrailer bytes = .ok (.next stage)) : stage.rank < Stage.trailer.rank := by
  unfold afterTrailer at h
  dsimp only at h
  repeat' split at h
  all_goals cases h
  exact Nat.lt_succ_self _

private theorem rank_lt_of_afterHeader {s : BackwardScan} {start : Nat} {trailer : Trailer}
    {bytes : Bytes} {stage : Stage} (h : s.afterHeader start trailer bytes = .ok (.next stage)) :
    stage.rank < (Stage.header start trailer).rank := by
  unfold afterHeader at h
  split at h
  · cases h
  · cases h
  · next decoded _ =>
    dsimp only at h
    split at h
    · cases h
    · split at h
      · cases h
      · rw [(rank_of_afterPayload h).1]
        exact Nat.add_lt_add_right decoded.record.kind.dataLength_lt 1

private theorem rank_lt_of_update {record : Record} {trailer : Trailer} {check : PayloadCheck}
    {bytes : Bytes} {stage : Stage} (hb : bytes.length = check.request.length)
    (h : afterPayload record trailer (check.update bytes) = .ok (.next stage)) :
    stage.rank < (Stage.payload record trailer check).rank := by
  obtain ⟨hrank, hmore⟩ := rank_of_afterPayload h
  have hpos : 0 < check.remaining := Nat.lt_of_lt_of_le hmore (Nat.sub_le _ _)
  rw [hrank]
  exact Nat.add_lt_add_right (PayloadCheck.remaining_update_lt hpos hb) 1

/-- A fed stage that requests more is nearer to the end. -/
theorem rank_lt_of_advance {s : BackwardScan} {bytes : Bytes} {stage : Stage}
    (hb : bytes.length = s.request.length) (h : s.advance bytes = .ok (.next stage)) :
    stage.rank < s.stage.rank := by
  unfold advance at h
  unfold request at hb
  cases hstage : s.stage with
  | trailer =>
    rw [hstage] at h
    exact rank_lt_of_afterTrailer h
  | header start trailer =>
    rw [hstage] at h
    exact rank_lt_of_afterHeader h
  | payload record trailer check =>
    rw [hstage] at h hb
    exact rank_lt_of_update hb h
  | finished =>
    rw [hstage] at h
    cases h

/-- The start known at a stage is below `cursor`. -/
def Stage.StartsBelow (cursor : Nat) : Stage → Prop
  | .trailer | .finished => True
  | .header start _ => start < cursor
  | .payload record _ _ => record.journalOffset < cursor

/-- The start known from a stage result is below `cursor`. -/
def ResultStartsBelow (cursor : Nat) : StageResult Stage → Prop
  | .next stage => stage.StartsBelow cursor
  | .found scanned => scanned.cursor < cursor

private theorem startsBelow_of_afterPayload {record : Record} {trailer : Trailer}
    {check : PayloadCheck} {cursor : Nat} {result : StageResult Stage}
    (hr : record.journalOffset < cursor) (h : afterPayload record trailer check = .ok result) :
    ResultStartsBelow cursor result := by
  unfold afterPayload at h
  split at h
  · cases h
    exact hr
  · split at h <;> cases h
    exact hr

/-- The start known after any bytes is below the position. -/
theorem startsBelow_of_advance {s : BackwardScan} {bytes : Bytes} {result : StageResult Stage}
    (hs : s.stage.StartsBelow s.cursor) (h : s.advance bytes = .ok result) :
    ResultStartsBelow s.cursor result := by
  unfold advance at h
  split at h
  · unfold afterTrailer at h
    dsimp only at h
    repeat' split at h
    all_goals cases h
    next hstart =>
    have := Trailer.recordStart?_eq_some_iff.mp hstart
    simp only [Layout.trailerLength] at this
    show _ < _
    omega
  · next start trailer hstage =>
    rw [hstage] at hs
    unfold afterHeader at h
    split at h
    · cases h
    · cases h
    · next decoded hd =>
      dsimp only at h
      split at h
      · cases h
      · split at h
        · cases h
        · refine startsBelow_of_afterPayload ?_ h
          rw [DecodedHeader.journalOffset_of_decode hd]
          exact hs
  · next record trailer check hstage =>
    rw [hstage] at hs
    exact startsBelow_of_afterPayload hs h
  · cases h

end BackwardScan
end UndoLog
