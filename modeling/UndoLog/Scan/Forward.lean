import UndoLog.Record.Header
import UndoLog.Scan.Payload
import UndoLog.Scan.Validation

/-!
# Scanning forward

A forward scan reads the record that starts at a position. It takes the header from as many bytes as
a header may have, or as the journal has left, and checks the record against the length that the
target had. Then, if it is to verify, it goes over the payload and compares the trailer. A record
that runs past the end of the journal is told apart from one that is damaged.

UndoJournal specification: section 5.3.
-/

namespace UndoLog

namespace ForwardScan

/-- A record whose header of `headerLength` bytes was read, and the offset past the record. -/
structure Located where
  record : Record
  headerLength : Nat
  next : Nat
  check : PayloadCheck
  deriving DecidableEq, Repr

/-- What a forward scan waits for: the header, a chunk of payload, or the trailer. -/
inductive Stage
  | header
  | payload (located : Located)
  | trailer (located : Located)
  | finished
  deriving DecidableEq, Repr

/-- The stage before the next chunk of payload, or before the trailer after the last. -/
def Stage.ofLocated (located : Located) : Stage :=
  if 0 < located.check.remaining then .payload located else .trailer located

end ForwardScan

/-- A scan of the record that starts at `cursor`, written over a target of `targetLength` bytes.
Without `verifyTrailer` it ends with the header. -/
structure ForwardScan where
  cursor : Nat
  journalLength : Nat
  targetLength : Nat
  verifyTrailer : Bool
  stage : ForwardScan.Stage := .header
  deriving DecidableEq, Repr

namespace ForwardScan

/-- The bytes that a stage requests. -/
def request (s : ForwardScan) : ReadRequest :=
  match s.stage with
  | .header => ⟨s.cursor, min (s.journalLength - s.cursor) Layout.maxHeaderLength⟩
  | .payload located => located.check.request
  | .trailer located => ⟨located.next - Layout.trailerLength, Layout.trailerLength⟩
  | .finished => ⟨s.cursor, 0⟩

/-- Checks the position (specification, section 5.3, steps 1 and 2). -/
def start (s : ForwardScan) : Except JournalError ScanStep × ForwardScan :=
  match checkCursor s.cursor s.journalLength with
  | .error error => (.error error, s)
  | .ok () =>
    if s.cursor = s.journalLength then (.ok (.done none), { s with stage := .finished })
    else
      (.ok (.read ⟨s.cursor, min (s.journalLength - s.cursor) Layout.maxHeaderLength⟩), s)

/-- The error of a record that ends at `recordEnd`, past the end of the journal. -/
def truncated (s : ForwardScan) (recordEnd : Nat) : JournalError :=
  .truncatedJournal s.cursor recordEnd s.journalLength

/-- The error of a header that cannot be read from `available` bytes (section 5.3, steps 3 and 6).
Fewer than the maximal length are all that the journal has left, so a field that needs more is
truncated. -/
def headerError (s : ForwardScan) (available : Nat) : HeaderError → JournalError
  | .unknownTag tag => .unrecognizedType tag s.cursor
  | .field position error =>
    match error with
    | .unexpectedEnd needed _ =>
      if available < Layout.maxHeaderLength then
        s.truncated (s.cursor + position + needed)
      else .corruptRecord s.cursor (.field error)
    | _ => .corruptRecord s.cursor (.field error)

/-- The error of a header, or `none` where the end of a cut field overflows. -/
def headerError? (s : ForwardScan) (available : Nat) : HeaderError → Option JournalError
  | .unknownTag tag => some (.unrecognizedType tag s.cursor)
  | .field position error =>
    match error with
    | .unexpectedEnd needed _ =>
      if available < Layout.maxHeaderLength then
        (Layout.addOffset? s.cursor (position + needed)).map s.truncated
      else some (.corruptRecord s.cursor (.field error))
    | _ => some (.corruptRecord s.cursor (.field error))

/-- The stage after a header (section 5.3, steps 4 to 7). -/
def afterHeader (s : ForwardScan) (bytes : Bytes) (decoded : DecodedHeader) :
    Except JournalError (StageResult Stage) :=
  let record := decoded.record
  match record.kind.checkTarget s.targetLength with
  | .error damage => .error (.corruptRecord s.cursor damage)
  | .ok () =>
    let next := s.cursor + decoded.length + record.dataLength + Layout.trailerLength
    if Layout.offsetLimit ≤ next then .error (.corruptRecord s.cursor .recordOverflow)
    else if s.journalLength < next then .error (s.truncated next)
    else if s.verifyTrailer then
      .ok (.next (.ofLocated {
        record, next
        headerLength := decoded.length
        check := .ofHeader record (bytes.take decoded.length) }))
    else .ok (.found ⟨record, next⟩)

/-- The comparison of the trailer with header and checksum (section 5.3, step 8). -/
def afterTrailer (s : ForwardScan) (located : Located) (bytes : Bytes) :
    Except JournalError (StageResult Stage) :=
  match Trailer.decode bytes with
  | .error error => .error (.corruptRecord s.cursor (.field error))
  | .ok trailer =>
    match trailer.checkHeader located.record located.headerLength with
    | .error damage => .error (.corruptRecord located.record.journalOffset damage)
    | .ok () =>
      match trailer.checkSum located.check.checksum.value with
      | .error damage => .error (.corruptRecord located.record.journalOffset damage)
      | .ok () => .ok (.found ⟨located.record, located.next⟩)

/-- The result of a stage that is given `bytes`. -/
def advance (s : ForwardScan) (bytes : Bytes) : Except JournalError (StageResult Stage) :=
  match s.stage with
  | .header =>
    match DecodedHeader.decode s.cursor bytes with
    | .error error => .error (s.headerError bytes.length error)
    | .ok decoded => s.afterHeader bytes decoded
  | .payload located =>
    .ok (.next (.ofLocated { located with check := located.check.update bytes }))
  | .trailer located => s.afterTrailer located bytes
  | .finished => .error (.corruptRecord s.cursor .scanOver)

/-- The result of a stage that is given `bytes`, or `none` where a sum that is not checked
overflows. -/
def advance? (s : ForwardScan) (bytes : Bytes) :
    Option (Except JournalError (StageResult Stage)) :=
  match s.stage with
  | .header =>
    match DecodedHeader.decode s.cursor bytes with
    | .error error => (s.headerError? bytes.length error).map .error
    | .ok decoded => some (s.afterHeader bytes decoded)
  | .payload located =>
    (located.check.update? bytes).map fun check =>
      .ok (.next (.ofLocated { located with check }))
  | .trailer located => some (s.afterTrailer located bytes)
  | .finished => some (.error (.corruptRecord s.cursor .scanOver))

/-- The answer to a stage result, and the scan after it. -/
def settle (s : ForwardScan) :
    Except JournalError (StageResult Stage) → Except JournalError ScanStep × ForwardScan :=
  StageResult.settle { s with stage := .finished } (fun stage => { s with stage }) request

/-- Gives the scan some bytes. It is over when it finds the record and when it fails. -/
def resume (s : ForwardScan) (bytes : Bytes) : Except JournalError ScanStep × ForwardScan :=
  s.settle (s.advance bytes)

/-- Gives the scan some bytes. It is `none` where the call panics because an offset overflows. -/
def resume? (s : ForwardScan) (bytes : Bytes) :
    Option (Except JournalError ScanStep × ForwardScan) :=
  (s.advance? bytes).map s.settle

/-- An error without overflow is the error. -/
theorem eq_of_headerError? {s : ForwardScan} {available : Nat} {error : HeaderError}
    {answer : JournalError} (h : s.headerError? available error = some answer) :
    s.headerError available error = answer := by
  unfold headerError? at h
  unfold headerError
  repeat' split at h
  · exact Option.some.inj h
  · next hshort =>
    obtain ⟨recordEnd, hsum, rfl⟩ := Option.map_eq_some_iff.mp h
    rw [Layout.eq_of_addOffset? hsum, ← Nat.add_assoc]
    exact if_pos hshort
  · next hlong =>
    rw [← Option.some.inj h]
    exact if_neg hlong
  · exact Option.some.inj h

/-- A stage result without overflow is the stage result. -/
theorem eq_of_advance? {s : ForwardScan} {bytes : Bytes}
    {result : Except JournalError (StageResult Stage)} (h : s.advance? bytes = some result) :
    s.advance bytes = result := by
  unfold advance? at h
  unfold advance
  generalize s.stage = stage at h ⊢
  cases stage with
  | header =>
    dsimp only at h ⊢
    cases hdecode : DecodedHeader.decode s.cursor bytes with
    | error error =>
      rw [hdecode] at h
      obtain ⟨answer, hanswer, rfl⟩ := Option.map_eq_some_iff.mp h
      exact congrArg Except.error (eq_of_headerError? hanswer)
    | ok decoded =>
      rw [hdecode] at h
      exact Option.some.inj h
  | payload located =>
    obtain ⟨check, hcheck, rfl⟩ := Option.map_eq_some_iff.mp h
    rw [← PayloadCheck.eq_of_update? hcheck]
  | trailer located => exact Option.some.inj h
  | finished => exact Option.some.inj h

/-- A start refuses the position, finds nothing, or requests bytes. Only finding nothing changes the
scan. -/
theorem start_cases (s : ForwardScan) :
    (∃ error, s.start = (.error error, s)) ∨
      s.start = (.ok (.done none), { s with stage := .finished }) ∨
      ∃ request, s.start = (.ok (.read request), s) := by
  unfold start
  repeat' split
  all_goals simp

/-- A bound on the reads before the end of a stage. -/
def Stage.rank : Stage → Nat
  | .header => Layout.offsetLimit + 2
  | .payload located => located.check.remaining + 2
  | .trailer _ => 1
  | .finished => 0

private theorem rank_ofLocated_le (located : Located) :
    (Stage.ofLocated located).rank ≤ located.check.remaining + 2 := by
  unfold Stage.ofLocated
  split
  · exact Nat.le_refl _
  · exact Nat.le_add_left 1 _

private theorem rank_lt_of_afterHeader {s : ForwardScan} {bytes : Bytes} {decoded : DecodedHeader}
    {stage : Stage} (h : s.afterHeader bytes decoded = .ok (.next stage)) :
    stage.rank < Stage.header.rank := by
  have hlength := decoded.record.kind.dataLength_lt
  unfold afterHeader at h
  dsimp only at h
  repeat' split at h
  all_goals cases h
  refine Nat.lt_of_le_of_lt (rank_ofLocated_le _) ?_
  exact Nat.add_lt_add_right hlength 2

private theorem rank_lt_of_update {located : Located} {bytes : Bytes}
    (hb : bytes.length = located.check.request.length) :
    (Stage.ofLocated { located with check := located.check.update bytes }).rank <
      (Stage.payload located).rank := by
  unfold Stage.ofLocated
  split
  · next hmore =>
    have hpos : 0 < located.check.remaining := Nat.lt_of_lt_of_le hmore (Nat.sub_le _ _)
    exact Nat.add_lt_add_right (PayloadCheck.remaining_update_lt hpos hb) 2
  · simp only [Stage.rank]
    omega

private theorem afterTrailer_ne_next {s : ForwardScan} {located : Located} {bytes : Bytes}
    (stage : Stage) : s.afterTrailer located bytes ≠ .ok (.next stage) := by
  unfold afterTrailer
  repeat' split
  all_goals simp

/-- A fed stage that requests more is nearer to the end. -/
theorem rank_lt_of_advance {s : ForwardScan} {bytes : Bytes} {stage : Stage}
    (hb : bytes.length = s.request.length) (h : s.advance bytes = .ok (.next stage)) :
    stage.rank < s.stage.rank := by
  unfold advance at h
  unfold request at hb
  cases hstage : s.stage with
  | header =>
    rw [hstage] at h
    dsimp only at h
    split at h
    · cases h
    · exact rank_lt_of_afterHeader h
  | payload located =>
    rw [hstage] at h hb
    cases h
    exact rank_lt_of_update hb
  | trailer located =>
    rw [hstage] at h
    exact absurd h (afterTrailer_ne_next stage)
  | finished =>
    rw [hstage] at h
    cases h

end ForwardScan
end UndoLog
