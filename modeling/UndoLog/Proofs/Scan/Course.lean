import UndoLog.Proofs.Scan.Chunks

/-!
# The course of a scan

`ScanTask.Course` tells how a scan of any bytes goes: which ranges it reads, one after another, and
what it comes to. A run goes through the same stages whether its reads are collected or its outcome,
so one case analysis of the stages gives both.
-/

namespace UndoLog

/-- The result is `scanned` or a corruption error. -/
def FoundOrCorrupt (scanned : Scanned) (result : ScanResult) : Prop :=
  result = .ok (some scanned) ∨ ∃ error, result = .error error ∧ error.isCorruption

/-- Ranges tile the payload of a record, all but the last of the full chunk length. -/
structure Record.ReadInChunks (r : Record) (chunks : List (Nat × Nat)) : Prop where
  tiles : Tiles r.payloadOffset (chunks.map Span.ofRange) (r.payloadOffset + r.dataLength)
  length_le : ∀ chunk ∈ chunks, chunk.2 ≤ Layout.chunkLength
  length_eq : ∀ chunk ∈ chunks.dropLast, chunk.2 = Layout.chunkLength
  length_chunks : chunks.length =
    (r.dataLength + Layout.chunkLength - 1) / Layout.chunkLength

namespace Record

private theorem readInChunks_chunksFrom (r : Record) :
    r.ReadInChunks (chunksFrom r.payloadOffset r.dataLength) where
  tiles := tiles_chunksFrom _ _
  length_le _ := length_le_of_mem_chunksFrom
  length_eq _ := length_eq_of_mem_dropLast_chunksFrom
  length_chunks := length_chunksFrom _ _

end Record

namespace ScanTask

/-- The position of a task. -/
def cursor : ScanTask → Nat
  | .forward cursor _ _ => cursor
  | .backward cursor => cursor

/-- The position at which a task finds nothing. -/
def lastPosition (journal : Bytes) : ScanTask → Nat
  | .forward .. => journal.length
  | .backward _ => Layout.journalStart

/-- The position lies behind the reserved bytes and inside the journal. -/
def IsInside (task : ScanTask) (journal : Bytes) : Prop :=
  Layout.journalStart ≤ task.cursor ∧ task.cursor ≤ journal.length

/-- The range of the header window at a position. -/
def headerRange (journal : Bytes) (cursor : Nat) : Nat × Nat :=
  (cursor, min (journal.length - cursor) Layout.maxHeaderLength)

/-- The range of the trailer that ends at a position. -/
def trailerRange (cursor : Nat) : Nat × Nat :=
  (cursor - Layout.trailerLength, Layout.trailerLength)

/-- The ranges that a scan of a journal reads, each an offset and a length, and its result. -/
inductive Course (journal : Bytes) : ScanTask → List (Nat × Nat) → ScanResult → Prop
  | invalidCursor {task : ScanTask} (outside : ¬task.IsInside journal) :
      Course journal task [] (.error (.invalidCursor task.cursor journal.length))
  | ended {task : ScanTask} (inside : task.IsInside journal)
      (last : task.cursor = task.lastPosition journal) :
      Course journal task [] (.ok none)
  | forwardRefused {cursor targetLength : Nat} {verifyTrailer : Bool} {error : JournalError}
      (start_le : Layout.journalStart ≤ cursor) (inside : cursor < journal.length)
      (corrupt : error.isCorruption) :
      Course journal (.forward cursor targetLength verifyTrailer) [headerRange journal cursor]
        (.error error)
  | forwardFound {record : Record} {targetLength : Nat}
      (start_le : Layout.journalStart ≤ record.journalOffset)
      (inside : record.endOffset ≤ journal.length)
      (header : journal.window record.journalOffset record.headerLength = record.header) :
      Course journal (.forward record.journalOffset targetLength false)
        [headerRange journal record.journalOffset] (.ok (some ⟨record, record.endOffset⟩))
  | forwardVerified {record : Record} {targetLength : Nat} {chunks : List (Nat × Nat)}
      {result : ScanResult} (start_le : Layout.journalStart ≤ record.journalOffset)
      (inside : record.endOffset ≤ journal.length)
      (header : journal.window record.journalOffset record.headerLength = record.header)
      (payload : record.ReadInChunks chunks)
      (outcome : FoundOrCorrupt ⟨record, record.endOffset⟩ result) :
      Course journal (.forward record.journalOffset targetLength true)
        (headerRange journal record.journalOffset :: chunks ++ [trailerRange record.endOffset])
        result
  | backwardShort {cursor : Nat} {error : JournalError} (start_lt : Layout.journalStart < cursor)
      (inside : cursor ≤ journal.length) (corrupt : error.isCorruption) :
      Course journal (.backward cursor) [] (.error error)
  | backwardRefused {cursor : Nat} {error : JournalError}
      (room : Layout.journalStart + Layout.trailerLength ≤ cursor)
      (inside : cursor ≤ journal.length) (corrupt : error.isCorruption) :
      Course journal (.backward cursor) [trailerRange cursor] (.error error)
  | backwardHeaderRefused {cursor start length : Nat} {error : JournalError}
      (start_le : Layout.journalStart ≤ start) (pos : 0 < length)
      (length_le : length ≤ Layout.maxHeaderLength)
      (room : start + length + Layout.trailerLength ≤ cursor) (inside : cursor ≤ journal.length)
      (corrupt : error.isCorruption) :
      Course journal (.backward cursor) [trailerRange cursor, (start, length)] (.error error)
  | backwardVerified {record : Record} {chunks : List (Nat × Nat)} {result : ScanResult}
      (start_le : Layout.journalStart ≤ record.journalOffset)
      (inside : record.endOffset ≤ journal.length)
      (header : journal.window record.journalOffset record.headerLength = record.header)
      (payload : record.ReadInChunks chunks)
      (outcome : FoundOrCorrupt ⟨record, record.journalOffset⟩ result) :
      Course journal (.backward record.endOffset)
        (trailerRange record.endOffset :: (record.journalOffset, record.headerLength) :: chunks)
        result

private theorem readsOn_forward (journal : Bytes) (cursor targetLength : Nat)
    (verifyTrailer : Bool) :
    (ScanTask.forward cursor targetLength verifyTrailer).readsOn journal =
      if Layout.journalStart ≤ cursor ∧ cursor ≤ journal.length then
        if cursor = journal.length then []
        else
          (Scan.forward { cursor, journalLength := journal.length, targetLength, verifyTrailer
            }).readsOn journal
      else [] := by
  have hsize : Storage.size (⟨journal⟩ : MemoryStorage) = (.ok journal.length, ⟨journal⟩) := rfl
  unfold readsOn begin
  rw [hsize]
  simp only [scan, Scan.start, ForwardScan.start, checkCursor]
  by_cases h : Layout.journalStart ≤ cursor ∧ cursor ≤ journal.length
  · rw [if_pos h, if_pos h]
    by_cases hend : cursor = journal.length
    · simp only [hend, if_true, Prod.map_apply, id_eq, ScanProgress.ofStep]
    · simp only [hend, if_false, Prod.map_apply, id_eq, ScanProgress.ofStep]
  · simp only [h, if_false, Prod.map_apply, id_eq, ScanProgress.ofStep]

private theorem readsOn_backward (journal : Bytes) (cursor : Nat) :
    (ScanTask.backward cursor).readsOn journal =
      if Layout.journalStart ≤ cursor ∧ cursor ≤ journal.length then
        if cursor = Layout.journalStart then []
        else if cursor < Layout.journalStart + Layout.trailerLength then []
        else (Scan.backward { cursor, journalLength := journal.length }).readsOn journal
      else [] := by
  have hsize : Storage.size (⟨journal⟩ : MemoryStorage) = (.ok journal.length, ⟨journal⟩) := rfl
  unfold readsOn begin
  rw [hsize]
  simp only [scan, Scan.start, BackwardScan.start, checkCursor]
  by_cases h : Layout.journalStart ≤ cursor ∧ cursor ≤ journal.length
  · rw [if_pos h, if_pos h]
    by_cases hstart : cursor = Layout.journalStart
    · simp only [hstart, if_true, Prod.map_apply, id_eq, ScanProgress.ofStep]
    · by_cases hroom : cursor < Layout.journalStart + Layout.trailerLength
      · simp only [hstart, if_false, hroom, if_true, Prod.map_apply, id_eq, ScanProgress.ofStep]
      · simp only [hstart, if_false, hroom, Prod.map_apply, id_eq, ScanProgress.ofStep]
  · simp only [h, if_false, Prod.map_apply, id_eq, ScanProgress.ofStep]

end ScanTask

namespace ForwardScan

variable {s : ForwardScan} {journal bytes : Bytes}

private theorem isCorruption_headerError (s : ForwardScan) (available : Nat) (error : HeaderError) :
    (s.headerError available error).isCorruption := by
  unfold headerError truncated
  repeat' split
  all_goals rfl

private theorem isCorruption_of_afterHeader {decoded : DecodedHeader} {error : JournalError}
    (h : s.afterHeader bytes decoded = .error error) : error.isCorruption := by
  unfold afterHeader truncated at h
  dsimp only at h
  repeat' split at h
  all_goals cases h <;> rfl

private theorem foundOrCorrupt_afterTrailer {located : Located}
    (hoffset : located.record.journalOffset = s.cursor) :
    FoundOrCorrupt ⟨located.record, located.next⟩
      (s.outcome journal (s.afterTrailer located bytes)) := by
  cases htrailer : s.afterTrailer located bytes with
  | error error =>
    obtain ⟨damage, rfl⟩ := corrupt_of_afterTrailer hoffset htrailer
    exact .inr ⟨_, rfl, rfl⟩
  | ok result =>
    obtain ⟨_, _, _, _, rfl⟩ := afterTrailer_eq_ok_iff.mp htrailer
    exact .inl rfl

end ForwardScan

namespace ScanTask

variable {journal : Bytes} {cursor : Nat}

private theorem course_forward_of_header {record : Record}
    (hstart : Layout.journalStart ≤ record.journalOffset)
    (hin : record.endOffset ≤ journal.length)
    (hheader : journal.window record.journalOffset record.headerLength = record.header)
    (targetLength : Nat) (verifyTrailer : Bool) (bytes : Bytes) :
    let task := ScanTask.forward record.journalOffset targetLength verifyTrailer
    let s : ForwardScan :=
      ⟨record.journalOffset, journal.length, targetLength, verifyTrailer, .header⟩
    let next := s.afterFit bytes ⟨record, record.headerLength⟩
    Course journal task
      (headerRange journal record.journalOffset :: s.readsAfter journal (.ok next))
      (s.outcome journal (.ok next)) := by
  intro task s next
  have hend := record.endOffset_eq
  have hpayload := record.payloadOffset_add_dataLength
  cases verifyTrailer with
  | false =>
    simp only [next, ForwardScan.afterFit, s, ← hend]
    exact .forwardFound hstart hin hheader
  | true =>
    simp only [next, ForwardScan.afterFit, s, ← hend, if_true]
    rw [ForwardScan.readsAfter_ofLocated _ (by dsimp only; omega) hin
      (by simp only [PayloadCheck.ofHeader]; omega),
      ForwardScan.outcome_located (by omega) hin (by omega)]
    exact .forwardVerified hstart hin hheader record.readInChunks_chunksFrom
      (ForwardScan.foundOrCorrupt_afterTrailer rfl)

private theorem course_forward_of_lt (hstart : Layout.journalStart ≤ cursor)
    (hin : cursor < journal.length) (targetLength : Nat) (verifyTrailer : Bool) :
    let task := ScanTask.forward cursor targetLength verifyTrailer
    Course journal task (task.readsOn journal) (task.resultOn journal) := by
  intro task
  let s : ForwardScan := ⟨cursor, journal.length, targetLength, verifyTrailer, .header⟩
  let bytes := headerBytes journal cursor
  have hreads : task.readsOn journal =
      headerRange journal cursor :: s.readsAfter journal (s.advance bytes) := by
    rw [readsOn_forward, if_pos ⟨hstart, Nat.le_of_lt hin⟩, if_neg (Nat.ne_of_lt hin)]
    exact ForwardScan.readsOn_eq_readsAfter (s := s) (by simp only [s, ForwardScan.request]; omega)
  have hresult : task.resultOn journal = s.outcome journal (s.advance bytes) :=
    resultOn_forward_of_lt hstart hin
  rw [hreads, hresult]
  cases hdecode : DecodedHeader.decode cursor bytes with
  | error error =>
    have hadvance : s.advance bytes = .error (s.headerError bytes.length error) := by
      simp only [ForwardScan.advance, s, hdecode]
    rw [hadvance]
    exact .forwardRefused hstart hin (s.isCorruption_headerError _ error)
  | ok decoded =>
    have hadvance : s.advance bytes = s.afterHeader bytes decoded := by
      simp only [ForwardScan.advance, s, hdecode]
    rw [hadvance]
    cases hheader : s.afterHeader bytes decoded with
    | error error =>
      exact .forwardRefused hstart hin (ForwardScan.isCorruption_of_afterHeader hheader)
    | ok result =>
      obtain ⟨record, length⟩ := decoded
      obtain ⟨hoffset, -, hlength, rest, hbytes⟩ := DecodedHeader.decode_eq_ok_iff.mp hdecode
      obtain ⟨-, -, hnext, rfl⟩ := ForwardScan.afterHeader_eq_ok_iff.mp hheader
      dsimp only at hoffset hlength hbytes hnext
      subst hoffset hlength
      exact course_forward_of_header hstart (record.endOffset_eq ▸ hnext)
        (record.window_headerLength hbytes) targetLength verifyTrailer bytes

private theorem course_backward_of_framedBy {record : Record} {trailer : Trailer}
    (h : record.FramedBy trailer journal) (s : BackwardScan) :
    let next := BackwardScan.afterPayload record trailer (.ofHeader record record.header)
    Course journal (.backward record.endOffset)
      (trailerRange record.endOffset :: (record.journalOffset, record.headerLength) ::
        s.readsAfter journal next)
      (s.outcome journal next) := by
  intro next
  rw [BackwardScan.readsAfter_afterPayload _ _ _ h.payload_le, BackwardScan.outcome_payload h]
  refine .backwardVerified h.start_le h.endOffset_le h.header_eq record.readInChunks_chunksFrom ?_
  cases trailer.checkSum (record.checksumIn journal) with
  | error damage => exact .inr ⟨_, rfl, rfl⟩
  | ok value => exact .inl rfl

private theorem course_backward_of_room
    (hroom : Layout.journalStart + Layout.trailerLength ≤ cursor)
    (hin : cursor ≤ journal.length) :
    let task := ScanTask.backward cursor
    Course journal task (task.readsOn journal) (task.resultOn journal) := by
  intro task
  have hlength : Layout.trailerLength = 14 := rfl
  let s : BackwardScan := ⟨cursor, journal.length, .trailer⟩
  let bytes := journal.window (cursor - Layout.trailerLength) Layout.trailerLength
  have hreads : task.readsOn journal =
      trailerRange cursor :: s.readsAfter journal (s.afterTrailer bytes) := by
    rw [readsOn_backward, if_pos ⟨by omega, hin⟩, if_neg (by omega), if_neg (by omega)]
    exact BackwardScan.readsOn_eq_readsAfter (s := s)
      (by simp only [s, BackwardScan.request]; omega)
  have hresult : task.resultOn journal = s.outcome journal (s.afterTrailer bytes) := by
    rw [resultOn_backward, if_pos ⟨by omega, hin⟩, if_neg (by omega), if_neg (by omega)]
    exact BackwardScan.resultOn_trailer (s := s) (by simp only [s]; omega) hin rfl
  rw [hreads, hresult]
  cases htrailer : s.afterTrailer bytes with
  | error error =>
    exact .backwardRefused hroom hin (BackwardScan.isCorruption_of_afterTrailer htrailer)
  | ok result =>
    obtain ⟨trailer, type, start, hdecode, -, hmin, hmax, hstart, rfl⟩ :=
      BackwardScan.afterTrailer_eq_ok_iff.mp htrailer
    obtain ⟨hstart_le, hcursor⟩ := Trailer.recordStart?_eq_some_iff.mp hstart
    have hcursor' : start + trailer.headerLength.toNat + trailer.dataLength.toNat +
        Layout.trailerLength = cursor := hcursor
    -- The trailer is taken at its word on where the header starts, but only below itself.
    rw [BackwardScan.readsAfter_header (by omega), BackwardScan.outcome_header (by omega)]
    cases hheader : s.afterHeader start trailer
        (journal.window start trailer.headerLength.toNat) with
    | error error =>
      have hleast : Layout.minHeaderLength = 11 := rfl
      have hbound : type.maxHeaderLength ≤ Layout.maxHeaderLength := by cases type <;> decide
      have hpos : 0 < trailer.headerLength.toNat := by omega
      have hends : start + trailer.headerLength.toNat + Layout.trailerLength ≤ cursor := by omega
      exact .backwardHeaderRefused hstart_le hpos (Nat.le_trans hmax hbound) hends hin
        (BackwardScan.isCorruption_of_afterHeader hheader)
    | ok result =>
      obtain ⟨record, hframed, hend, -, hpayload⟩ :=
        BackwardScan.framedBy_of_afterHeader (s := s) hin hdecode hstart hheader
      obtain ⟨hheaderLength, hdataLength⟩ := hframed.lengths_eq
      have hrecord := record.endOffset_eq
      have hoffset : start = record.journalOffset := by
        have : record.endOffset = cursor := hend
        omega
      obtain rfl : record.endOffset = cursor := hend
      rw [← hpayload, hoffset, hheaderLength]
      exact course_backward_of_framedBy hframed _

/-- Every scan of bytes in memory has a course. -/
theorem course (task : ScanTask) (journal : Bytes) :
    Course journal task (task.readsOn journal) (task.resultOn journal) := by
  by_cases hinside : task.IsInside journal
  · obtain ⟨hstart, hin⟩ := id hinside
    cases task with
    | forward cursor targetLength verifyTrailer =>
      obtain hlt | rfl : cursor < journal.length ∨ cursor = journal.length :=
        Nat.lt_or_eq_of_le hin
      · exact course_forward_of_lt hstart hlt targetLength verifyTrailer
      · rw [readsOn_forward, resultOn_forward, if_pos ⟨hstart, hin⟩, if_pos rfl,
          if_pos ⟨hstart, hin⟩, if_pos rfl]
        exact .ended hinside rfl
    | backward cursor =>
      obtain rfl | hlt : Layout.journalStart = cursor ∨ Layout.journalStart < cursor :=
        Nat.eq_or_lt_of_le hstart
      · rw [readsOn_backward, resultOn_backward, if_pos ⟨hstart, hin⟩, if_pos rfl,
          if_pos ⟨hstart, hin⟩, if_pos rfl]
        exact .ended hinside rfl
      · by_cases hroom : cursor < Layout.journalStart + Layout.trailerLength
        · rw [readsOn_backward, resultOn_backward, if_pos ⟨hstart, hin⟩,
            if_neg (Nat.ne_of_gt hlt), if_pos hroom, if_pos ⟨hstart, hin⟩,
            if_neg (Nat.ne_of_gt hlt), if_pos hroom]
          exact .backwardShort hlt hin rfl
        · exact course_backward_of_room (Nat.not_lt.mp hroom) hin
  · cases task with
    | forward cursor targetLength verifyTrailer =>
      have hcursor : ¬(Layout.journalStart ≤ cursor ∧ cursor ≤ journal.length) := hinside
      rw [readsOn_forward, resultOn_forward, if_neg hcursor, if_neg hcursor]
      exact .invalidCursor hinside
    | backward cursor =>
      have hcursor : ¬(Layout.journalStart ≤ cursor ∧ cursor ≤ journal.length) := hinside
      rw [readsOn_backward, resultOn_backward, if_neg hcursor, if_neg hcursor]
      exact .invalidCursor hinside

end ScanTask
end UndoLog
