import UndoLog.Proofs.Scan.Course

/-!
# Bounds on a scan

Every range that a scan reads lies where the scan may look, and is neither empty nor longer than a
chunk; and there are at most two more ranges than it takes to hold the payload. So a scan of bytes
in memory never reads past their end, and where it starts decides whether it fails, finds nothing,
or meets a record or a fault of the journal. All of this is read off the course of the scan.
-/

namespace UndoLog

/-- The record found is the one expected. -/
theorem FoundOrCorrupt.eq_of_found {scanned found : Scanned}
    (h : FoundOrCorrupt scanned (.ok (some found))) : found = scanned := by
  rcases h with h | ⟨error, h, -⟩
  · cases h
    rfl
  · cases h

namespace Record

private theorem journalOffset_lt_payloadOffset (r : Record) : r.journalOffset < r.payloadOffset :=
  Nat.lt_add_of_pos_right (Nat.lt_of_lt_of_le (by decide) r.kind.minHeaderLength_le)

/-- A record ends past its start. -/
theorem journalOffset_lt_endOffset (r : Record) : r.journalOffset < r.endOffset :=
  Nat.lt_add_of_pos_right (Nat.lt_of_le_of_lt (Nat.zero_le _) r.trailerLength_lt_encodedLength)

/-- A record ends past its payload and its trailer. -/
theorem endOffset_eq_payloadOffset_add (r : Record) :
    r.endOffset = r.payloadOffset + r.dataLength + Layout.trailerLength :=
  r.endOffset_eq

end Record

namespace ScanTask

variable {journal : Bytes} {cursor : Nat}

/-- The positions that a task may read. -/
def region (journal : Bytes) : ScanTask → Span
  | .forward cursor _ _ => ⟨cursor, journal.length⟩
  | .backward cursor => ⟨Layout.journalStart, cursor⟩

private theorem not_isInside_iff {task : ScanTask} {journal : Bytes} :
    ¬task.IsInside journal ↔ task.cursor < Layout.journalStart ∨ journal.length < task.cursor := by
  unfold IsInside
  omega

/-- A range of 1 to `Layout.chunkLength` bytes inside a region. -/
structure IsReadable (region : Span) (range : Nat × Nat) : Prop where
  pos : 1 ≤ range.2
  length_le : range.2 ≤ Layout.chunkLength
  start_le : region.start ≤ range.1
  stop_le : range.1 + range.2 ≤ region.stop

private theorem isReadable_headerRange (h : cursor < journal.length) :
    IsReadable ⟨cursor, journal.length⟩ (headerRange journal cursor) := by
  have hmax : Layout.maxHeaderLength = 27 := rfl
  have hchunk : Layout.chunkLength = 512 := rfl
  constructor <;> simp only [headerRange] <;> omega

private theorem isReadable_trailerRange {region : Span}
    (hstart : region.start + Layout.trailerLength ≤ cursor) (hstop : cursor ≤ region.stop) :
    IsReadable region (trailerRange cursor) := by
  have hlength : Layout.trailerLength = 14 := rfl
  have hchunk : Layout.chunkLength = 512 := rfl
  constructor <;> simp only [trailerRange] <;> omega

private theorem isReadable_of_length_le {region : Span} {start length : Nat} (hpos : 0 < length)
    (hlength : length ≤ Layout.maxHeaderLength) (hstart : region.start ≤ start)
    (hstop : start + length ≤ region.stop) : IsReadable region (start, length) where
  pos := hpos
  length_le := Nat.le_trans hlength (by decide)
  start_le := hstart
  stop_le := hstop

private theorem isReadable_of_mem_chunks {record : Record} {chunks : List (Nat × Nat)}
    {region : Span}
    (h : record.ReadInChunks chunks) (hstart : region.start ≤ record.payloadOffset)
    (hstop : record.payloadOffset + record.dataLength ≤ region.stop) {range : Nat × Nat}
    (hrange : range ∈ chunks) : IsReadable region range := by
  obtain ⟨hle, hpos, hend⟩ := h.tiles.bounds_of_mem (List.mem_map_of_mem hrange)
  simp only [Span.ofRange] at hle hpos hend
  exact ⟨by omega, h.length_le range hrange, by omega, by omega⟩

/-- The ranges read by a verified scan, around the chunks of the payload. -/
def verifiedReads (journal : Bytes) (record : Record) (chunks : List (Nat × Nat)) :
    ScanTask → List (Nat × Nat)
  | .forward cursor _ _ => headerRange journal cursor :: chunks ++ [trailerRange record.endOffset]
  | .backward cursor =>
    trailerRange cursor :: (record.journalOffset, record.headerLength) :: chunks

/-- The task checks payload and trailer. -/
def verifies : ScanTask → Bool
  | .forward _ _ verifyTrailer => verifyTrailer
  | .backward _ => true

/-- The end of a found record at the position of the task. -/
def nearEnd (record : Record) : ScanTask → Nat
  | .forward .. => record.journalOffset
  | .backward _ => record.endOffset

namespace Course

variable {task : ScanTask} {reads : List (Nat × Nat)} {result : ScanResult}

private theorem isReadable_of_mem (h : Course journal task reads result) {range : Nat × Nat}
    (hrange : range ∈ reads) : IsReadable (task.region journal) range := by
  cases h with
  | invalidCursor outside => cases hrange
  | ended inside last => cases hrange
  | backwardShort start_lt inside corrupt => cases hrange
  | forwardRefused start_le inside corrupt =>
    rw [List.mem_singleton.mp hrange]
    exact isReadable_headerRange inside
  | @forwardFound record targetLength start_le inside header =>
    rw [List.mem_singleton.mp hrange]
    exact isReadable_headerRange (Nat.lt_of_lt_of_le record.journalOffset_lt_endOffset inside)
  | @forwardVerified record targetLength chunks result start_le inside header payload outcome =>
    have hends := record.endOffset_eq_payloadOffset_add
    have hlt := record.journalOffset_lt_payloadOffset
    rcases List.mem_append.mp hrange with hrange | hrange
    · rcases List.mem_cons.mp hrange with rfl | hrange
      · exact isReadable_headerRange (by omega)
      · exact isReadable_of_mem_chunks payload (Nat.le_of_lt hlt)
          (by simp only [region]; omega) hrange
    · rw [List.mem_singleton.mp hrange]
      exact isReadable_trailerRange (by simp only [region]; omega) inside
  | backwardRefused room inside corrupt =>
    rw [List.mem_singleton.mp hrange]
    exact isReadable_trailerRange room (Nat.le_refl _)
  | @backwardHeaderRefused cursor start length error start_le pos length_le room inside corrupt =>
    rcases List.mem_cons.mp hrange with rfl | hrange
    · exact isReadable_trailerRange (by simp only [region]; omega) (Nat.le_refl _)
    · rw [List.mem_singleton.mp hrange]
      exact isReadable_of_length_le pos length_le start_le (by simp only [region]; omega)
  | @backwardVerified record chunks result start_le inside header payload outcome =>
    have hends := record.endOffset_eq_payloadOffset_add
    have hlt := record.journalOffset_lt_payloadOffset
    have hheader : record.payloadOffset = record.journalOffset + record.headerLength := rfl
    rcases List.mem_cons.mp hrange with rfl | hrange
    · exact isReadable_trailerRange (by simp only [region]; omega) (Nat.le_refl _)
    · rcases List.mem_cons.mp hrange with rfl | hrange
      · exact isReadable_of_length_le (by omega) record.kind.headerLength_le start_le
          (by simp only [region]; omega)
      · exact isReadable_of_mem_chunks payload (by simp only [region]; omega)
          (by simp only [region]; omega) hrange

/-- A course has at most two reads, or two more than the chunks of the payload of the record at its
position. -/
private theorem length_le (h : Course journal task reads result) :
    reads.length ≤ 2 ∨ ∃ record : Record, task.nearEnd record = task.cursor ∧
      journal.window record.journalOffset record.headerLength = record.header ∧
      reads.length ≤ 2 + (record.dataLength + Layout.chunkLength - 1) / Layout.chunkLength := by
  cases h with
  | invalidCursor outside => exact .inl (by decide)
  | ended inside last => exact .inl (by decide)
  | backwardShort start_lt inside corrupt => exact .inl (by decide)
  | forwardRefused start_le inside corrupt => exact .inl (by simp)
  | forwardFound start_le inside header => exact .inl (by simp)
  | backwardRefused room inside corrupt => exact .inl (by simp)
  | backwardHeaderRefused start_le pos length_le room inside corrupt => exact .inl (by simp)
  | @forwardVerified record targetLength chunks result start_le inside header payload outcome =>
    refine .inr ⟨record, rfl, header, ?_⟩
    rw [← payload.length_chunks, List.length_append, List.length_cons, List.length_singleton]
    omega
  | @backwardVerified record chunks result start_le inside header payload outcome =>
    refine .inr ⟨record, rfl, header, ?_⟩
    rw [← payload.length_chunks, List.length_cons, List.length_cons]
    omega

private theorem readInChunks_of_verifies {scanned : Scanned}
    (h : Course journal task reads (.ok (some scanned))) (hverifies : task.verifies) :
    ∃ chunks, scanned.record.ReadInChunks chunks ∧
      reads = task.verifiedReads journal scanned.record chunks := by
  cases h with
  | forwardFound start_le inside header => cases hverifies
  | @forwardVerified record _ chunks _ start_le inside header payload outcome =>
    obtain rfl : scanned = ⟨record, record.endOffset⟩ := outcome.eq_of_found
    exact ⟨chunks, payload, rfl⟩
  | @backwardVerified record chunks _ start_le inside header payload outcome =>
    obtain rfl : scanned = ⟨record, record.journalOffset⟩ := outcome.eq_of_found
    exact ⟨chunks, payload, rfl⟩

/-- A course is refused outside, ends with nothing at the last position, and elsewhere finds a
record or corruption. -/
theorem ends (h : Course journal task reads result) :
    ¬task.IsInside journal ∧ result = .error (.invalidCursor task.cursor journal.length) ∨
      task.IsInside journal ∧ task.cursor = task.lastPosition journal ∧ result = .ok none ∨
      task.IsInside journal ∧ task.cursor ≠ task.lastPosition journal ∧
        ((∃ scanned, result = .ok (some scanned)) ∨
          ∃ error, result = .error error ∧ error.isCorruption) := by
  have htrailer : Layout.trailerLength = 14 := rfl
  cases h with
  | invalidCursor outside => exact .inl ⟨outside, rfl⟩
  | ended inside last => exact .inr (.inl ⟨inside, last, rfl⟩)
  | forwardRefused start_le inside corrupt =>
    exact .inr (.inr ⟨⟨start_le, Nat.le_of_lt inside⟩, Nat.ne_of_lt inside,
      .inr ⟨_, rfl, corrupt⟩⟩)
  | @forwardFound record targetLength start_le inside header =>
    have hlt : record.journalOffset < journal.length :=
      Nat.lt_of_lt_of_le record.journalOffset_lt_endOffset inside
    exact .inr (.inr ⟨⟨start_le, Nat.le_of_lt hlt⟩, Nat.ne_of_lt hlt, .inl ⟨_, rfl⟩⟩)
  | @forwardVerified record targetLength chunks result start_le inside header payload outcome =>
    have hlt : record.journalOffset < journal.length :=
      Nat.lt_of_lt_of_le record.journalOffset_lt_endOffset inside
    exact .inr (.inr ⟨⟨start_le, Nat.le_of_lt hlt⟩, Nat.ne_of_lt hlt,
      outcome.imp_left (⟨_, ·⟩)⟩)
  | backwardShort start_lt inside corrupt =>
    exact .inr (.inr ⟨⟨Nat.le_of_lt start_lt, inside⟩, Nat.ne_of_gt start_lt,
      .inr ⟨_, rfl, corrupt⟩⟩)
  | @backwardRefused cursor error room inside corrupt =>
    have hlt : Layout.journalStart < cursor := by omega
    exact .inr (.inr ⟨⟨Nat.le_of_lt hlt, inside⟩, Nat.ne_of_gt hlt, .inr ⟨_, rfl, corrupt⟩⟩)
  | @backwardHeaderRefused cursor start length error start_le pos length_le room inside corrupt =>
    have hlt : Layout.journalStart < cursor := by omega
    exact .inr (.inr ⟨⟨Nat.le_of_lt hlt, inside⟩, Nat.ne_of_gt hlt, .inr ⟨_, rfl, corrupt⟩⟩)
  | @backwardVerified record chunks result start_le inside header payload outcome =>
    have hlt : Layout.journalStart < record.endOffset :=
      Nat.lt_of_le_of_lt start_le record.journalOffset_lt_endOffset
    exact .inr (.inr ⟨⟨Nat.le_of_lt hlt, inside⟩, Nat.ne_of_gt hlt, outcome.imp_left (⟨_, ·⟩)⟩)

private theorem ne_storage (h : Course journal task reads result) (error : StorageError) :
    result ≠ .error (.storage error) := by
  rintro rfl
  rcases h.ends with ⟨-, h⟩ | ⟨-, -, h⟩ | ⟨-, -, ⟨_, h⟩ | ⟨error, h, hcorrupt⟩⟩
  · cases h
  · cases h
  · cases h
  · cases h
    cases hcorrupt

/-- A scan refuses exactly the positions outside. -/
theorem eq_invalidCursor_iff (h : Course journal task reads result) :
    (∃ cursor length, result = .error (.invalidCursor cursor length)) ↔
      ¬task.IsInside journal := by
  rcases h.ends with ⟨hout, rfl⟩ | ⟨hin, -, rfl⟩ | ⟨hin, -, ⟨_, rfl⟩ | ⟨error, rfl, hcorrupt⟩⟩
  · exact ⟨fun _ => hout, fun _ => ⟨_, _, rfl⟩⟩
  · exact ⟨nofun, fun hout => absurd hin hout⟩
  · exact ⟨nofun, fun hout => absurd hin hout⟩
  · exact ⟨fun ⟨_, _, h⟩ => (by cases h; cases hcorrupt), fun hout => absurd hin hout⟩

/-- A scan finds nothing exactly at the last position of its direction. -/
theorem eq_none_iff (h : Course journal task reads result) :
    result = .ok none ↔ task.IsInside journal ∧ task.cursor = task.lastPosition journal := by
  rcases h.ends with ⟨hout, rfl⟩ | ⟨hin, hlast, rfl⟩ | ⟨-, hne, ⟨_, rfl⟩ | ⟨error, rfl, -⟩⟩
  · exact ⟨nofun, fun h => absurd h.1 hout⟩
  · exact ⟨fun _ => ⟨hin, hlast⟩, fun _ => rfl⟩
  · exact ⟨nofun, fun h => absurd h.2 hne⟩
  · exact ⟨nofun, fun h => absurd h.2 hne⟩

/-- At every other position a scan finds a record or corruption. -/
theorem found_or_corrupt_iff (h : Course journal task reads result) :
    ((∃ scanned, result = .ok (some scanned)) ∨
        ∃ error, result = .error error ∧ error.isCorruption) ↔
      task.IsInside journal ∧ task.cursor ≠ task.lastPosition journal := by
  rcases h.ends with ⟨hout, rfl⟩ | ⟨-, hlast, rfl⟩ | ⟨hin, hne, hresult⟩
  · refine ⟨?_, fun h => absurd h.1 hout⟩
    rintro (⟨_, h⟩ | ⟨_, h, hcorrupt⟩)
    · cases h
    · cases h
      cases hcorrupt
  · refine ⟨?_, fun h => absurd hlast h.2⟩
    rintro (⟨_, h⟩ | ⟨_, h, -⟩) <;> cases h
  · exact ⟨fun _ => ⟨hin, hne⟩, fun _ => hresult⟩

end Course
end ScanTask

/-- A scan of any bytes in memory, in either direction and from any position, reads only ranges of 1
to 512 bytes inside its region. It ends after two reads more than the chunks of the payload at most;
a verified record has been read from left to right in chunks of 512 bytes and a last one. It never
fails with a storage error: it refuses a position outside, finds nothing exactly at the last
position of its direction, and elsewhere finds a record or corruption. -/
theorem scans_stay_in_bounds_and_end (journal : Bytes) (task : ScanTask) :
    let reads := task.readsOn journal
    let result := task.resultOn journal
    task.Course journal reads result ∧
      (∀ range ∈ reads, ScanTask.IsReadable (task.region journal) range) ∧
      (∀ scanned, result = .ok (some scanned) → task.verifies →
        ∃ chunks, scanned.record.ReadInChunks chunks ∧
          reads = task.verifiedReads journal scanned.record chunks) ∧
      (reads.length ≤ 2 ∨ ∃ record : Record, task.nearEnd record = task.cursor ∧
        journal.window record.journalOffset record.headerLength = record.header ∧
        reads.length ≤ 2 + (record.dataLength + Layout.chunkLength - 1) / Layout.chunkLength) ∧
      (∀ error, result ≠ .error (.storage error)) ∧
      ((∃ cursor length, result = .error (.invalidCursor cursor length)) ↔
        task.cursor < Layout.journalStart ∨ journal.length < task.cursor) ∧
      (result = .ok none ↔
        task.IsInside journal ∧ task.cursor = task.lastPosition journal) ∧
      (((∃ scanned, result = .ok (some scanned)) ∨
          ∃ error, result = .error error ∧ error.isCorruption) ↔
        task.IsInside journal ∧ task.cursor ≠ task.lastPosition journal) := by
  intro reads result
  have hcourse : task.Course journal reads result := task.course journal
  refine ⟨hcourse, fun _ => hcourse.isReadable_of_mem, fun scanned hfound => ?_,
    hcourse.length_le, hcourse.ne_storage, ?_, hcourse.eq_none_iff, hcourse.found_or_corrupt_iff⟩
  · exact (hfound ▸ hcourse).readInChunks_of_verifies
  · exact hcourse.eq_invalidCursor_iff.trans ScanTask.not_isInside_iff

end UndoLog
