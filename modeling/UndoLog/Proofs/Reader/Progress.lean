import UndoLog.Proofs.Reader.Walked
import UndoLog.Proofs.Scan.Bounds

/-!
# Walks make progress

The shortest record has twenty-five bytes, so a reader that finds a record in bytes of any content
moves by at least as many. A walk in either direction therefore meets records that lie side by side,
no more than there is room for, and stops where the journal ends or where a scan is refused.
`Rollback.Yields` says all that the calls of a walk backward answer, `Reader.readForward` what a
loop of reads forward comes to.
-/

namespace UndoLog

private theorem Tiles.add_mul_length_le {start stop least : Nat} {spans : List Span}
    (h : Tiles start spans stop) (hleast : ∀ span ∈ spans, span.start + least ≤ span.stop) :
    start + least * spans.length ≤ stop := by
  induction spans generalizing start with
  | nil => exact Nat.le_of_eq h
  | cons span rest ih =>
    obtain ⟨rfl, -, hrest⟩ := h
    have hspan := hleast span List.mem_cons_self
    have hle := ih hrest fun other hother => hleast other (List.mem_cons_of_mem _ hother)
    rw [List.length_cons, Nat.mul_succ]
    omega

private theorem Record.journalOffset_add_le_endOffset (r : Record) :
    r.journalOffset + 25 ≤ r.endOffset := by
  have hheader := r.kind.minHeaderLength_le
  have hend := r.endOffset_eq_payloadOffset_add
  have hmin : Layout.minHeaderLength = 11 := rfl
  have htrailer : Layout.trailerLength = 14 := rfl
  simp only [payloadOffset, headerLength] at hend
  omega

private theorem Tiles.length_records_le {start stop : Nat} {records : List Record}
    (h : Tiles start (records.map Record.span) stop) : records.length ≤ (stop - start) / 25 := by
  have hleast : ∀ span ∈ records.map Record.span, span.start + 25 ≤ span.stop := by
    intro span hspan
    obtain ⟨record, -, rfl⟩ := List.mem_map.mp hspan
    exact record.journalOffset_add_le_endOffset
  have hle := h.add_mul_length_le hleast
  rw [List.length_map] at hle
  omega

/-- The start of the last record, or `position` if there is none. -/
def Record.lastStart (position : Nat) (records : List Record) : Nat :=
  (records.getLast?.map Record.journalOffset).getD position

namespace Record

/-- Without records it is the position. -/
@[simp] theorem lastStart_nil (position : Nat) : lastStart position [] = position := rfl

/-- With a first record it is the last start of the others, from the start of the first. -/
@[simp] theorem lastStart_cons (position : Nat) (r : Record) (rest : List Record) :
    lastStart position (r :: rest) = lastStart r.journalOffset rest := by
  cases rest with
  | nil => rfl
  | cons next rest =>
    simp only [lastStart, List.getLast?_cons, Option.map_some, Option.getD_some]

end Record

private theorem ScansBack.lastStart_eq {journal : Bytes} {position stop : Nat}
    {records : List Record}
    (h : ScansBack journal position records stop) : Record.lastStart position records = stop := by
  induction h with
  | stop => rfl
  | @found position before stop record rest scan _ ih =>
    obtain ⟨-, rfl, -⟩ := ScanTask.resultOn_backward_eq_some_iff.mp scan
    rw [Record.lastStart_cons, ih]

private theorem ScansBack.journalStart_le {journal : Bytes} {position stop : Nat}
    {records : List Record}
    (h : ScansBack journal position records stop) (hstart : Layout.journalStart ≤ position) :
    Layout.journalStart ≤ stop := by
  induction h with
  | stop => exact hstart
  | found scan _ ih =>
    obtain ⟨-, rfl, payload, hstands⟩ := ScanTask.resultOn_backward_eq_some_iff.mp scan
    exact ih hstands.start_le

namespace ScanTask.Course

variable {journal : Bytes} {reads : List (Nat × Nat)} {found : Scanned}

/-- A record found forward starts at the position and ends inside the journal, where the scan
ends. -/
private theorem forward_found {cursor targetLength : Nat} {verifyTrailer : Bool}
    (h : Course journal (.forward cursor targetLength verifyTrailer) reads (.ok (some found))) :
    found.record.journalOffset = cursor ∧ found.cursor = found.record.endOffset ∧
      found.record.endOffset ≤ journal.length := by
  cases h with
  | forwardFound start_le inside header => exact ⟨rfl, rfl, inside⟩
  | forwardVerified start_le inside header payload outcome =>
    obtain rfl := outcome.eq_of_found
    exact ⟨rfl, rfl, inside⟩

end ScanTask.Course

namespace Reader

variable {journal : Bytes} {position targetLength : Nat} {verifyTrailer : Bool} {record : Record}
  {after : Reader MemoryStorage}

private theorem commit_eq_some_iff {σ : Type} {r after : Reader σ} {result : ScanResult}
    {storage : σ} :
    r.commit (result, storage) = (.ok (some record), after) ↔
      ∃ next, result = .ok (some ⟨record, next⟩) ∧
        after = { r with storage, position := next } := by
  rcases result with error | _ | ⟨found, next⟩ <;> simp [commit, eq_comm]

/-- A record read forward starts at the position and ends inside the journal, at the new
position. -/
theorem nextForward_eq_some
    (h : (⟨⟨journal⟩, position, verifyTrailer⟩ : Reader MemoryStorage).nextForward targetLength =
      (.ok (some record), after)) :
    record.journalOffset = position ∧ record.endOffset ≤ journal.length ∧
      after = ⟨⟨journal⟩, record.endOffset, verifyTrailer⟩ := by
  rw [nextForward_memory] at h
  obtain ⟨next, hresult, rfl⟩ := commit_eq_some_iff.mp h
  have hcourse := (ScanTask.forward position targetLength verifyTrailer).course journal
  rw [hresult] at hcourse
  obtain ⟨hoffset, hposition, hin⟩ := hcourse.forward_found
  dsimp only at hoffset hposition hin
  exact ⟨hoffset, hin, by rw [hposition]⟩

/-- A record read backward ends at the position and starts behind the reserved bytes, at the new
position. -/
theorem nextBackward_eq_some
    (h : (⟨⟨journal⟩, position, verifyTrailer⟩ : Reader MemoryStorage).nextBackward =
      (.ok (some record), after)) :
    record.endOffset = position ∧ Layout.journalStart ≤ record.journalOffset ∧
      after = ⟨⟨journal⟩, record.journalOffset, verifyTrailer⟩ := by
  rw [nextBackward_memory] at h
  obtain ⟨next, hresult, rfl⟩ := commit_eq_some_iff.mp h
  obtain ⟨hposition, rfl, payload, hstands⟩ := ScanTask.resultOn_backward_eq_some_iff.mp hresult
  exact ⟨hposition, hstands.start_le, rfl⟩

end Reader

namespace Rollback

variable {σ : Type} [Storage σ]

private theorem after_of_finished {w : Rollback σ} (h : w.finished = true) (calls : Nat) :
    w.after calls = w := by
  induction calls with
  | zero => rfl
  | succ calls ih => rw [after, next, if_pos h, ih]

private theorem answer_of_last {w ended : Rollback σ} {item? : Option (Except JournalError Record)}
    (hnext : w.next = (item?, ended)) (h : ended.finished = true) (calls : Nat) :
    w.answer calls = item?.toList[calls]? := by
  cases calls with
  | zero =>
    rw [answer, after, hnext]
    cases item? <;> rfl
  | succ calls =>
    rw [answer, after, hnext, after_of_finished h, next, if_pos h]
    cases item? <;> rfl

private theorem reader_of_last {w ended : Rollback σ} {item? : Option (Except JournalError Record)}
    (hnext : w.next = (item?, ended)) (h : ended.finished = true)
    (hreader : ended.reader = w.reader) (calls : Nat) : (w.after calls).reader = w.reader := by
  cases calls with
  | zero => rfl
  | succ calls => rw [after, hnext, after_of_finished h, hreader]

/-- The calls of a walk answer `records`, then the error if there is one, and nothing after that;
each leaves the reader at the start of the last record answered. -/
structure Yields (w : Rollback σ) (records : List Record) (error? : Option JournalError) :
    Prop where
  answer_eq : ∀ calls, w.answer calls =
    (records.map Except.ok ++ (error?.map Except.error).toList)[calls]?
  reader_eq : ∀ calls, (w.after calls).reader =
    ⟨w.reader.storage, Record.lastStart w.reader.position (records.take calls),
      w.reader.verifyTrailer⟩

namespace Yields

variable {r : Reader σ} {records : List Record} {error? : Option JournalError}

private theorem of_none (h : r.nextBackward = (.ok none, r)) : Yields ⟨r, false⟩ [] none := by
  have hnext : (⟨r, false⟩ : Rollback σ).next = (none, ⟨r, true⟩) := by
    simp only [next, h]
    rfl
  refine ⟨answer_of_last hnext rfl, fun calls => ?_⟩
  rw [reader_of_last hnext rfl rfl, List.take_nil, Record.lastStart_nil]

private theorem of_error {error : JournalError} (h : r.nextBackward = (.error error, r)) :
    Yields ⟨r, false⟩ [] (some error) := by
  have hnext : (⟨r, false⟩ : Rollback σ).next = (some (.error error), ⟨r, true⟩) := by
    simp only [next, h]
    rfl
  refine ⟨answer_of_last hnext rfl, fun calls => ?_⟩
  rw [reader_of_last hnext rfl rfl, List.take_nil, Record.lastStart_nil]

private theorem cons {record : Record}
    (h : r.nextBackward = (.ok (some record), { r with position := record.journalOffset }))
    (hrest : Yields ⟨{ r with position := record.journalOffset }, false⟩ records error?) :
    Yields ⟨r, false⟩ (record :: records) error? := by
  have hnext : (⟨r, false⟩ : Rollback σ).next =
      (some (.ok record), ⟨{ r with position := record.journalOffset }, false⟩) := by
    simp only [next, h]
    rfl
  constructor
  · intro calls
    cases calls with
    | zero => rw [answer, after, hnext]; rfl
    | succ calls => rw [answer, after, hnext, ← answer, hrest.answer_eq]; rfl
  · intro calls
    cases calls with
    | zero => rfl
    | succ calls =>
      rw [after, hnext, hrest.reader_eq, List.take_succ_cons, Record.lastStart_cons]

end Yields
end Rollback

/-- A walk over bytes answers the records of the backward scans, and then the error of the last
scan. -/
theorem ScansBack.yields {journal : Bytes} {position stop : Nat} {records : List Record}
    {error? : Option JournalError} (h : ScansBack journal position records stop)
    (hends : Reader.WalkEnds journal stop error?) (hlength : Layout.journalStart ≤ journal.length)
    (verifyTrailer : Bool) :
    (⟨⟨⟨journal⟩, position, verifyTrailer⟩, false⟩ : Rollback MemoryStorage).Yields records
      error? := by
  induction h with
  | @stop position =>
    cases error? with
    | none =>
      obtain rfl : position = Layout.journalStart := hends
      exact .of_none (Reader.nextBackward_journalStart hlength verifyTrailer)
    | some error =>
      have hnext := Reader.nextBackward_memory journal position verifyTrailer
      rw [hends.1] at hnext
      exact .of_error hnext
  | @found position before stop record rest scan _ ih =>
    have hnext := Reader.nextBackward_memory journal position verifyTrailer
    rw [scan] at hnext
    obtain ⟨-, rfl, -⟩ := ScanTask.resultOn_backward_eq_some_iff.mp scan
    exact .cons hnext (ih hends)

namespace Reader

variable {journal : Bytes} {position : Nat}

/-- A loop of forward reads finds records that tile the bytes from the position, and ends at the end
of the journal or with a corruption error. -/
theorem exists_readForward_eq (hstart : Layout.journalStart ≤ position)
    (hend : position ≤ journal.length) (targetLengths : Nat → Nat) (verifyTrailer : Bool) :
    ∃ records ending stop,
      (∀ calls, records.length < calls →
        (⟨⟨journal⟩, position, verifyTrailer⟩ : Reader MemoryStorage).readForward targetLengths
          calls = (records, some ending, ⟨⟨journal⟩, stop, verifyTrailer⟩)) ∧
        Tiles position (records.map Record.span) stop ∧ stop ≤ journal.length ∧
        (ending = .ok () ∧ stop = journal.length ∨
          ∃ error, ending = .error error ∧ error.isCorruption) := by
  -- what is left of the journal gets shorter with every record
  induction hleft : journal.length - position using Nat.strongRecOn
    generalizing position targetLengths with
  | ind left ih =>
    have hnext := nextForward_memory journal position (targetLengths 0) verifyTrailer
    have hcourse := (ScanTask.forward position (targetLengths 0) verifyTrailer).course journal
    rcases hcourse.ends with ⟨houtside, -⟩ | ⟨-, hlast, hresult⟩ |
      ⟨-, -, ⟨⟨record, next⟩, hresult⟩ | ⟨error, hresult, hcorrupt⟩⟩
    · exact absurd ⟨hstart, hend⟩ houtside
    · rw [hresult] at hnext
      refine ⟨[], .ok (), position, fun calls hcalls => ?_, rfl, hend, .inl ⟨rfl, hlast⟩⟩
      obtain ⟨calls, rfl⟩ := Nat.exists_eq_add_one.mpr hcalls
      simp only [readForward, hnext, commit]
    · rw [hresult] at hcourse hnext
      obtain ⟨hoffset, hposition, hin⟩ := hcourse.forward_found
      dsimp only at hoffset hposition hin
      subst hoffset hposition
      have hless := record.journalOffset_lt_endOffset
      obtain ⟨records, ending, stop, hloop, htiles, hstop, hends⟩ :=
        ih (journal.length - record.endOffset) (by omega) (by omega) hin
          (fun call => targetLengths (call + 1)) rfl
      refine ⟨record :: records, ending, stop, fun calls hcalls => ?_, ⟨rfl, hless, htiles⟩, hstop,
        hends⟩
      obtain ⟨calls, rfl⟩ := Nat.exists_eq_add_one.mpr (Nat.zero_lt_of_lt hcalls)
      have hrest := hloop calls (by rw [List.length_cons] at hcalls; omega)
      simp only [readForward, hnext, commit, hrest]
    · rw [hresult] at hnext
      refine ⟨[], .error error, position, fun calls hcalls => ?_, rfl, hend,
        .inr ⟨error, rfl, hcorrupt⟩⟩
      obtain ⟨calls, rfl⟩ := Nat.exists_eq_add_one.mpr hcalls
      simp only [readForward, hnext, commit]

end Reader

/-- Over any bytes, from any position between the first record and the end, a read moves by at least
25 bytes, past exactly the record it finds, inside the journal. So a backward walk answers at most
as many records as fit, each ending where the newer one starts, then ends at the first record or
with one error, at the start of the last record found, and answers nothing after. A loop of forward
reads, over any target lengths, ends likewise. -/
theorem walks_progress_and_end (journal : Bytes) (position : Nat)
    (hstart : Layout.journalStart ≤ position) (hend : position ≤ journal.length)
    (verifyTrailer : Bool) :
    let r : Reader MemoryStorage := ⟨⟨journal⟩, position, verifyTrailer⟩
    (∀ targetLength record after, r.nextForward targetLength = (.ok (some record), after) →
      record.journalOffset = position ∧ after = { r with position := record.endOffset } ∧
        position + 25 ≤ record.endOffset ∧ record.endOffset ≤ journal.length) ∧
    (∀ record after, r.nextBackward = (.ok (some record), after) →
      record.endOffset = position ∧ after = { r with position := record.journalOffset } ∧
        Layout.journalStart ≤ record.journalOffset ∧ record.journalOffset + 25 ≤ position) ∧
    (∃ records error?, (⟨r, false⟩ : Rollback MemoryStorage).Yields records error? ∧
      Tiles (Record.lastStart position records) (records.reverse.map Record.span) position ∧
      records.length ≤ (position - Layout.journalStart) / 25 ∧
      match error? with
      | none => Record.lastStart position records = Layout.journalStart
      | some error => error.isCorruption) ∧
    ∀ targetLengths, ∃ records ending stop,
      (∀ calls, records.length < calls →
        r.readForward targetLengths calls = (records, some ending, { r with position := stop })) ∧
      Tiles position (records.map Record.span) stop ∧ stop ≤ journal.length ∧
      records.length ≤ (journal.length - position) / 25 ∧
      (ending = .ok () ∧ stop = journal.length ∨
        ∃ error, ending = .error error ∧ error.isCorruption) := by
  intro r
  refine ⟨fun targetLength record after h => ?_, fun record after h => ?_, ?_,
    fun targetLengths => ?_⟩
  · obtain ⟨rfl, hin, hafter⟩ := Reader.nextForward_eq_some h
    exact ⟨rfl, hafter, record.journalOffset_add_le_endOffset, hin⟩
  · obtain ⟨rfl, hfirst, hafter⟩ := Reader.nextBackward_eq_some h
    exact ⟨rfl, hafter, hfirst, record.journalOffset_add_le_endOffset⟩
  · obtain ⟨records, error?, stop, -, hscans, hends⟩ :=
      Reader.rollback_memory hstart hend verifyTrailer
    have htiles := hscans.tiles
    have hfirst : Layout.journalStart ≤ stop := hscans.journalStart_le hstart
    have hroom := htiles.length_records_le
    rw [List.length_reverse] at hroom
    obtain rfl := hscans.lastStart_eq
    refine ⟨records, error?, hscans.yields hends (Nat.le_trans hstart hend) verifyTrailer, htiles,
      Nat.le_trans hroom (Nat.div_le_div_right (Nat.sub_le_sub_left hfirst position)), ?_⟩
    cases error? with
    | none => exact hends
    | some error => exact hends.2
  · obtain ⟨records, ending, stop, hloop, htiles, hstop, hends⟩ :=
      Reader.exists_readForward_eq hstart hend targetLengths verifyTrailer
    have hroom := htiles.length_records_le
    exact ⟨records, ending, stop, hloop, htiles, hstop, by omega, hends⟩

/-- Behind a byte that is no tag a walk answers the one record, and then that there is no room for
another. -/
theorem walks_progress_and_end_of_damaged :
    let record : Record := ⟨9, ⟨0, 0, by decide, by decide⟩, .write 3 2⟩
    let journal := Layout.magic ++ [0xFF] ++ record.image [1, 2]
    let walk : Rollback MemoryStorage := ⟨⟨⟨journal⟩, 38, true⟩, false⟩
    Layout.journalStart ≤ 38 ∧ 38 ≤ journal.length ∧
      walk.Yields [record] (some (.corruptRecord 9 .noRoomForTrailer)) := by
  intro record journal walk
  have hstands : record.StandsIn [1, 2] journal := by
    have h : record.StandsIn [1, 2] (Layout.magic ++ [0xFF] ++ record.image [1, 2] ++ []) :=
      .of_append (by decide) (by decide) (by decide) rfl rfl
    rw [List.append_nil] at h
    exact h
  have hend : 38 ≤ journal.length := hstands.endOffset_le
  obtain ⟨-, -, ⟨records, error?, hyields, -, hroom, -⟩, -⟩ :=
    walks_progress_and_end journal 38 (by decide) hend true
  have hfirst : walk.next = (some (.ok record), ⟨⟨⟨journal⟩, 9, true⟩, false⟩) := by
    have hnext : walk.reader.nextBackward = _ := Reader.nextBackward_of_standsIn hstands true
    unfold Rollback.next
    rw [hnext]
    rfl
  have hsecond : walk.next.2.next.1 = some (.error (.corruptRecord 9 .noRoomForTrailer)) := by
    have hnext := Reader.nextBackward_memory journal 9 true
    rw [ScanTask.resultOn_backward, if_pos ⟨by decide, by omega⟩, if_neg (by decide),
      if_pos (by decide)] at hnext
    rw [hfirst, Rollback.next, hnext]
    rfl
  have hanswer : walk.next.1 = _ := hyields.answer_eq 0
  have hlast : walk.next.2.next.1 = _ := hyields.answer_eq 1
  rw [hfirst] at hanswer
  rw [hsecond] at hlast
  rcases records with _ | ⟨found, _ | ⟨other, rest⟩⟩
  · cases error? <;> cases hanswer
  · cases error? with
    | none => cases hlast
    | some error =>
      cases hanswer
      cases hlast
      exact ⟨by decide, hend, hyields⟩
  · simp only [List.length_cons, Layout.journalStart] at hroom
    omega

end UndoLog
