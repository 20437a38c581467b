import UndoLog.Proofs.Scan.Backward
import UndoLog.Proofs.Scan.Forward
import UndoLog.Reader.Rollback

/-!
# Readers over bytes in memory

A reader over memory moves by what the scans come to over the bytes, reads the payload of a record
that stands there, and leaves the bytes as they are.
-/

namespace UndoLog.Reader

variable {journal payload : Bytes} {record : Record}

/-- Over memory a backward read commits the result of the scan over the bytes. -/
theorem nextBackward_memory (journal : Bytes) (position : Nat) (verifyTrailer : Bool) :
    (⟨⟨journal⟩, position, verifyTrailer⟩ : Reader MemoryStorage).nextBackward =
      commit ⟨⟨journal⟩, position, verifyTrailer⟩
        ((ScanTask.backward position).resultOn journal, ⟨journal⟩) := by
  unfold nextBackward backwardTask
  rw [ScanTask.run_memory]

/-- At the end of a record that stands in the bytes, a backward read moves to its start. -/
theorem nextBackward_of_standsIn (h : record.StandsIn payload journal) (verifyTrailer : Bool) :
    (⟨⟨journal⟩, record.endOffset, verifyTrailer⟩ : Reader MemoryStorage).nextBackward =
      (.ok (some record), ⟨⟨journal⟩, record.journalOffset, verifyTrailer⟩) := by
  have hfound : (ScanTask.backward record.endOffset).resultOn journal =
      .ok (some ⟨record, record.journalOffset⟩) :=
    ScanTask.resultOn_backward_eq_some_iff.mpr ⟨rfl, rfl, payload, h⟩
  rw [nextBackward_memory, hfound]
  rfl

/-- At the start of the first record a backward read finds nothing. -/
theorem nextBackward_journalStart (h : Layout.journalStart ≤ journal.length)
    (verifyTrailer : Bool) :
    (⟨⟨journal⟩, Layout.journalStart, verifyTrailer⟩ : Reader MemoryStorage).nextBackward =
      (.ok none, ⟨⟨journal⟩, Layout.journalStart, verifyTrailer⟩) := by
  rw [nextBackward_memory, ScanTask.resultOn_backward_eq_none_iff.mpr ⟨rfl, h⟩]
  rfl

/-- Over memory a forward read commits the result of the scan over the bytes. -/
theorem nextForward_memory (journal : Bytes) (position targetLength : Nat)
    (verifyTrailer : Bool) :
    (⟨⟨journal⟩, position, verifyTrailer⟩ : Reader MemoryStorage).nextForward targetLength =
      commit ⟨⟨journal⟩, position, verifyTrailer⟩
        ((ScanTask.forward position targetLength verifyTrailer).resultOn journal, ⟨journal⟩) := by
  unfold nextForward forwardTask
  rw [ScanTask.run_memory]

/-- At the start of a record that stands in the bytes, fits the target and ends below the offset
limit, a forward read moves to its end. -/
theorem nextForward_of_standsIn {targetLength : Nat} (h : record.StandsIn payload journal)
    (hfits : record.kind.FitsTarget targetLength) (hlimit : record.endOffset < Layout.offsetLimit)
    (verifyTrailer : Bool) :
    (⟨⟨journal⟩, record.journalOffset, verifyTrailer⟩ :
        Reader MemoryStorage).nextForward targetLength =
      (.ok (some record), ⟨⟨journal⟩, record.endOffset, verifyTrailer⟩) := by
  rw [nextForward_memory, ScanTask.resultOn_forward_of_standsIn h hfits hlimit verifyTrailer]
  rfl

/-- A forward read of a record that does not fit the target fails and stays. -/
theorem nextForward_of_not_fitsTarget {targetLength : Nat} (h : record.StandsIn payload journal)
    (hfits : ¬ record.kind.FitsTarget targetLength) (verifyTrailer : Bool) :
    ∃ damage,
      (⟨⟨journal⟩, record.journalOffset, verifyTrailer⟩ :
          Reader MemoryStorage).nextForward targetLength =
        (.error (.corruptRecord record.journalOffset damage),
          ⟨⟨journal⟩, record.journalOffset, verifyTrailer⟩) := by
  rw [nextForward_memory]
  obtain ⟨damage, hcorrupt⟩ := ScanTask.resultOn_forward_of_not_fitsTarget h.start_le h.stored
    h.windows.1 hfits
  rw [hcorrupt]
  exact ⟨damage, rfl⟩

/-- At the end of the journal a forward read finds nothing. -/
theorem nextForward_length (h : Layout.journalStart ≤ journal.length) (targetLength : Nat)
    (verifyTrailer : Bool) :
    (⟨⟨journal⟩, journal.length, verifyTrailer⟩ :
        Reader MemoryStorage).nextForward targetLength =
      (.ok none, ⟨⟨journal⟩, journal.length, verifyTrailer⟩) := by
  rw [nextForward_memory, ScanTask.resultOn_forward_eq_none_iff.mpr ⟨rfl, h⟩]
  rfl

/-- Over memory every position from the first record to the end can be sought. -/
theorem seek_memory {target : Nat} (hstart : Layout.journalStart ≤ target)
    (hend : target ≤ journal.length) (position : Nat) (verifyTrailer : Bool) :
    (⟨⟨journal⟩, position, verifyTrailer⟩ : Reader MemoryStorage).seek target =
      (.ok (), ⟨⟨journal⟩, target, verifyTrailer⟩) := by
  have hcursor : checkCursor target journal.length = .ok () := by
    unfold checkCursor
    rw [if_pos ⟨hstart, hend⟩]
  have hsize : Storage.size (⟨journal⟩ : MemoryStorage) = (.ok journal.length, ⟨journal⟩) := rfl
  simp only [seek, hsize, hcursor]

/-- Over memory the end can be sought unless it lies in the reserved bytes. -/
theorem seekEnd_memory (h : Layout.journalStart ≤ journal.length) (position : Nat)
    (verifyTrailer : Bool) :
    (⟨⟨journal⟩, position, verifyTrailer⟩ : Reader MemoryStorage).seekEnd =
      (.ok journal.length, ⟨⟨journal⟩, journal.length, verifyTrailer⟩) := by
  have hsize : Storage.size (⟨journal⟩ : MemoryStorage) = (.ok journal.length, ⟨journal⟩) := rfl
  unfold seekEnd
  simp only [hsize, seek_memory h (Nat.le_refl _) position verifyTrailer]

private theorem storage_of_nextBackward_memory {r after : Reader MemoryStorage}
    {result : Except JournalError (Option Record)} (h : r.nextBackward = (result, after)) :
    after.storage = r.storage := by
  rw [nextBackward_memory r.storage.data r.position r.verifyTrailer] at h
  unfold commit at h
  split at h
  all_goals
    next hr =>
    rw [← (Prod.mk.inj h).2]
    exact (congrArg Prod.snd hr).symm

/-- A walk keeps the bytes. -/
theorem storage_rollback_memory (limit? : Option Nat) (r : Reader MemoryStorage) :
    (r.rollback limit?).2.2.storage = r.storage := by
  fun_induction rollback limit? r with
  | case1 limit? r after h => exact storage_of_nextBackward_memory h
  | case2 limit? r error after h => exact storage_of_nextBackward_memory h
  | case3 r record after h => exact storage_of_nextBackward_memory h
  | case4 limit? r record after h _ _ records error? last hrest ih =>
    rw [hrest] at ih
    exact ih.trans (storage_of_nextBackward_memory h)

/-- The payload of a record that stands in the bytes is read. -/
theorem readPayload_memory (h : record.StandsIn payload journal) (position : Nat)
    (verifyTrailer : Bool) :
    (⟨⟨journal⟩, position, verifyTrailer⟩ : Reader MemoryStorage).readPayload record =
      (.ok payload, ⟨⟨journal⟩, position, verifyTrailer⟩) := by
  have hin : record.payloadOffset + record.dataLength ≤ journal.length := by
    rw [record.payloadOffset_add_dataLength]
    exact Nat.le_trans (Nat.sub_le _ _) h.endOffset_le
  have hread : Storage.readAt (⟨journal⟩ : MemoryStorage) record.payloadOffset record.dataLength =
      (.ok payload, ⟨journal⟩) :=
    Prod.ext (Bytes.read_eq_ok_iff.mpr ⟨hin, h.window_payload.symm⟩) rfl
  unfold readPayload
  rw [hread]

end UndoLog.Reader
