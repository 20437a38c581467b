import UndoLog.Proofs.Reader.Rollback
import UndoLog.Report.Verification

/-!
# What passes verification

A journal passes verification exactly if it is that of some entries, and the verification then
counts those entries and their payload bytes.
-/

namespace UndoLog

open Journal

variable {journal : Bytes}

/-- A verification reads the bytes in memory and keeps them. -/
theorem verifyJournal_memory (journal : Bytes) :
    verifyJournal (⟨journal⟩ : MemoryStorage) =
      if journal.length < Layout.journalStart then
        (.ok { journalLength := journal.length, defect? := some (.tooShort journal.length) },
          ⟨journal⟩)
      else if journal.window 0 Layout.journalStart = Layout.magic then
        verifyRecords journal.length ⟨journal⟩
      else
        (.ok { journalLength := journal.length
               defect? := some (.badMagic (journal.window 0 Layout.journalStart)) },
          ⟨journal⟩) := by
  have hsize : Storage.size (⟨journal⟩ : MemoryStorage) = (.ok journal.length, ⟨journal⟩) := rfl
  unfold verifyJournal
  rw [hsize]
  by_cases h : journal.length < Layout.journalStart
  · simp only [if_pos h]
  · have hread : Storage.readAt (⟨journal⟩ : MemoryStorage) 0 Layout.journalStart =
        (.ok (journal.window 0 Layout.journalStart), ⟨journal⟩) :=
      Prod.ext (Bytes.read_eq_ok_iff.mpr ⟨by dsimp only; omega, rfl⟩) rfl
    simp only [if_neg h, hread]

/-- The records verified are those of a walk from the end. -/
theorem verifyRecords_memory (h : Layout.journalStart ≤ journal.length) :
    verifyRecords journal.length (⟨journal⟩ : MemoryStorage) =
      let walk := (⟨⟨journal⟩, journal.length, true⟩ : Reader MemoryStorage).rollback none
      (.ok {
        journalLength := journal.length
        validRecords := walk.1.length
        payloadBytes := (walk.1.map Record.dataLength).sum
        defect? := walk.2.1.map .unreadable }, ⟨journal⟩) := by
  have hstorage := Reader.storage_rollback_memory none
    (⟨⟨journal⟩, journal.length, true⟩ : Reader MemoryStorage)
  unfold verifyRecords
  rw [Reader.seekEnd_memory h Layout.journalStart true]
  dsimp only at hstorage ⊢
  rw [hstorage, List.sum_eq_foldl, List.foldl_map]

/-- The verification of a journal of entries counts them and their payload bytes. -/
theorem verifyJournal_ofEntries (entries : List Entry) :
    verifyJournal (⟨ofEntries entries⟩ : MemoryStorage) =
      (.ok {
        journalLength := (ofEntries entries).length
        validRecords := entries.length
        payloadBytes := (entries.map fun e => e.payload.length).sum }, ⟨ofEntries entries⟩) := by
  obtain ⟨hmagic, hlen, -⟩ := eq_ofEntries_iff.mp (rfl : ofEntries entries = _)
  have hwalk := Reader.rollback_imagesFrom (isStored_of_mem_map_stored entries)
    Layout.length_magic [] true
  dsimp only at hwalk
  rw [imagesFrom_map_stored, List.append_nil, ← length_ofEntries] at hwalk
  change (⟨⟨ofEntries entries⟩, _, _⟩ : Reader MemoryStorage).rollback none = _ at hwalk
  have hcount : ((recordsFrom Layout.journalStart (entries.map Entry.stored)).reverse.map
      Record.dataLength).sum = (entries.map fun e => e.payload.length).sum := by
    rw [List.map_reverse, List.sum_reverse_nat, map_dataLength_recordsFrom, List.map_map]
    rfl
  rw [verifyJournal_memory, if_neg (by omega), if_pos hmagic, verifyRecords_memory hlen, hwalk]
  simp only [hcount, List.length_reverse, length_recordsFrom, List.length_map, Option.map_none]

private theorem exists_entries_of_verifyJournal {v : Verification} {after : MemoryStorage}
    (h : verifyJournal (⟨journal⟩ : MemoryStorage) = (.ok v, after)) (hv : v.defect? = none) :
    ∃ entries, journal = ofEntries entries := by
  rw [verifyJournal_memory] at h
  split at h
  · cases h
    cases hv
  · next hlen =>
    split at h
    · next hmagic =>
      rw [verifyRecords_memory (by omega)] at h
      cases h
      obtain ⟨-, -, entries, -, hwindow, -⟩ := Reader.exists_entries_of_rollback
        (Prod.ext rfl (Prod.ext (Option.map_eq_none_iff.mp hv) rfl))
      exact ⟨entries, eq_ofEntries_iff.mpr ⟨hmagic, by omega, hwindow⟩⟩
    · cases h
      cases hv

private theorem exists_verifyJournal_eq (journal : Bytes) :
    ∃ v, verifyJournal (⟨journal⟩ : MemoryStorage) = (.ok v, ⟨journal⟩) := by
  rw [verifyJournal_memory]
  split
  · exact ⟨_, rfl⟩
  · next hlen =>
    split
    · exact ⟨_, verifyRecords_memory (by omega)⟩
    · exact ⟨_, rfl⟩

/-- A journal in memory is always verified. It has no defect iff it is the journal of entries, and
then the verification counts the entries and their payload bytes, which the journal holds. There is
exactly one list of stored entries with that journal. -/
theorem verifyJournal_accepts_grammar (journal : Bytes) :
    ∃ v, verifyJournal (⟨journal⟩ : MemoryStorage) = (.ok v, ⟨journal⟩) ∧
      (v.defect? = none ↔ ∃ entries, journal = ofEntries entries) ∧
      ∀ entries, journal = ofEntries entries →
        v.validRecords = entries.length ∧
        v.payloadBytes = (entries.map fun e => e.payload.length).sum ∧
        v.payloadBytes ≤ journal.length ∧
        ∃! stored : List Entry, journal = ofEntries stored ∧
          ∀ e ∈ stored, e.timestamp.nanos % 1000 = 0 ∧ ¬ e.timestamp.IsLeap := by
  have hstored (e : Entry) :
      (e.timestamp.nanos % 1000 = 0 ∧ ¬ e.timestamp.IsLeap) ↔ e.IsStored :=
    And.comm.trans Timestamp.isStored_iff.symm
  obtain ⟨v, hv⟩ := exists_verifyJournal_eq journal
  have hcount {entries : List Entry} (h : journal = ofEntries entries) :
      v = {
        journalLength := journal.length
        validRecords := entries.length
        payloadBytes := (entries.map fun e => e.payload.length).sum } := by
    subst h
    rw [verifyJournal_ofEntries] at hv
    exact (Except.ok.inj (Prod.mk.inj hv).1).symm
  refine ⟨v, hv, ⟨?_, ?_⟩, ?_⟩
  · exact exists_entries_of_verifyJournal hv
  · rintro ⟨entries, h⟩
    rw [hcount h]
  · intro entries h
    have hsum := sum_length_payload_le Layout.journalStart entries
    have hlen := length_ofEntries entries
    rw [hcount h]
    refine ⟨rfl, rfl, ?_, ?_⟩
    · rw [h]
      dsimp only
      omega
    · simp only [hstored, h]
      exact existsUnique_stored entries

end UndoLog
