import UndoLog.Proofs.Writer
import UndoLog.Simulation.Builder

/-!
# What a builder has built

A builder holds the journal of entries: their bytes, their records with payloads, and a clock that
went on by a millisecond for each. It writes every step that a record can hold, as long as its clock
tells timestamps.
-/

namespace UndoLog

open Journal

namespace JournalBuilder

/-- The number of records for which the clock of a builder has time. -/
def capacity : Nat := 2 ^ 40

/-- A builder has written `entries` and nothing else, a millisecond of its clock for each. -/
structure Holds (b : JournalBuilder) (entries : List Entry) : Prop where
  data_eq : b.writer.storage.data = ofEntries entries
  newest_eq : b.newest.reverse =
    (recordsFrom Layout.journalStart entries).zip (entries.map Entry.payload)
  clock_eq : b.clock = 1000 * (entries.length : Int)
  isStored : ∀ e ∈ entries, e.IsStored

/-- A new builder holds no entries. -/
theorem holds_empty : empty.Holds [] where
  data_eq := by decide
  newest_eq := rfl
  clock_eq := rfl
  isStored := fun _ he => absurd he List.not_mem_nil

private theorem exists_builderTime {count : Nat} (h : count < capacity) :
    ∃ t, builderTime? (1000 * (count : Int) + 1000) = some t ∧ t.IsStored := by
  have hsome : (builderTime? (1000 * (count : Int) + 1000)).isSome := by
    unfold builderTime?
    rw [Timestamp.ofMicros?_isSome_iff]
    simp only [capacity, baseMicros, Timestamp.minMicros, Timestamp.maxMicros,
      Timestamp.minSeconds, Timestamp.maxSeconds] at h ⊢
    omega
  obtain ⟨t, ht⟩ := Option.isSome_iff_exists.mp hsome
  exact ⟨t, ht, (Timestamp.ofMicros?_eq_some_iff.mp ht).1⟩

private theorem add_of_record {b : JournalBuilder} {step : BuilderStep} {t : Timestamp}
    {record : Record}
    {writer : Writer MemoryStorage} (htime : builderTime? (b.clock + 1000) = some t)
    (hwrite : b.writer.record step t = (.ok record, writer)) :
    b.add step = some ⟨writer, (record, step.payload) :: b.newest, b.clock + 1000⟩ := by
  unfold add
  dsimp only
  rw [htime]
  cases step with
  | write targetOffset preImage =>
    change b.writer.recordWrite targetOffset preImage t = _ at hwrite
    simp only [hwrite]
  | length oldLength newLength tail =>
    change b.writer.recordLength oldLength newLength tail t = _ at hwrite
    simp only [hwrite]

/-- A writable step adds its entry, while the clock has time. -/
theorem Holds.add {b : JournalBuilder} {entries : List Entry} {step : BuilderStep}
    (h : b.Holds entries) (hstep : step.IsWritable) (hcount : entries.length < capacity) :
    ∃ e : Entry, ∃ after, b.add step = some after ∧ after.Holds (entries ++ [e]) ∧
      e.kind = step.kind ∧ e.payload = step.payload := by
  obtain ⟨t, htime, hstored⟩ := exists_builderTime hcount
  have hleap : ¬ t.IsLeap := (Timestamp.isStored_iff.mp hstored).1
  let e : Entry := hstep.entry hleap
  rw [← h.clock_eq] at htime
  have hwrite := Writer.record_ofEntries h.data_eq hstep hleap
  refine ⟨e, _, add_of_record htime hwrite, ?_, rfl, rfl⟩
  constructor
  · rfl
  · rw [List.reverse_cons, h.newest_eq, recordsFrom_concat, ← length_ofEntries, List.map_append,
      List.zip_append (by rw [length_recordsFrom, List.length_map])]
    rfl
  · rw [h.clock_eq, List.length_append]
    simp only [List.length_singleton]
    omega
  · intro x hx
    rcases List.mem_append.mp hx with hx | hx
    · exact h.isStored x hx
    · rw [List.mem_singleton.mp hx]
      exact hstep.isStored_entry hleap

/-- A built journal has the records of the entries. -/
theorem Holds.records_finish {b : JournalBuilder} {entries : List Entry} (h : b.Holds entries) :
    b.finish.records = recordsFrom Layout.journalStart entries := by
  show b.newest.reverse.map Prod.fst = _
  have hlen : (recordsFrom Layout.journalStart entries).length ≤
      (entries.map Entry.payload).length :=
    Nat.le_of_eq (by rw [length_recordsFrom, List.length_map])
  rw [h.newest_eq, List.map_fst_zip hlen]

end JournalBuilder
end UndoLog
