import UndoLog.Proofs.Journal.Boundaries
import UndoLog.Proofs.Reader.Memory
import UndoLog.Proofs.Scan.Forward
import UndoLog.Proofs.Writer
import UndoLog.Reader.Call

/-!
# A reader is a cursor over the records

A cursor over a list of records stands before the first of them, between two, or past the last.
`CursorStep` says what each call of a reader answers there and where it leaves the cursor. A reader
over the journal of those records does the same in any interleaving of calls, its position being the
boundary that the cursor stands at.

UndoJournal specification: sections 5.7 and 11.
-/

namespace UndoLog

open Journal

/-- A seek goes to a boundary, and a payload is that of one of `records`. -/
def ReaderCall.IsWithin (records : List Record) : ReaderCall → Prop
  | .seek position => position ∈ boundaries records
  | .payload record => record ∈ records
  | .forward _ | .backward | .seekEnd => True

/-- The answer of a call to a cursor that stands past `before` records, and the number `after` of
records it then stands past. Reads pass the record on their side, if it fits the target, and answer
nothing where there is none; seeks go to boundaries; a payload is that of the record, wherever the
cursor stands. -/
inductive CursorStep (records : List Record) (payloads : List Bytes) :
    (before : Nat) → ReaderCall → ReaderAnswer → (after : Nat) → Prop
  | backward {j : Nat} {r : Record} (record : records[j]? = some r) :
    CursorStep records payloads (j + 1) .backward (.next (.ok (some r))) j
  | backwardStart : CursorStep records payloads 0 .backward (.next (.ok none)) 0
  | forward {j targetLength : Nat} {r : Record} (record : records[j]? = some r)
      (fits : r.kind.FitsTarget targetLength) :
    CursorStep records payloads j (.forward targetLength) (.next (.ok (some r))) (j + 1)
  | forwardUnfit {j targetLength offset : Nat} {r : Record} {damage : Damage}
      (record : records[j]? = some r) (unfit : ¬ r.kind.FitsTarget targetLength)
      (start : (boundaries records)[j]? = some offset) :
    CursorStep records payloads j (.forward targetLength)
      (.next (.error (.corruptRecord offset damage))) j
  | forwardEnd {targetLength : Nat} :
    CursorStep records payloads records.length (.forward targetLength) (.next (.ok none))
      records.length
  | seek {j k position : Nat} (boundary : (boundaries records)[k]? = some position) :
    CursorStep records payloads j (.seek position) (.seek (.ok ())) k
  | seekEnd {j position : Nat} (boundary : (boundaries records)[records.length]? = some position) :
    CursorStep records payloads j .seekEnd (.seekEnd (.ok position)) records.length
  | payload {i j : Nat} {r : Record} {payload : Bytes} (record : records[i]? = some r)
      (saved : payloads[i]? = some payload) :
    CursorStep records payloads j (.payload r) (.payload (.ok payload)) j

/-- The events of a run are steps of a cursor, each with the position of the boundary at which it
leaves the cursor. -/
inductive CursorRun (records : List Record) (payloads : List Bytes) :
    (before : Nat) → List ReaderEvent → Prop
  | nil {j : Nat} : CursorRun records payloads j []
  | cons {j k : Nat} {event : ReaderEvent} {rest : List ReaderEvent}
      (step : CursorStep records payloads j event.call event.answer k)
      (boundary : (boundaries records)[k]? = some event.position)
      (others : CursorRun records payloads k rest) :
    CursorRun records payloads j (event :: rest)

namespace Reader

variable {entries : List Entry} {j position : Nat}

/-- A reader over the journal of entries. -/
def overEntries (entries : List Entry) (verifyTrailer : Bool) (position : Nat) :
    Reader MemoryStorage :=
  ⟨⟨ofEntries entries⟩, position, verifyTrailer⟩

private theorem cursorStep_backward (hstored : ∀ e ∈ entries, e.IsStored)
    (hj : (boundaries (recordsFrom Layout.journalStart entries))[j]? = some position)
    (verifyTrailer : Bool) :
    ∃ result next k,
      (overEntries entries verifyTrailer position).nextBackward =
          (result, overEntries entries verifyTrailer next) ∧
        CursorStep (recordsFrom Layout.journalStart entries) (entries.map Entry.payload) j .backward
          (.next result) k ∧
        (boundaries (recordsFrom Layout.journalStart entries))[k]? = some next := by
  obtain ⟨front, back, rfl, rfl, rfl⟩ := exists_append_of_boundary hj
  rcases List.eq_nil_or_concat' front with rfl | ⟨first, e, rfl⟩
  · have hnone := nextBackward_journalStart (journalStart_le_length_ofEntries back) verifyTrailer
    exact ⟨.ok none, _, 0, hnone, .backwardStart, rfl⟩
  · have he : e.IsStored := hstored e (by simp)
    have hmoved := nextBackward_of_standsIn (standsIn_ofEntries he first back) verifyTrailer
    rw [e.endOffset_recordAt, Nat.add_assoc, ← List.length_append, ← imagesFrom_concat] at hmoved
    rw [List.append_assoc, List.singleton_append, List.length_append, List.length_singleton]
    exact ⟨_, _, first.length, hmoved, .backward (getElem?_recordsFrom _ first e back),
      getElem?_boundaries first (e :: back)⟩

private theorem cursorStep_forward (hstored : ∀ e ∈ entries, e.IsStored)
    (hlimit : (ofEntries entries).length < Layout.offsetLimit)
    (hj : (boundaries (recordsFrom Layout.journalStart entries))[j]? = some position)
    (targetLength : Nat) (verifyTrailer : Bool) :
    ∃ result next k,
      (overEntries entries verifyTrailer position).nextForward targetLength =
          (result, overEntries entries verifyTrailer next) ∧
        CursorStep (recordsFrom Layout.journalStart entries) (entries.map Entry.payload) j
          (.forward targetLength) (.next result) k ∧
        (boundaries (recordsFrom Layout.journalStart entries))[k]? = some next := by
  obtain ⟨front, back, rfl, rfl, rfl⟩ := exists_append_of_boundary hj
  cases back with
  | nil =>
    have hlen := length_ofEntries front
    have hnone := nextForward_length (journalStart_le_length_ofEntries front) targetLength
      verifyTrailer
    have hend : front.length = (recordsFrom Layout.journalStart front).length :=
      (length_recordsFrom _ _).symm
    rw [List.append_nil] at hj ⊢
    rw [← hlen, hend] at hj ⊢
    exact ⟨.ok none, _, _, hnone, .forwardEnd, hj⟩
  | cons e rest =>
    have hstands := standsIn_ofEntries (hstored e (by simp)) front rest
    have hrecord := getElem?_recordsFrom Layout.journalStart front e rest
    by_cases hfits : e.kind.FitsTarget targetLength
    · have hmoved := nextForward_of_standsIn hstands hfits
        (Nat.lt_of_le_of_lt hstands.endOffset_le hlimit) verifyTrailer
      have hnext := getElem?_boundaries (front ++ [e]) rest
      rw [List.append_assoc, List.singleton_append, List.length_append, List.length_singleton,
        imagesFrom_concat, List.length_append, ← Nat.add_assoc, ← e.endOffset_recordAt] at hnext
      exact ⟨_, _, _, hmoved, .forward hrecord hfits, hnext⟩
    · obtain ⟨damage, hcorrupt⟩ := nextForward_of_not_fitsTarget hstands hfits verifyTrailer
      exact ⟨_, _, _, hcorrupt, .forwardUnfit hrecord hfits hj, hj⟩

private theorem cursorStep_payload (hstored : ∀ e ∈ entries, e.IsStored) {record : Record}
    (hrecord : record ∈ recordsFrom Layout.journalStart entries) (j position : Nat)
    (verifyTrailer : Bool) :
    ∃ payload,
      (overEntries entries verifyTrailer position).readPayload record =
          (.ok payload, overEntries entries verifyTrailer position) ∧
        CursorStep (recordsFrom Layout.journalStart entries) (entries.map Entry.payload) j
          (.payload record) (.payload (.ok payload)) j := by
  obtain ⟨i, hi⟩ := List.mem_iff_getElem?.mp hrecord
  obtain ⟨front, e, rest, rfl, rfl, rfl⟩ := exists_append_of_record hi
  have hstands := standsIn_ofEntries (hstored e (by simp)) front rest
  refine ⟨e.payload, readPayload_memory hstands position verifyTrailer, .payload hi ?_⟩
  rw [List.getElem?_map, List.getElem?_append_right (Nat.le_refl _), Nat.sub_self]
  rfl

private theorem mem_boundaries_bounds
    (hj : (boundaries (recordsFrom Layout.journalStart entries))[j]? = some position) :
    Layout.journalStart ≤ position ∧ position ≤ (ofEntries entries).length := by
  obtain ⟨front, back, rfl, -, rfl⟩ := exists_append_of_boundary hj
  have hlen := length_ofEntries (front ++ back)
  rw [imagesFrom_append, List.length_append] at hlen
  omega

/-- Every call is a step of the cursor. -/
theorem cursorStep_perform (hstored : ∀ e ∈ entries, e.IsStored)
    (hlimit : (ofEntries entries).length < Layout.offsetLimit) {call : ReaderCall}
    (hcall : call.IsWithin (recordsFrom Layout.journalStart entries))
    (hj : (boundaries (recordsFrom Layout.journalStart entries))[j]? = some position)
    (verifyTrailer : Bool) :
    ∃ answer next k,
      (overEntries entries verifyTrailer position).perform call =
          (answer, overEntries entries verifyTrailer next) ∧
        CursorStep (recordsFrom Layout.journalStart entries) (entries.map Entry.payload) j call
          answer k ∧
        (boundaries (recordsFrom Layout.journalStart entries))[k]? = some next := by
  cases call with
  | forward targetLength =>
    obtain ⟨result, next, k, hnext, hstep, hk⟩ :=
      cursorStep_forward hstored hlimit hj targetLength verifyTrailer
    exact ⟨.next result, next, k, by simp only [perform, hnext], hstep, hk⟩
  | backward =>
    obtain ⟨result, next, k, hnext, hstep, hk⟩ := cursorStep_backward hstored hj verifyTrailer
    exact ⟨.next result, next, k, by simp only [perform, hnext], hstep, hk⟩
  | seek target =>
    obtain ⟨k, hk⟩ := List.mem_iff_getElem?.mp hcall
    obtain ⟨hstart, hend⟩ := mem_boundaries_bounds hk
    have hseek := seek_memory hstart hend position verifyTrailer
    exact ⟨.seek (.ok ()), target, k, by simp only [perform, overEntries, hseek], .seek hk, hk⟩
  | seekEnd =>
    have hlen := length_ofEntries entries
    have hseek := seekEnd_memory (journalStart_le_length_ofEntries entries) position verifyTrailer
    have hend := getElem?_boundaries entries []
    rw [List.append_nil, ← hlen, ← length_recordsFrom Layout.journalStart entries] at hend
    exact ⟨_, _, _, by simp only [perform, overEntries, hseek], .seekEnd hend, hend⟩
  | payload record =>
    obtain ⟨payload, hread, hstep⟩ := cursorStep_payload hstored hcall j position verifyTrailer
    exact ⟨_, position, j, by simp only [perform, hread], hstep, hj⟩

/-- Every history is a run of the cursor. -/
theorem cursorRun_history (hstored : ∀ e ∈ entries, e.IsStored)
    (hlimit : (ofEntries entries).length < Layout.offsetLimit) {calls : List ReaderCall}
    (hcalls : ∀ call ∈ calls, call.IsWithin (recordsFrom Layout.journalStart entries))
    (hj : (boundaries (recordsFrom Layout.journalStart entries))[j]? = some position)
    (verifyTrailer : Bool) :
    CursorRun (recordsFrom Layout.journalStart entries) (entries.map Entry.payload) j
      ((overEntries entries verifyTrailer position).history calls) := by
  induction calls generalizing j position with
  | nil => exact .nil
  | cons call rest ih =>
    obtain ⟨answer, next, k, hperform, hstep, hk⟩ :=
      cursorStep_perform hstored hlimit (hcalls call List.mem_cons_self) hj verifyTrailer
    rw [history, hperform]
    exact .cons hstep hk (ih (fun c hc => hcalls c (List.mem_cons_of_mem call hc)) hk)

end Reader

/-- A reader over a journal that a writer accepted behaves as a cursor over the written records and
payloads, in every interleaving of calls, starting before the first record. -/
theorem reader_is_cursor {syncOnWrite : Bool} {written : List (BuilderStep × Timestamp)}
    {records : List Record} {w : Writer MemoryStorage}
    (haccepted : (Writer.fresh syncOnWrite).recordAll? written = some (records, w))
    (hleap : ∀ call ∈ written, ¬ call.2.IsLeap)
    (hlen : w.storage.data.length < Layout.offsetLimit) (verifyTrailer : Bool)
    {calls : List ReaderCall} (hcalls : ∀ call ∈ calls, call.IsWithin records) :
    CursorRun records (written.map fun call => call.1.payload) 0
      (Reader.history calls { storage := w.storage, verifyTrailer }) := by
  obtain ⟨entries, hstored, hdata, rfl, hpayloads⟩ :=
    Writer.recordAll?_ofEntries (Writer.data_fresh syncOnWrite) hleap haccepted
  rw [List.nil_append] at hdata
  have hstorage : w.storage = ⟨ofEntries entries⟩ := congrArg MemoryStorage.mk hdata
  rw [hdata] at hlen
  rw [hstorage, ← hpayloads]
  exact Reader.cursorRun_history hstored hlen hcalls rfl verifyTrailer

/-- Two records read in both directions, over a target that the first does not fit, and from
positions that were sought. -/
theorem reader_is_cursor_of_two :
    let epoch : Timestamp := ⟨0, 0, by decide, by decide⟩
    let first : Record := ⟨8, epoch, .write 3 2⟩
    let second : Record := ⟨37, epoch, .length 9 7⟩
    ∃ w : Writer MemoryStorage,
      (Writer.fresh true).recordAll? [(.write 3 [1, 2], epoch), (.length 9 7 [5, 6], epoch)] =
          some ([first, second], w) ∧
        w.storage.data.length = 66 ∧
        CursorRun [first, second] [[1, 2], [5, 6]] 0
          (Reader.history [.forward 4, .forward 9, .seekEnd, .backward, .payload first, .seek 8]
            { storage := w.storage, verifyTrailer := true }) := by
  intro epoch first second
  have hfacts : ((Writer.fresh true).recordAll?
      [(.write 3 [1, 2], epoch), (.length 9 7 [5, 6], epoch)]).map
        (fun result => (result.1, result.2.storage.data.length)) =
          some ([first, second], 66) := by decide +kernel
  obtain ⟨⟨records, w⟩, haccepted, hresult⟩ := Option.map_eq_some_iff.mp hfacts
  obtain ⟨hrecords, hlength⟩ := Prod.mk.inj hresult
  dsimp only at hrecords hlength
  rw [hrecords] at haccepted
  refine ⟨w, haccepted, hlength, ?_⟩
  apply reader_is_cursor haccepted
  · intro call hcall
    have hepoch : call.2 = epoch := by
      rcases List.mem_pair.mp hcall with rfl | rfl <;> rfl
    rw [hepoch]
    decide
  · rw [hlength]
    decide
  · simp [ReaderCall.IsWithin, boundaries, Layout.journalStart]

end UndoLog
