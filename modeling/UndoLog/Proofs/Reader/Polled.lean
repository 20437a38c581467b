import UndoLog.Proofs.Reader.Cursor
import UndoLog.Proofs.Scan.Polled
import UndoLog.Reader.Suspending

/-!
# Readers whose calls are polled

Calls of a reader are polled a number of times each, one after another, and dropped when they are
not ready. Over a storage without faults whose reads suspend, the calls that are ready answer as
those of a reader of which the others were never asked, make the same reads, and leave the same
positions. A call that makes `r` reads is ready on poll `r + 1`, and one that is dropped leaves the
position.

UndoJournal specification: section 6.
-/

namespace UndoLog

open FaultyStorage

/-- A call that was carried out, with the ranges that it read. -/
structure LoggedEvent extends ReaderEvent where
  reads : List (Nat × Nat)

/-- A call that was polled, its answer if it was ready, the position before and after it, and the
ranges that it read. -/
structure PolledEvent extends PolledCall where
  answer? : Option ReaderAnswer
  before : Nat
  after : Nat
  reads : List (Nat × Nat)

/-- A polled call that was ready, as one that was carried out. -/
def PolledEvent.completed? (event : PolledEvent) : Option LoggedEvent :=
  event.answer?.map fun answer => ⟨⟨event.call, answer, event.after⟩, event.reads⟩

namespace Reader

/-- The ranges read since `before`. -/
def readsSince (r before : Reader FaultyStorage) : List (Nat × Nat) :=
  r.storage.reads.drop before.storage.reads.length

/-- The events of calls one after another, with the ranges that each read. -/
def loggedHistory : (calls : List ReaderCall) → (r : Reader FaultyStorage) → List LoggedEvent
  | [], _ => []
  | call :: rest, r =>
    let (answer, after) := r.perform call
    ⟨⟨call, answer, after.position⟩, after.readsSince r⟩ :: loggedHistory rest after

/-- The events of polled calls one after another, over reads that suspend. -/
def pollHistory : (calls : List PolledCall) → (r : Reader FaultyStorage) → List PolledEvent
  | [], _ => []
  | polled :: rest, r =>
    let (answer?, after) := r.pollCall .suspending polled.polls polled.call
    ⟨polled, answer?, r.position, after.position, after.readsSince r⟩ :: pollHistory rest after

end Reader

/-- The ranges that a call reads over `journal`. -/
def ReaderCall.readsOn (journal : Bytes) (position : Nat) (verifyTrailer : Bool) :
    ReaderCall → List (Nat × Nat)
  | .forward targetLength =>
    (ScanTask.forward position targetLength verifyTrailer).readsOn journal
  | .backward => (ScanTask.backward position).readsOn journal
  | .seek _ | .seekEnd => []
  | .payload record => [(record.payloadOffset, record.dataLength)]

namespace Reader

variable {f : FaultyStorage} {position polls : Nat} {verifyTrailer : Bool} {call : ReaderCall}

/-- A reader over memory. -/
def overBytes (journal : Bytes) (position : Nat) (verifyTrailer : Bool) : Reader MemoryStorage :=
  ⟨⟨journal⟩, position, verifyTrailer⟩

/-- The result of a scan moves a reader over any storage as one over bytes. -/
theorem commit_eq_overBytes {σ : Type} (storage after : σ) (journal : Bytes) (position : Nat)
    (verifyTrailer : Bool) (result : ScanResult) :
    (⟨storage, position, verifyTrailer⟩ : Reader σ).commit (result, after) =
      (((overBytes journal position verifyTrailer).commit (result, ⟨journal⟩)).1,
        ⟨after, ((overBytes journal position verifyTrailer).commit (result, ⟨journal⟩)).2.position,
          verifyTrailer⟩) := by
  match result with
  | .error error => rfl
  | .ok none => rfl
  | .ok (some found) => rfl

/-- Without faults a call answers as over the bytes, and reads the ranges of `readsOn`. -/
theorem perform_faultFree (h : f.plan = {}) (position : Nat) (verifyTrailer : Bool)
    (call : ReaderCall) :
    ∃ sizes, (⟨f, position, verifyTrailer⟩ : Reader FaultyStorage).perform call =
      (((overBytes f.data position verifyTrailer).perform call).1,
        ⟨f.afterCalls sizes (call.readsOn f.data position verifyTrailer),
          ((overBytes f.data position verifyTrailer).perform call).2.position, verifyTrailer⟩) := by
  cases call with
  | forward targetLength =>
    have hmemory := nextForward_memory f.data position targetLength verifyTrailer
    have hrun := ScanTask.run_faultFree (.forward position targetLength verifyTrailer) h
    refine ⟨1, ?_⟩
    simp only [perform, overBytes]
    rw [hmemory, nextForward, forwardTask, hrun,
      commit_eq_overBytes f _ f.data position verifyTrailer]
    rfl
  | backward =>
    have hmemory := nextBackward_memory f.data position verifyTrailer
    have hrun := ScanTask.run_faultFree (.backward position) h
    refine ⟨1, ?_⟩
    simp only [perform, overBytes]
    rw [hmemory, nextBackward, backwardTask, hrun,
      commit_eq_overBytes f _ f.data position verifyTrailer]
    rfl
  | seek target =>
    have hsize : Storage.size (⟨f.data⟩ : MemoryStorage) = (.ok f.data.length, ⟨f.data⟩) := rfl
    refine ⟨1, ?_⟩
    simp only [perform, overBytes, seek, size_eq h, hsize]
    cases checkCursor target f.data.length <;> rfl
  | seekEnd =>
    have hsize : Storage.size (⟨f.data⟩ : MemoryStorage) = (.ok f.data.length, ⟨f.data⟩) := rfl
    have hagain := size_eq (f := f.afterCalls 1 []) h
    refine ⟨2, ?_⟩
    simp only [perform, overBytes, seekEnd, seek, size_eq h, hsize, hagain, data_afterCalls,
      afterCalls_afterCalls]
    cases checkCursor f.data.length f.data.length <;> rfl
  | payload record =>
    have hread : Storage.readAt (⟨f.data⟩ : MemoryStorage) record.payloadOffset
        record.dataLength = (f.data.read record.payloadOffset record.dataLength, ⟨f.data⟩) := rfl
    refine ⟨0, ?_⟩
    simp only [perform, overBytes, readPayload, readAt_eq h, hread]
    cases f.data.read record.payloadOffset record.dataLength <;> rfl

private theorem pollTask_of_lt {task : ScanTask} (h : f.plan = {})
    (hpolls : (task.readsOn f.data).length < polls) (position : Nat) (verifyTrailer : Bool) :
    pollTask .suspending polls task (⟨f, position, verifyTrailer⟩ : Reader FaultyStorage) =
      (some ((overBytes f.data position verifyTrailer).commit
          (task.resultOn f.data, ⟨f.data⟩)).1,
        ⟨f.afterCalls 1 (task.readsOn f.data),
          ((overBytes f.data position verifyTrailer).commit
            (task.resultOn f.data, ⟨f.data⟩)).2.position, verifyTrailer⟩) := by
  simp only [pollTask, ScanTask.pollTimes_of_lt h hpolls]
  rw [commit_eq_overBytes f _ f.data position verifyTrailer]

private theorem pollTask_of_le {task : ScanTask} (h : f.plan = {})
    (hpolls : polls ≤ (task.readsOn f.data).length) (position : Nat) (verifyTrailer : Bool) :
    ∃ sizes, pollTask .suspending polls task
        (⟨f, position, verifyTrailer⟩ : Reader FaultyStorage) =
      (none, ⟨f.afterCalls sizes ((task.readsOn f.data).take (polls - 1)), position,
        verifyTrailer⟩) := by
  obtain ⟨future, sizes, hpending⟩ := ScanTask.pollTimes_of_le h hpolls
  exact ⟨sizes, by simp only [pollTask, hpending]⟩

private theorem pollPlain_of_lt {delay : Nat} (h : f.plan = {}) (hpolls : delay < polls)
    (position : Nat) (verifyTrailer : Bool) (call : ReaderCall) :
    ∃ sizes, pollPlain delay polls call
        (⟨f, position, verifyTrailer⟩ : Reader FaultyStorage) =
      (some ((overBytes f.data position verifyTrailer).perform call).1,
        ⟨f.afterCalls sizes (call.readsOn f.data position verifyTrailer),
          ((overBytes f.data position verifyTrailer).perform call).2.position, verifyTrailer⟩) := by
  obtain ⟨sizes, hperform⟩ := perform_faultFree h position verifyTrailer call
  refine ⟨sizes, ?_⟩
  unfold pollPlain
  rw [if_neg (Nat.not_le.mpr hpolls), hperform]

private theorem pollPlain_of_le {delay : Nat} (hpolls : polls ≤ delay) (hdelay : delay ≤ 1)
    (position : Nat) (verifyTrailer : Bool) (call : ReaderCall) (reads : List (Nat × Nat)) :
    pollPlain delay polls call (⟨f, position, verifyTrailer⟩ : Reader FaultyStorage) =
      (none, ⟨f.afterCalls 0 (reads.take (polls - 1)), position, verifyTrailer⟩) := by
  have hnone : polls - 1 = 0 := by omega
  unfold pollPlain
  rw [if_pos hpolls, hnone, List.take_zero, afterCalls_zero_nil]

/-- A call polled more often than it reads is carried out. -/
theorem pollCall_of_lt (h : f.plan = {})
    (hpolls : (call.readsOn f.data position verifyTrailer).length < polls) :
    ∃ sizes, pollCall .suspending polls call
        (⟨f, position, verifyTrailer⟩ : Reader FaultyStorage) =
      (some ((overBytes f.data position verifyTrailer).perform call).1,
        ⟨f.afterCalls sizes (call.readsOn f.data position verifyTrailer),
          ((overBytes f.data position verifyTrailer).perform call).2.position, verifyTrailer⟩) := by
  cases call with
  | forward targetLength =>
    have hmemory := nextForward_memory f.data position targetLength verifyTrailer
    refine ⟨1, ?_⟩
    simp only [pollCall, pollForward, forwardTask, perform, overBytes]
    rw [pollTask_of_lt h hpolls position verifyTrailer, hmemory]
    rfl
  | backward =>
    have hmemory := nextBackward_memory f.data position verifyTrailer
    refine ⟨1, ?_⟩
    simp only [pollCall, pollBackward, backwardTask, perform, overBytes]
    rw [pollTask_of_lt h hpolls position verifyTrailer, hmemory]
    rfl
  | seek target => exact pollPlain_of_lt h hpolls position verifyTrailer (.seek target)
  | seekEnd => exact pollPlain_of_lt h hpolls position verifyTrailer .seekEnd
  | payload record => exact pollPlain_of_lt h hpolls position verifyTrailer (.payload record)

/-- A call polled at most as often as it reads is dropped, keeps the position, and has made one read
with every poll but the first. -/
theorem pollCall_of_le (h : f.plan = {})
    (hpolls : polls ≤ (call.readsOn f.data position verifyTrailer).length) :
    ∃ sizes, pollCall .suspending polls call
        (⟨f, position, verifyTrailer⟩ : Reader FaultyStorage) =
      (none, ⟨f.afterCalls sizes
        ((call.readsOn f.data position verifyTrailer).take (polls - 1)), position,
          verifyTrailer⟩) := by
  cases call with
  | forward targetLength =>
    obtain ⟨sizes, hdropped⟩ := pollTask_of_le h hpolls position verifyTrailer
    refine ⟨sizes, ?_⟩
    simp only [pollCall, pollForward, forwardTask, hdropped]
    rfl
  | backward =>
    obtain ⟨sizes, hdropped⟩ := pollTask_of_le h hpolls position verifyTrailer
    refine ⟨sizes, ?_⟩
    simp only [pollCall, pollBackward, backwardTask, hdropped]
    rfl
  | seek target =>
    have hnever : polls ≤ 0 := hpolls
    exact ⟨0, pollPlain_of_le (f := f) hnever (Nat.zero_le 1) position verifyTrailer
      (.seek target) []⟩
  | seekEnd =>
    have hnever : polls ≤ 0 := hpolls
    exact ⟨0, pollPlain_of_le (f := f) hnever (Nat.zero_le 1) position verifyTrailer .seekEnd []⟩
  | payload record =>
    have honce : polls ≤ ReadPace.delay .suspending := hpolls
    exact ⟨0, pollPlain_of_le (f := f) honce (Nat.le_refl 1) position verifyTrailer
      (.payload record) [(record.payloadOffset, record.dataLength)]⟩

private theorem readsSince_afterCalls (f : FaultyStorage) (sizes position next : Nat)
    (reads : List (Nat × Nat)) (verifyTrailer : Bool) :
    (⟨f.afterCalls sizes reads, next, verifyTrailer⟩ : Reader FaultyStorage).readsSince
      ⟨f, position, verifyTrailer⟩ = reads := by
  unfold readsSince
  rw [reads_afterCalls, List.drop_left]

private theorem completed_pollHistory (calls : List PolledCall) {f g : FaultyStorage}
    (hf : f.plan = {})
    (hg : g.plan = {}) (hdata : g.data = f.data) (position : Nat) (verifyTrailer : Bool) :
    let completed := (pollHistory calls ⟨f, position, verifyTrailer⟩).filterMap
      PolledEvent.completed?
    completed = loggedHistory (completed.map fun event => event.call)
      ⟨g, position, verifyTrailer⟩ := by
  dsimp only
  induction calls generalizing f g position with
  | nil => rfl
  | cons polled rest ih =>
    rw [pollHistory]
    by_cases hready : (polled.call.readsOn f.data position verifyTrailer).length < polled.polls
    · obtain ⟨sizes, hpolled⟩ := pollCall_of_lt hf hready
      obtain ⟨others, hperform⟩ := perform_faultFree hg position verifyTrailer polled.call
      rw [hpolled]
      simp only [List.filterMap_cons, PolledEvent.completed?, Option.map_some, List.map_cons]
      rw [loggedHistory, hperform, hdata]
      simp only [readsSince_afterCalls]
      congr 1
      exact ih (f := f.afterCalls sizes _) (g := g.afterCalls others _) hf hg hdata _
    · obtain ⟨sizes, hpolled⟩ := pollCall_of_le hf (Nat.not_lt.mp hready)
      rw [hpolled]
      simp only [List.filterMap_cons, PolledEvent.completed?, Option.map_none]
      exact ih (f := f.afterCalls sizes _) hf hg hdata position

/-- A reader over a fresh storage without faults. -/
def overFaultFree (journal : Bytes) (position : Nat) (verifyTrailer : Bool) :
    Reader FaultyStorage :=
  ⟨{ data := journal, plan := {} }, position, verifyTrailer⟩

private theorem reads_perform_overFaultFree (journal : Bytes) (position : Nat)
    (verifyTrailer : Bool) (call : ReaderCall) :
    ((overFaultFree journal position verifyTrailer).perform call).2.storage.reads =
      call.readsOn journal position verifyTrailer := by
  obtain ⟨sizes, hperform⟩ :=
    perform_faultFree (f := { data := journal, plan := {} }) rfl position verifyTrailer call
  unfold overFaultFree
  rw [hperform, reads_afterCalls]
  rfl

/-- Every polled call is ready iff it was polled more often than it reads; if not, it keeps the
position and has made one read with every poll but the first. -/
theorem spec_of_mem_pollHistory {calls : List PolledCall} {f : FaultyStorage} (hf : f.plan = {})
    {event : PolledEvent}
    (hevent : event ∈ pollHistory calls ⟨f, position, verifyTrailer⟩) :
    (event.answer? = none → event.after = event.before) ∧
      (event.answer?.isSome ↔
        (event.call.readsOn f.data event.before verifyTrailer).length + 1 ≤ event.polls) ∧
      event.reads =
        (event.call.readsOn f.data event.before verifyTrailer).take (event.polls - 1) := by
  induction calls generalizing f position with
  | nil => cases hevent
  | cons polled rest ih =>
    rw [pollHistory] at hevent
    by_cases hready : (polled.call.readsOn f.data position verifyTrailer).length < polled.polls
    · obtain ⟨sizes, hpolled⟩ := pollCall_of_lt hf hready
      rw [hpolled] at hevent
      simp only [readsSince_afterCalls, List.mem_cons] at hevent
      obtain rfl | hevent := hevent
      · refine ⟨nofun, iff_of_true rfl hready, ?_⟩
        exact (List.take_of_length_le (Nat.le_sub_one_of_lt hready)).symm
      · exact ih (f := f.afterCalls sizes _) hf hevent
    · obtain ⟨sizes, hpolled⟩ := pollCall_of_le hf (Nat.not_lt.mp hready)
      rw [hpolled] at hevent
      simp only [readsSince_afterCalls, List.mem_cons] at hevent
      obtain rfl | hevent := hevent
      · exact ⟨fun _ => rfl, iff_of_false nofun hready, rfl⟩
      · exact ih (f := f.afterCalls sizes _) hf hevent

end Reader

/-- Over a storage without faults whose reads suspend, the polled calls that are ready answer, read
and move as those of a reader that was never asked the dropped ones. A dropped call keeps the
position. A call that makes `r` reads is ready iff it was polled more than `r` times, and a dropped
one has made a prefix of its reads, one with every poll but the first. -/
theorem polled_reader_is_reader (journal : Bytes) (position : Nat) (verifyTrailer : Bool)
    (calls : List PolledCall) :
    let reader (position : Nat) := Reader.overFaultFree journal position verifyTrailer
    let events := (reader position).pollHistory calls
    let completed := events.filterMap PolledEvent.completed?
    completed = (reader position).loggedHistory (completed.map fun event => event.call) ∧
      ∀ event ∈ events,
        let reads := ((reader event.before).perform event.call).2.storage.reads
        (event.answer? = none → event.after = event.before) ∧
          (event.answer?.isSome ↔ reads.length + 1 ≤ event.polls) ∧
          event.reads = reads.take (event.polls - 1) := by
  intro reader events completed
  constructor
  · exact Reader.completed_pollHistory calls rfl rfl rfl position verifyTrailer
  · intro event hevent
    dsimp only [reader]
    rw [Reader.reads_perform_overFaultFree]
    exact Reader.spec_of_mem_pollHistory rfl hevent

/-- A scan of a write that is dropped after two of its three reads, and one that is not. -/
theorem polled_reader_is_reader_of_dropped :
    let record : Record := ⟨8, ⟨0, 0, by decide, by decide⟩, .write 3 2⟩
    let reader := Reader.overFaultFree (Layout.magic ++ record.image [1, 2]) 8 true
    let events := reader.pollHistory [⟨.forward 9, 3⟩, ⟨.forward 9, 4⟩]
    let dropped : PolledEvent := ⟨⟨.forward 9, 3⟩, none, 8, 8, [(8, 27), (21, 2)]⟩
    let reads := (reader.perform (.forward 9)).2.storage.reads
    dropped ∈ events ∧ reads = [(8, 27), (21, 2), (23, 14)] ∧
      (dropped.answer? = none → dropped.after = dropped.before) ∧
      (dropped.answer?.isSome ↔ reads.length + 1 ≤ dropped.polls) ∧
      dropped.reads = reads.take (dropped.polls - 1) := by
  intro record reader events dropped reads
  have hreads : reads = [(8, 27), (21, 2), (23, 14)] := by decide +kernel
  have hasked : (ReaderCall.forward 9).readsOn (Layout.magic ++ record.image [1, 2]) 8 true =
      [(8, 27), (21, 2), (23, 14)] := by
    rw [← Reader.reads_perform_overFaultFree]
    exact hreads
  have hfew : 3 ≤ ((ReaderCall.forward 9).readsOn reader.storage.data 8 true).length := by
    show 3 ≤ ((ReaderCall.forward 9).readsOn (Layout.magic ++ record.image [1, 2]) 8 true).length
    rw [hasked]
    decide
  have hmem : dropped ∈ events := by
    obtain ⟨sizes, hpolled⟩ := Reader.pollCall_of_le (f := reader.storage) rfl hfew
    show dropped ∈ Reader.pollHistory [⟨.forward 9, 3⟩, ⟨.forward 9, 4⟩] ⟨reader.storage, 8, true⟩
    rw [Reader.pollHistory]
    dsimp only
    rw [hpolled]
    simp only [Reader.readsSince_afterCalls]
    show dropped ∈ ⟨_, _, _, _, (ReaderCall.readsOn (Layout.magic ++ record.image [1, 2]) 8 true
      (.forward 9)).take 2⟩ :: _
    rw [hasked]
    exact List.mem_cons_self
  have hagrees := polled_reader_is_reader (Layout.magic ++ record.image [1, 2]) 8 true
    [⟨.forward 9, 3⟩, ⟨.forward 9, 4⟩]
  exact ⟨hmem, hreads, hagrees.2 dropped hmem⟩

end UndoLog
