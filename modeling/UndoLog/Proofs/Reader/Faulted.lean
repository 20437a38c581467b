import UndoLog.Proofs.Reader.Polled
import UndoLog.Proofs.Reader.View
import UndoLog.Proofs.Scan.Faulted

/-!
# Readers over storage that fails

A call of a reader makes calls of its storage, one after another. Over a storage that fails on
schedule it makes the same as over the bytes in memory, up to the first with a fault. Without a
fault it answers and moves as over memory; with one it answers that fault and leaves the position,
so the same call can be made again.

UndoJournal specification: section 6.
-/

namespace UndoLog

open TracedStorage

namespace ReaderCall

/-- The calls of the storage that a fault-free call makes over `journal`. -/
def callsOn (journal : Bytes) (position : Nat) (verifyTrailer : Bool) :
    ReaderCall → List StorageCall
  | .forward targetLength =>
    (ScanTask.forward position targetLength verifyTrailer).callsOn journal
  | .backward => (ScanTask.backward position).callsOn journal
  | .seek _ => [.size]
  | .seekEnd => [.size, .size]
  | .payload record => [.read record.payloadOffset record.dataLength]

private theorem isQuery_of_mem_callsOn {journal : Bytes} {position : Nat} {verifyTrailer : Bool}
    {call : ReaderCall} {made : StorageCall}
    (h : made ∈ call.callsOn journal position verifyTrailer) : made.IsQuery := by
  cases call with
  | forward targetLength => exact ScanTask.isQuery_of_mem_callsOn h
  | backward => exact ScanTask.isQuery_of_mem_callsOn h
  | seek target =>
    rw [List.mem_singleton.mp h]
    trivial
  | seekEnd =>
    rcases List.mem_pair.mp h with rfl | rfl <;> trivial
  | payload record =>
    rw [List.mem_singleton.mp h]
    trivial

/-- The failed answer to a call. -/
def failed (error : JournalError) : ReaderCall → ReaderAnswer
  | .forward _ | .backward => .next (.error error)
  | .seek _ => .seek (.error error)
  | .seekEnd => .seekEnd (.error error)
  | .payload _ => .payload (.error error)

end ReaderCall

/-- A call that was carried out, with the position before it and the calls that it made of the
storage. -/
structure TracedEvent extends ReaderEvent where
  before : Nat
  made : List TracedCall

/-- A call of the storage failed on schedule. -/
def TracedEvent.HasFault (event : TracedEvent) : Prop := ∃ last ∈ event.made, last.faulted = true

namespace Reader

variable {t : TracedStorage}

/-- The outcome of a call that attempts `calls`: without a fault that of the clean call, with one a
failure that leaves the position. -/
def afterAttempt {α : Type} (calls : List StorageCall) (failed : α)
    (clean : α × Reader MemoryStorage) (r : Reader TracedStorage) : α × Reader TracedStorage :=
  let (faultFree, storage) := attempt calls r.storage
  if faultFree then (clean.1, { r with storage, position := clean.2.position })
  else (failed, { r with storage })

private theorem map_afterAttempt {α β : Type} (f : α → β) (calls : List StorageCall) (failed : α)
    (clean : α × Reader MemoryStorage) (r : Reader TracedStorage) :
    Prod.map f id (r.afterAttempt calls failed clean) =
      r.afterAttempt calls (f failed) (Prod.map f id clean) := by
  unfold afterAttempt
  dsimp only
  split <;> rfl

private theorem commit_run_traced (h : t.storage.plan.claimedSize? = none) (task : ScanTask)
    (position : Nat) (verifyTrailer : Bool) :
    (⟨t, position, verifyTrailer⟩ : Reader TracedStorage).commit (task.run t) =
      afterAttempt (task.callsOn t.storage.data) (.error (.storage t.storage.plan.error))
        ((overBytes t.storage.data position verifyTrailer).commit
          (task.run (⟨t.storage.data⟩ : MemoryStorage)))
        ⟨t, position, verifyTrailer⟩ := by
  rw [ScanTask.run_traced task h, ScanTask.run_memory]
  unfold afterAttempt
  dsimp only
  split
  · exact commit_eq_overBytes t _ t.storage.data position verifyTrailer _
  · rfl

private theorem seek_traced (h : t.storage.plan.claimedSize? = none) (target position : Nat)
    (verifyTrailer : Bool) :
    (⟨t, position, verifyTrailer⟩ : Reader TracedStorage).seek target =
      afterAttempt [.size] (.error (.storage t.storage.plan.error))
        ((overBytes t.storage.data position verifyTrailer).seek target)
        ⟨t, position, verifyTrailer⟩ := by
  have hmemory : Storage.size (overBytes t.storage.data position verifyTrailer).storage =
      (.ok t.storage.data.length, ⟨t.storage.data⟩) := rfl
  unfold seek afterAttempt attempt
  rw [size_eq h, hmemory]
  by_cases hdue : t.storage.isDue .size
  · simp only [hdue, if_true, Bool.false_eq_true, if_false]
  · simp only [hdue, attempt, if_true, Bool.false_eq_true, if_false]
    cases checkCursor target t.storage.data.length <;> rfl

/-- A seek to the end attempts its two size calls, and without a fault moves the reader as over the
bytes. -/
private theorem seekEnd_traced (h : t.storage.plan.claimedSize? = none) (position : Nat)
    (verifyTrailer : Bool) :
    (⟨t, position, verifyTrailer⟩ : Reader TracedStorage).seekEnd =
      afterAttempt [.size, .size] (.error (.storage t.storage.plan.error))
        (overBytes t.storage.data position verifyTrailer).seekEnd
        ⟨t, position, verifyTrailer⟩ := by
  have hmemory : Storage.size (⟨t.storage.data⟩ : MemoryStorage) =
      (.ok t.storage.data.length, ⟨t.storage.data⟩) := rfl
  have hplan : (t.after .size).storage.plan = t.storage.plan := t.storage.plan_after .size
  have hdata : (t.after .size).storage.data = t.storage.data :=
    FaultyStorage.data_after StorageCall.isQuery_size t.storage
  have hsize : Storage.size (t.after .size) =
      (if (t.after .size).storage.isDue .size then .error t.storage.plan.error
        else .ok t.storage.data.length, (t.after .size).after .size) := by
    rw [size_eq (by rw [hplan, h]), hplan, hdata]
  simp only [seekEnd, seek, overBytes, afterAttempt, attempt, size_eq h, hmemory]
  by_cases hdue : t.storage.isDue .size
  · simp only [hdue, if_true, Bool.false_eq_true, if_false]
  · simp only [hdue, Bool.false_eq_true, if_false, hsize]
    by_cases hsecond : (t.after .size).storage.isDue .size
    · simp only [hsecond, if_true, Bool.false_eq_true, if_false]
    · simp only [hsecond, if_true, Bool.false_eq_true, if_false]
      cases checkCursor t.storage.data.length t.storage.data.length <;> rfl

private theorem readPayload_traced (record : Record) (t : TracedStorage) (position : Nat)
    (verifyTrailer : Bool) :
    (⟨t, position, verifyTrailer⟩ : Reader TracedStorage).readPayload record =
      afterAttempt [.read record.payloadOffset record.dataLength]
        (.error (.storage t.storage.plan.error))
        ((overBytes t.storage.data position verifyTrailer).readPayload record)
        ⟨t, position, verifyTrailer⟩ := by
  have hmemory : Storage.readAt (overBytes t.storage.data position verifyTrailer).storage
      record.payloadOffset record.dataLength =
        (t.storage.data.read record.payloadOffset record.dataLength, ⟨t.storage.data⟩) := rfl
  unfold readPayload afterAttempt attempt
  rw [readAt_eq, hmemory]
  by_cases hdue : t.storage.isDue (.read record.payloadOffset record.dataLength)
  · simp only [hdue, if_true, Bool.false_eq_true, if_false]
  · simp only [hdue, attempt, if_true, Bool.false_eq_true, if_false]
    cases t.storage.data.read record.payloadOffset record.dataLength <;> rfl

/-- Every call attempts its calls of the storage, and without a fault answers and moves as over the
bytes. -/
theorem perform_traced {r : Reader TracedStorage}
    (h : r.storage.storage.plan.claimedSize? = none) (call : ReaderCall) :
    r.perform call =
      r.afterAttempt (call.callsOn r.storage.storage.data r.position r.verifyTrailer)
        (call.failed (.storage r.storage.storage.plan.error))
        ((overBytes r.storage.storage.data r.position r.verifyTrailer).perform call) := by
  obtain ⟨t, position, verifyTrailer⟩ := r
  cases call with
  | forward targetLength =>
    exact (congrArg (Prod.map ReaderAnswer.next id)
      (commit_run_traced h (.forward position targetLength verifyTrailer) position
        verifyTrailer)).trans (map_afterAttempt _ _ _ _ _)
  | backward =>
    exact (congrArg (Prod.map ReaderAnswer.next id)
      (commit_run_traced h (.backward position) position verifyTrailer)).trans
        (map_afterAttempt _ _ _ _ _)
  | seek target =>
    exact (congrArg (Prod.map ReaderAnswer.seek id)
      (seek_traced h target position verifyTrailer)).trans (map_afterAttempt _ _ _ _ _)
  | seekEnd =>
    exact (congrArg (Prod.map ReaderAnswer.seekEnd id)
      (seekEnd_traced h position verifyTrailer)).trans (map_afterAttempt _ _ _ _ _)
  | payload record =>
    exact (congrArg (Prod.map ReaderAnswer.payload id)
      (readPayload_traced record t position verifyTrailer)).trans (map_afterAttempt _ _ _ _ _)

/-- A reader over `journal` with faults by `plan`. -/
structure StandsOver (journal : Bytes) (plan : FaultPlan) (verifyTrailer : Bool)
    (r : Reader TracedStorage) : Prop where
  data_eq : r.storage.storage.data = journal
  plan_eq : r.storage.storage.plan = plan
  verifyTrailer_eq : r.verifyTrailer = verifyTrailer

/-- The calls of the storage made since `before`. -/
def callsSince (r before : Reader TracedStorage) : List TracedCall :=
  r.storage.trace.drop before.storage.trace.length

/-- The event of one call. -/
def tracedEvent (r : Reader TracedStorage) (call : ReaderCall) : TracedEvent :=
  let (answer, after) := r.perform call
  ⟨⟨call, answer, after.position⟩, r.position, after.callsSince r⟩

/-- The events of calls one after another. -/
def tracedHistory : (calls : List ReaderCall) → (r : Reader TracedStorage) → List TracedEvent
  | [], _ => []
  | call :: rest, r => r.tracedEvent call :: tracedHistory rest (r.perform call).2

/-- A reader over a fresh storage that fails on schedule. -/
def overSchedule (journal : Bytes) (plan : FaultPlan) (position : Nat) (verifyTrailer : Bool) :
    Reader TracedStorage :=
  ⟨⟨{ data := journal, plan }, []⟩, position, verifyTrailer⟩

end Reader

/-- Without a fault, answer, position and calls of the storage are those on an empty schedule. With
one, the answer is that fault, the position stays, the failed call is the last, and the calls are a
prefix of those on an empty schedule. -/
structure TracedEvent.IsTransparent (journal : Bytes) (verifyTrailer : Bool) (fault : StorageError)
    (event : TracedEvent) : Prop where
  of_not_hasFault : ¬ event.HasFault →
    let clean := (Reader.overBytes journal event.before verifyTrailer).perform event.call
    let reader := Reader.overSchedule journal {} event.before verifyTrailer
    event.answer = clean.1 ∧ event.position = clean.2.position ∧
      event.made = (reader.tracedEvent event.call).made
  of_hasFault : event.HasFault →
    let reader := Reader.overSchedule journal {} event.before verifyTrailer
    event.answer = event.call.failed (.storage fault) ∧ event.position = event.before ∧
      (∃ earlier last, event.made = earlier ++ [last] ∧ last.faulted = true ∧
        ∀ made ∈ earlier, made.faulted = false) ∧
      event.made.map (·.call) <+: (reader.tracedEvent event.call).made.map (·.call)

namespace Reader

variable {journal : Bytes} {plan : FaultPlan} {verifyTrailer : Bool} {r : Reader TracedStorage}

private theorem callsSince_of_trace {after : Reader TracedStorage} {calls : List TracedCall}
    (h : after.storage.trace = r.storage.trace ++ calls) : after.callsSince r = calls := by
  unfold callsSince
  rw [h, List.drop_left]

/-- A call keeps the bytes and the schedule. -/
theorem standsOver_perform (hr : r.StandsOver journal plan verifyTrailer)
    (hplan : plan.claimedSize? = none) (call : ReaderCall) :
    (r.perform call).2.StandsOver journal plan verifyTrailer := by
  obtain ⟨rfl, rfl, rfl⟩ := hr
  rw [perform_traced hplan call]
  unfold afterAttempt
  dsimp only
  split
  all_goals
    exact ⟨data_attempt (fun _ => ReaderCall.isQuery_of_mem_callsOn) r.storage,
      plan_attempt _ r.storage, rfl⟩

private theorem tracedEvent_of_true (hplan : r.storage.storage.plan.claimedSize? = none)
    (call : ReaderCall) :
    let calls := call.callsOn r.storage.storage.data r.position r.verifyTrailer
    let clean := (overBytes r.storage.storage.data r.position r.verifyTrailer).perform call
    (attempt calls r.storage).1 = true →
      r.tracedEvent call =
        ⟨⟨call, clean.1, clean.2.position⟩, r.position, calls.map (⟨·, false⟩)⟩ := by
  intro calls clean hfree
  have hperform : r.perform call =
      (clean.1, { r with storage := (attempt calls r.storage).2, position := clean.2.position }) :=
    (perform_traced hplan call).trans (if_pos hfree)
  unfold tracedEvent
  rw [hperform]
  dsimp only
  rw [callsSince_of_trace (trace_attempt_of_true hfree)]

private theorem tracedEvent_of_false (hplan : r.storage.storage.plan.claimedSize? = none)
    (call : ReaderCall) :
    let calls := call.callsOn r.storage.storage.data r.position r.verifyTrailer
    (attempt calls r.storage).1 = false →
      ∃ made last rest, calls = made ++ last :: rest ∧
        r.tracedEvent call =
          ⟨⟨call, call.failed (.storage r.storage.storage.plan.error), r.position⟩, r.position,
            made.map (⟨·, false⟩) ++ [⟨last, true⟩]⟩ := by
  intro calls hfailed
  have hperform : r.perform call =
      (call.failed (.storage r.storage.storage.plan.error),
        { r with storage := (attempt calls r.storage).2 }) :=
    (perform_traced hplan call).trans (if_neg (by rw [hfailed]; exact Bool.false_ne_true))
  obtain ⟨made, last, rest, hcalls, htrace⟩ := trace_attempt_of_false hfailed
  refine ⟨made, last, rest, hcalls, ?_⟩
  unfold tracedEvent
  rw [hperform]
  dsimp only
  rw [callsSince_of_trace htrace]

private theorem map_call_map (calls : List StorageCall) (faulted : Bool) :
    (calls.map (TracedCall.mk · faulted)).map TracedCall.call = calls := by
  rw [List.map_map]
  exact List.map_id calls

private theorem made_tracedEvent_overSchedule (journal : Bytes) (position : Nat)
    (verifyTrailer : Bool)
    (call : ReaderCall) :
    ((overSchedule journal {} position verifyTrailer).tracedEvent call).made =
      (call.callsOn journal position verifyTrailer).map (⟨·, false⟩) := by
  have hevent := tracedEvent_of_true (r := overSchedule journal {} position verifyTrailer) rfl call
    (attempt_of_empty rfl _)
  rw [hevent]
  rfl

/-- Every call is transparent to faults. -/
theorem isTransparent_tracedEvent (hr : r.StandsOver journal plan verifyTrailer)
    (hplan : plan.claimedSize? = none) (call : ReaderCall) :
    (r.tracedEvent call).IsTransparent journal verifyTrailer plan.error := by
  obtain ⟨rfl, rfl, rfl⟩ := hr
  cases hattempt : (attempt (call.callsOn r.storage.storage.data r.position r.verifyTrailer)
    r.storage).1 with
  | true =>
    rw [tracedEvent_of_true hplan call hattempt]
    constructor
    · exact fun _ => ⟨rfl, rfl, (made_tracedEvent_overSchedule _ _ _ call).symm⟩
    · rintro ⟨last, hlast, hfaulted⟩
      obtain ⟨made, -, rfl⟩ := List.mem_map.mp hlast
      cases hfaulted
  | false =>
    obtain ⟨made, last, rest, hcalls, hevent⟩ := tracedEvent_of_false hplan call hattempt
    rw [hevent]
    constructor
    · intro hnone
      exact absurd ⟨_, List.mem_append_right _ List.mem_cons_self, rfl⟩ hnone
    · intro _
      refine ⟨rfl, rfl, ⟨_, _, rfl, rfl, ?_⟩, ?_⟩
      · intro earlier hearlier
        obtain ⟨call, -, rfl⟩ := List.mem_map.mp hearlier
        rfl
      · dsimp only
        rw [made_tracedEvent_overSchedule, map_call_map, List.map_append, map_call_map, hcalls]
        exact ⟨rest, List.append_assoc made [last] rest⟩

/-- Every call of a history is transparent to faults. -/
theorem isTransparent_of_mem_tracedHistory (hplan : plan.claimedSize? = none)
    {calls : List ReaderCall} (hr : r.StandsOver journal plan verifyTrailer)
    {event : TracedEvent} (hevent : event ∈ r.tracedHistory calls) :
    event.IsTransparent journal verifyTrailer plan.error := by
  induction calls generalizing r with
  | nil => cases hevent
  | cons call rest ih =>
    obtain rfl | hevent := List.mem_cons.mp hevent
    · exact isTransparent_tracedEvent hr hplan call
    · exact ih (standsOver_perform hr hplan call) hevent

/-- The rest of a history is the history of the reader left by the first calls. -/
theorem exists_of_tracedHistory_eq_append (hplan : plan.claimedSize? = none)
    {calls : List ReaderCall} (hr : r.StandsOver journal plan verifyTrailer)
    {earlier later : List TracedEvent} (h : r.tracedHistory calls = earlier ++ later) :
    ∃ (last : Reader TracedStorage) (rest : List ReaderCall),
      last.StandsOver journal plan verifyTrailer ∧ last.tracedHistory rest = later := by
  induction earlier generalizing r calls with
  | nil => exact ⟨r, calls, hr, h⟩
  | cons event earlier ih =>
    cases calls with
    | nil => cases h
    | cons call rest => exact ih (standsOver_perform hr hplan call) (List.cons.inj h).2

private theorem before_of_tracedHistory (hplan : plan.claimedSize? = none) {calls : List ReaderCall}
    (hr : r.StandsOver journal plan verifyTrailer) {failures later : List TracedEvent}
    {again : TracedEvent} (h : r.tracedHistory calls = failures ++ again :: later)
    (hfailures : ∀ event ∈ failures, event.HasFault) : again.before = r.position := by
  induction failures generalizing r calls with
  | nil =>
    cases calls with
    | nil => cases h
    | cons call rest =>
      obtain ⟨rfl, -⟩ := List.cons.inj h
      rfl
  | cons event failures ih =>
    cases calls with
    | nil => cases h
    | cons call rest =>
      obtain ⟨rfl, hrest⟩ := List.cons.inj h
      obtain ⟨hfault, hothers⟩ := List.forall_mem_cons.mp hfailures
      have hstays := ((isTransparent_tracedEvent hr hplan call).of_hasFault hfault).2.1
      exact (ih (standsOver_perform hr hplan call) hrest hothers).trans hstays

private theorem isView_storage : IsView TracedStorage.storage where
  size_eq _ := rfl
  readAt_eq _ _ _ := rfl

private theorem map_toReaderEvent_tracedHistory (calls : List ReaderCall)
    (r : Reader TracedStorage) :
    (r.tracedHistory calls).map TracedEvent.toReaderEvent =
      (r.mapStorage TracedStorage.storage).history calls := by
  rw [history_mapStorage isView_storage]
  induction calls generalizing r with
  | nil => rfl
  | cons call rest ih =>
    rw [tracedHistory, List.map_cons, ih]
    rfl

end Reader

/-- Faults of a storage are transparent to a reader. Without its trace the reader is one over the
faulty storage. Every call is transparent: without a fault it answers and moves as over the bytes in
memory, with one it answers the fault, makes no further call, and stays. So a call repeated after
any number of failures, and now without a fault, answers and moves as over the bytes in memory from
where it first began. -/
theorem faults_are_transparent (journal : Bytes) (plan : FaultPlan)
    (hplan : plan.claimedSize? = none) (position : Nat) (verifyTrailer : Bool)
    (calls : List ReaderCall) :
    let events := (Reader.overSchedule journal plan position verifyTrailer).tracedHistory calls
    events.map TracedEvent.toReaderEvent =
        Reader.history calls ⟨{ data := journal, plan : FaultyStorage }, position, verifyTrailer⟩ ∧
      (∀ event ∈ events, event.IsTransparent journal verifyTrailer plan.error) ∧
      ∀ earlier event failures again later,
        events = earlier ++ event :: failures ++ again :: later →
        (∀ failed ∈ event :: failures, failed.HasFault) → ¬ again.HasFault →
        again.call = event.call →
        let clean := (Reader.overBytes journal event.before verifyTrailer).perform event.call
        again.answer = clean.1 ∧ again.position = clean.2.position := by
  intro events
  have hover : (Reader.overSchedule journal plan position verifyTrailer).StandsOver journal plan
      verifyTrailer := ⟨rfl, rfl, rfl⟩
  refine ⟨Reader.map_toReaderEvent_tracedHistory calls _, ?_, ?_⟩
  · exact fun event => Reader.isTransparent_of_mem_tracedHistory hplan hover
  · intro earlier event failures again later hevents hfailures hagain hcall clean
    have hmem : again ∈ events := by rw [hevents]; simp
    have htransparent := Reader.isTransparent_of_mem_tracedHistory hplan hover hmem
    have hclean := htransparent.of_not_hasFault hagain
    rw [List.append_assoc] at hevents
    obtain ⟨last, rest, hlast, htail⟩ :=
      Reader.exists_of_tracedHistory_eq_append hplan hover hevents
    have hfirst : event.before = last.position :=
      Reader.before_of_tracedHistory hplan hlast
        (show _ = [] ++ event :: (failures ++ again :: later) from htail) (List.forall_mem_nil _)
    have hbefore : again.before = last.position :=
      Reader.before_of_tracedHistory hplan hlast htail hfailures
    rw [hbefore, ← hfirst, hcall] at hclean
    exact ⟨hclean.1, hclean.2.1⟩

deriving instance DecidableEq for ReaderAnswer, ReaderEvent, TracedEvent

/-- A scan of a write whose read of the payload fails, and the same scan again. -/
theorem faults_are_transparent_of_retry :
    let record : Record := ⟨8, ⟨0, 0, by decide, by decide⟩, .write 3 2⟩
    let journal := Layout.magic ++ record.image [1, 2]
    let plan : FaultPlan := { reads := [1], error := .io .injected }
    let events :=
      (Reader.overSchedule journal plan 8 true).tracedHistory [.forward 9, .forward 9]
    let failed : TracedEvent :=
      ⟨⟨.forward 9, .next (.error (.storage (.io .injected))), 8⟩, 8,
        [⟨.size, false⟩, ⟨.read 8 27, false⟩, ⟨.read 21 2, true⟩]⟩
    let again : TracedEvent :=
      ⟨⟨.forward 9, .next (.ok (some record)), 37⟩, 8,
        [⟨.size, false⟩, ⟨.read 8 27, false⟩, ⟨.read 21 2, false⟩, ⟨.read 23 14, false⟩]⟩
    let clean := (Reader.overBytes journal failed.before true).perform failed.call
    plan.claimedSize? = none ∧ events = [] ++ failed :: [] ++ again :: [] ∧
      (∀ event ∈ [failed], event.HasFault) ∧ ¬ again.HasFault ∧ again.call = failed.call ∧
      failed.IsTransparent journal true plan.error ∧
      again.answer = clean.1 ∧ again.position = clean.2.position := by
  intro record journal plan events failed again clean
  have hevents : events = [] ++ failed :: [] ++ again :: [] := by decide +kernel
  have hfailed : ∀ event ∈ [failed], event.HasFault :=
    List.forall_mem_singleton.mpr ⟨⟨.read 21 2, true⟩, by decide, rfl⟩
  have hagain : ¬ again.HasFault := by
    rintro ⟨last, hlast, hfaulted⟩
    have hnone : ∀ made ∈ again.made, made.faulted = false := by decide
    rw [hnone last hlast] at hfaulted
    cases hfaulted
  obtain ⟨-, htransparent, hretry⟩ :=
    faults_are_transparent journal plan rfl 8 true [.forward 9, .forward 9]
  have hmem : failed ∈ events := by
    rw [hevents]
    exact List.mem_cons_self
  exact ⟨rfl, hevents, hfailed, hagain, rfl, htransparent failed hmem,
    hretry [] failed [] again [] hevents hfailed hagain rfl⟩

end UndoLog
