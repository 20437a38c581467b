import UndoLog.Proofs.Scan.Polled
import UndoLog.Proofs.Storage.Traced

/-!
# Scans over storage that fails

A scan over a storage that fails on schedule makes the calls that it makes over the bytes, up to the
first with a fault. Without a fault it comes to what it comes to over the bytes, and else it fails
with the fault, whatever it has seen before.
-/

namespace UndoLog

open TracedStorage

namespace Scan

variable {s : Scan} {t : TracedStorage}

/-- The calls of the storage that a fault-free run over `journal` makes. -/
def callsOn (s : Scan) (journal : Bytes) : List StorageCall :=
  (s.readsOn journal).map fun (offset, length) => .read offset length

private theorem exists_callsOn_eq (s : Scan) (journal : Bytes) :
    ∃ rest, s.callsOn journal = .read s.request.offset s.request.length :: rest := by
  unfold callsOn
  rcases h : (s.readOnce (⟨journal⟩ : MemoryStorage)).1 with result | next
  · rw [(readsOn_of_over h).1]
    exact ⟨_, rfl⟩
  · rw [(readsOn_of_waiting h).1]
    exact ⟨_, rfl⟩

private theorem readOnce_traced (s : Scan) (t : TracedStorage) :
    s.readOnce t =
      (if t.storage.isDue (.read s.request.offset s.request.length) then
          .over (.error (.storage t.storage.plan.error))
        else (s.readOnce (⟨t.storage.data⟩ : MemoryStorage)).1,
        t.after (.read s.request.offset s.request.length)) := by
  have hmemory : Storage.readAt (⟨t.storage.data⟩ : MemoryStorage) s.request.offset
      s.request.length = (t.storage.data.read s.request.offset s.request.length,
        ⟨t.storage.data⟩) := rfl
  unfold readOnce
  rw [readAt_eq, hmemory]
  by_cases hdue : t.storage.isDue (.read s.request.offset s.request.length)
  · simp only [hdue, if_true]
  · simp only [hdue]
    cases t.storage.data.read s.request.offset s.request.length <;> rfl

/-- A run attempts its calls, and without a fault has the result over the bytes. -/
theorem run_traced (s : Scan) (t : TracedStorage) :
    s.run t =
      let attempted := attempt (s.callsOn t.storage.data) t
      (if attempted.1 then s.resultOn t.storage.data
        else .error (.storage t.storage.plan.error), attempted.2) := by
  fun_induction Scan.run s t with
  | case1 s t result after hr =>
    rw [readOnce_traced] at hr
    obtain ⟨hover, rfl⟩ := Prod.mk.inj hr
    split at hover
    · next hdue =>
      cases hover
      obtain ⟨rest, hcalls⟩ := s.exists_callsOn_eq t.storage.data
      simp only [hcalls, attempt, hdue, if_true]
      rfl
    · next hdue =>
      obtain ⟨hreads, hresult⟩ := readsOn_of_over hover
      simp only [callsOn, hreads, hresult, List.map_cons, List.map_nil, attempt, hdue]
      rfl
  | case2 s t next after hr _ ih =>
    rw [readOnce_traced] at hr
    obtain ⟨hwaiting, rfl⟩ := Prod.mk.inj hr
    split at hwaiting
    · cases hwaiting
    · next hdue =>
      obtain ⟨hreads, hresult⟩ := readsOn_of_waiting hwaiting
      have hcalls : s.callsOn t.storage.data =
          .read s.request.offset s.request.length :: next.callsOn t.storage.data := by
        rw [callsOn, hreads]
        rfl
      have hdata : (t.after (.read s.request.offset s.request.length)).storage.data =
          t.storage.data := FaultyStorage.data_after (StorageCall.isQuery_read _ _) t.storage
      have hplan : (t.after (.read s.request.offset s.request.length)).storage.plan =
          t.storage.plan := t.storage.plan_after _
      rw [ih, hdata, hplan, hcalls, hresult]
      simp only [attempt, hdue]
      rfl

end Scan

namespace ScanTask

variable {task : ScanTask} {t : TracedStorage}

/-- The calls of the storage that a fault-free task over `journal` makes. -/
def callsOn (task : ScanTask) (journal : Bytes) : List StorageCall :=
  .size :: (task.readsOn journal).map fun (offset, length) => .read offset length

/-- The calls of a task are queries. -/
theorem isQuery_of_mem_callsOn {journal : Bytes} {call : StorageCall}
    (h : call ∈ task.callsOn journal) : call.IsQuery := by
  rcases List.mem_cons.mp h with rfl | h
  · trivial
  · obtain ⟨range, -, rfl⟩ := List.mem_map.mp h
    trivial

private theorem begin_traced (h : t.storage.plan.claimedSize? = none) :
    task.begin t =
      (if t.storage.isDue .size then .over (.error (.storage t.storage.plan.error))
        else (task.begin (⟨t.storage.data⟩ : MemoryStorage)).1, t.after .size) := by
  unfold begin
  rw [size_eq h]
  by_cases hdue : t.storage.isDue .size
  · simp only [hdue, if_true]
  · simp only [hdue]
    rfl

/-- A task attempts its calls, and without a fault has the result over the bytes. -/
theorem run_traced (task : ScanTask) (h : t.storage.plan.claimedSize? = none) :
    task.run t =
      let attempted := attempt (task.callsOn t.storage.data) t
      (if attempted.1 then task.resultOn t.storage.data
        else .error (.storage t.storage.plan.error), attempted.2) := by
  have hdata : (t.after .size).storage.data = t.storage.data :=
    FaultyStorage.data_after StorageCall.isQuery_size t.storage
  have hplan : (t.after .size).storage.plan = t.storage.plan := t.storage.plan_after .size
  rw [resultOn_eq_of_begin]
  unfold run callsOn readsOn
  rw [begin_traced h]
  by_cases hdue : t.storage.isDue .size
  · simp only [hdue, if_true, attempt]
    rfl
  · simp only [hdue, Bool.false_eq_true, if_false, attempt]
    rcases (task.begin (⟨t.storage.data⟩ : MemoryStorage)).1 with result | scan
    · rfl
    · dsimp only
      rw [Scan.run_traced, hdata, hplan]
      rfl

end ScanTask
end UndoLog
