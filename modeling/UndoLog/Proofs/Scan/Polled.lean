import UndoLog.Proofs.Scan.Memory
import UndoLog.Proofs.Storage.Faulty
import UndoLog.Scan.Future

/-!
# Scans that are polled

A scan over a storage without faults comes to what it comes to over the bytes, and makes the same
reads. Polled over a storage that suspends, it makes one read with every poll but the first, in the
same order, and is ready with the last.
-/

namespace UndoLog

open FaultyStorage

namespace Scan

variable {s : Scan} {journal : Bytes} {f : FaultyStorage}

/-- The ranges that a run over `journal` reads. -/
def readsOn (s : Scan) (journal : Bytes) : List (Nat × Nat) :=
  match h : s.readOnce (⟨journal⟩ : MemoryStorage) with
  | (.over _, _) => [(s.request.offset, s.request.length)]
  | (.waiting next, _) =>
    have := rank_lt_of_readOnce h
    (s.request.offset, s.request.length) :: next.readsOn journal
termination_by s.rank

/-- A run that is over after a read makes that read only. -/
theorem readsOn_of_over {result : ScanResult}
    (h : (s.readOnce (⟨journal⟩ : MemoryStorage)).1 = .over result) :
    s.readsOn journal = [(s.request.offset, s.request.length)] ∧ s.resultOn journal = result := by
  constructor
  · rw [readsOn]
    split
    · rfl
    · next hr => rw [hr] at h; cases h
  · unfold resultOn
    rw [run]
    split
    · next hr =>
      rw [hr] at h
      exact ScanProgress.over.inj h
    · next hr => rw [hr] at h; cases h

/-- A run that waits after a read makes the reads of the waiting scan after it. -/
theorem readsOn_of_waiting {next : Scan}
    (h : (s.readOnce (⟨journal⟩ : MemoryStorage)).1 = .waiting next) :
    s.readsOn journal = (s.request.offset, s.request.length) :: next.readsOn journal ∧
      s.resultOn journal = next.resultOn journal := by
  constructor
  · rw [readsOn]
    split
    · next hr => rw [hr] at h; cases h
    · next hr =>
      rw [hr] at h
      cases h
      rfl
  · unfold resultOn
    rw [run]
    split
    · next hr => rw [hr] at h; cases h
    · next hr =>
      obtain rfl := eq_of_readOnce_memory hr
      rw [hr] at h
      cases h
      rfl

private theorem length_readsOn_pos (s : Scan) (journal : Bytes) :
    0 < (s.readsOn journal).length := by
  rcases h : (s.readOnce (⟨journal⟩ : MemoryStorage)).1 with result | next
  · rw [(readsOn_of_over h).1]
    exact Nat.zero_lt_one
  · rw [(readsOn_of_waiting h).1]
    exact Nat.succ_pos _

private theorem readOnce_faultFree (h : f.plan = {}) :
    s.readOnce f = ((s.readOnce (⟨f.data⟩ : MemoryStorage)).1,
      f.afterCalls 0 [(s.request.offset, s.request.length)]) := by
  have hmemory : Storage.readAt (⟨f.data⟩ : MemoryStorage) s.request.offset s.request.length =
      (f.data.read s.request.offset s.request.length, ⟨f.data⟩) := rfl
  unfold readOnce
  rw [readAt_eq h, hmemory]
  cases f.data.read s.request.offset s.request.length <;> rfl

/-- Without faults a run has the result over the bytes and the reads of `readsOn`. -/
theorem run_faultFree (s : Scan) (f : FaultyStorage) (h : f.plan = {}) :
    s.run f = (s.resultOn f.data, f.afterCalls 0 (s.readsOn f.data)) := by
  fun_induction Scan.run s f with
  | case1 s f result after hr =>
    rw [readOnce_faultFree h] at hr
    obtain ⟨hover, rfl⟩ := Prod.mk.inj hr
    obtain ⟨hreads, hresult⟩ := readsOn_of_over hover
    rw [hreads, hresult]
  | case2 s f next after hr _ ih =>
    rw [readOnce_faultFree h] at hr
    obtain ⟨hwaiting, rfl⟩ := Prod.mk.inj hr
    obtain ⟨hreads, hresult⟩ := readsOn_of_waiting hwaiting
    rw [ih h, hreads, hresult, afterCalls_afterCalls]
    rfl

end Scan

namespace ScanFuture

variable {s : Scan} {f : FaultyStorage} {polls : Nat}

private theorem poll_reading (h : f.plan = {}) :
    (reading s).poll .suspending f =
      ((match (s.readOnce (⟨f.data⟩ : MemoryStorage)).1 with
        | .over result => .ready result
        | .waiting next => .pending (.reading next)),
      f.afterCalls 0 [(s.request.offset, s.request.length)]) := by
  simp only [poll, Scan.readOnce_faultFree h]
  cases (s.readOnce (⟨f.data⟩ : MemoryStorage)).1 <;> rfl

private theorem pollTimes_reading_of_le (h : f.plan = {})
    (hpolls : (s.readsOn f.data).length ≤ polls) :
    pollTimes .suspending polls (.reading s) f =
      (.ready (s.resultOn f.data), f.afterCalls 0 (s.readsOn f.data)) := by
  induction polls generalizing s f with
  | zero => exact absurd (s.length_readsOn_pos f.data) (Nat.not_lt.mpr hpolls)
  | succ polls ih =>
    rw [pollTimes, poll_reading h]
    rcases hr : (s.readOnce (⟨f.data⟩ : MemoryStorage)).1 with result | next
    · obtain ⟨hreads, hresult⟩ := Scan.readsOn_of_over hr
      rw [hreads, hresult]
    · obtain ⟨hreads, hresult⟩ := Scan.readsOn_of_waiting hr
      rw [hreads, List.length_cons] at hpolls
      dsimp only
      rw [ih (by exact h) (by exact Nat.le_of_succ_le_succ hpolls), hreads, hresult,
        afterCalls_afterCalls]
      rfl

private theorem pollTimes_reading_of_lt (h : f.plan = {})
    (hpolls : polls < (s.readsOn f.data).length) :
    ∃ future, pollTimes .suspending polls (.reading s) f =
      (.pending future, f.afterCalls 0 ((s.readsOn f.data).take polls)) := by
  induction polls generalizing s f with
  | zero => exact ⟨.reading s, by rw [List.take_zero, afterCalls_zero_nil]; rfl⟩
  | succ polls ih =>
    rw [pollTimes, poll_reading h]
    rcases hr : (s.readOnce (⟨f.data⟩ : MemoryStorage)).1 with result | next
    · rw [(Scan.readsOn_of_over hr).1] at hpolls
      exact absurd hpolls (by simp)
    · obtain ⟨hreads, -⟩ := Scan.readsOn_of_waiting hr
      rw [hreads, List.length_cons] at hpolls
      obtain ⟨future, hfuture⟩ := ih (s := next)
        (f := f.afterCalls 0 [(s.request.offset, s.request.length)]) h
        (Nat.lt_of_succ_lt_succ hpolls)
      dsimp only
      rw [hfuture, hreads, List.take_succ_cons, afterCalls_afterCalls]
      exact ⟨future, rfl⟩

end ScanFuture

namespace ScanTask

variable {task : ScanTask} {f : FaultyStorage} {polls : Nat}

/-- The ranges that a task over `journal` reads. -/
def readsOn (task : ScanTask) (journal : Bytes) : List (Nat × Nat) :=
  match (task.begin (⟨journal⟩ : MemoryStorage)).1 with
  | .over _ => []
  | .waiting scan => scan.readsOn journal

/-- Without faults a task begins as over the bytes. -/
theorem begin_faultFree (h : f.plan = {}) :
    task.begin f = ((task.begin (⟨f.data⟩ : MemoryStorage)).1, f.afterCalls 1 []) := by
  unfold begin
  rw [size_eq h]
  rfl

/-- The result of a task from its beginning. -/
theorem resultOn_eq_of_begin (task : ScanTask) (journal : Bytes) :
    task.resultOn journal =
      match (task.begin (⟨journal⟩ : MemoryStorage)).1 with
      | .over result => result
      | .waiting scan => scan.resultOn journal := by
  have hstorage : (task.begin (⟨journal⟩ : MemoryStorage)).2 = ⟨journal⟩ := rfl
  unfold resultOn run
  generalize task.begin (⟨journal⟩ : MemoryStorage) = progress at hstorage ⊢
  obtain ⟨progress, storage⟩ := progress
  subst hstorage
  cases progress <;> rfl

/-- Without faults a task has the result over the bytes and the reads of `readsOn`. -/
theorem run_faultFree (task : ScanTask) (h : f.plan = {}) :
    task.run f = (task.resultOn f.data, f.afterCalls 1 (task.readsOn f.data)) := by
  rw [resultOn_eq_of_begin]
  unfold run readsOn
  rw [begin_faultFree h]
  rcases (task.begin (⟨f.data⟩ : MemoryStorage)).1 with result | scan
  · rfl
  · dsimp only
    rw [Scan.run_faultFree scan _ (by exact h), afterCalls_afterCalls]
    rfl

/-- A task polled more often than it reads is ready. -/
theorem pollTimes_of_lt (h : f.plan = {}) (hpolls : (task.readsOn f.data).length < polls) :
    ScanFuture.pollTimes .suspending polls (.unstarted task) f =
      (.ready (task.resultOn f.data), f.afterCalls 1 (task.readsOn f.data)) := by
  cases polls with
  | zero => cases hpolls
  | succ polls =>
    rw [resultOn_eq_of_begin]
    unfold readsOn at hpolls ⊢
    simp only [ScanFuture.pollTimes, ScanFuture.poll]
    rw [begin_faultFree h]
    rcases hbegin : (task.begin (⟨f.data⟩ : MemoryStorage)).1 with result | scan
    · rfl
    · rw [hbegin] at hpolls
      have hready := ScanFuture.pollTimes_reading_of_le (s := scan) (f := f.afterCalls 1 []) h
        (Nat.le_of_lt_succ hpolls)
      rw [afterCalls_afterCalls] at hready
      exact hready

/-- A task polled at most as often as it reads is pending, and has made one read with every poll but
the first. -/
theorem pollTimes_of_le (h : f.plan = {}) (hpolls : polls ≤ (task.readsOn f.data).length) :
    ∃ future sizes, ScanFuture.pollTimes .suspending polls (.unstarted task) f =
      (.pending future, f.afterCalls sizes ((task.readsOn f.data).take (polls - 1))) := by
  cases polls with
  | zero => exact ⟨.unstarted task, 0, by rw [List.take_zero, afterCalls_zero_nil]; rfl⟩
  | succ polls =>
    unfold readsOn at hpolls ⊢
    simp only [ScanFuture.pollTimes, ScanFuture.poll]
    rw [begin_faultFree h]
    rcases hbegin : (task.begin (⟨f.data⟩ : MemoryStorage)).1 with result | scan
    · rw [hbegin] at hpolls
      cases hpolls
    · rw [hbegin] at hpolls
      obtain ⟨future, hpending⟩ := ScanFuture.pollTimes_reading_of_lt (s := scan)
        (f := f.afterCalls 1 []) h hpolls
      rw [afterCalls_afterCalls] at hpending
      exact ⟨future, _, hpending⟩

end ScanTask
end UndoLog
