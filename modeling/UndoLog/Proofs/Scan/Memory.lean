import UndoLog.Scan.Run
import UndoLog.Storage.Memory

/-!
# Scans over bytes in memory

A scan over memory sees windows of the bytes and leaves the bytes as they are. `ForwardScan.outcome`
and `BackwardScan.outcome` say what a run comes to from what a stage has made of its window, and the
chunks that a payload is read in come to the payload in one piece.
-/

namespace UndoLog

/-- The result of a task over `journal` in memory. -/
def ScanTask.resultOn (task : ScanTask) (journal : Bytes) : ScanResult :=
  (task.run (⟨journal⟩ : MemoryStorage)).1

namespace Scan

variable {s : Scan} {journal : Bytes}

/-- The result of a run over `journal` in memory. -/
def resultOn (s : Scan) (journal : Bytes) : ScanResult := (s.run (⟨journal⟩ : MemoryStorage)).1

/-- A read keeps the bytes. -/
theorem eq_of_readOnce_memory {storage after : MemoryStorage} {progress : ScanProgress}
    (h : s.readOnce storage = (progress, after)) : after = storage := by
  unfold readOnce at h
  split at h
  · next hr => exact (Prod.mk.inj h).2.symm.trans (congrArg Prod.snd hr).symm
  · next hr => exact (Prod.mk.inj h).2.symm.trans (congrArg Prod.snd hr).symm

/-- A read inside the bytes resumes the scan with the requested window. -/
theorem readOnce_memory (h : s.request.offset + s.request.length ≤ journal.length) :
    s.readOnce (⟨journal⟩ : MemoryStorage) =
      (.ofStep (s.resume (journal.window s.request.offset s.request.length)), ⟨journal⟩) := by
  have hr : Storage.readAt (⟨journal⟩ : MemoryStorage) s.request.offset s.request.length =
      (.ok (journal.window s.request.offset s.request.length), ⟨journal⟩) :=
    Prod.ext (Bytes.read_eq_ok_iff.mpr ⟨h, rfl⟩) rfl
  unfold readOnce
  rw [hr]

private theorem run_memory_snd (s : Scan) (storage : MemoryStorage) :
    (s.run storage).2 = storage := by
  fun_induction Scan.run s storage with
  | case1 s storage result after hr => exact eq_of_readOnce_memory hr
  | case2 s storage next after hr _ ih => rw [ih, eq_of_readOnce_memory hr]

/-- A run whose request lies inside the bytes is that read and the run after it. -/
theorem resultOn_eq (h : s.request.offset + s.request.length ≤ journal.length) :
    s.resultOn journal =
      match ScanProgress.ofStep
        (s.resume (journal.window s.request.offset s.request.length)) with
      | .over result => result
      | .waiting next => next.resultOn journal := by
  unfold resultOn
  rw [Scan.run]
  split
  · next result storage hr =>
    rw [readOnce_memory h] at hr
    rw [(Prod.mk.inj hr).1]
  · next next storage hr =>
    obtain rfl := eq_of_readOnce_memory hr
    rw [readOnce_memory h] at hr
    rw [(Prod.mk.inj hr).1]

private theorem ofStep_resume_ne_none (s : Scan) (bytes : Bytes) :
    ScanProgress.ofStep (s.resume bytes) ≠ .over (.ok none) := by
  have hne : (s.resume bytes).1 ≠ .ok (.done none) := by
    cases s with
    | forward scan => exact resume_forward scan bytes ▸ StageResult.settle_fst_ne_none
    | backward scan => exact resume_backward scan bytes ▸ StageResult.settle_fst_ne_none
  unfold ScanProgress.ofStep
  split
  · exact fun h => by cases h
  · next found? _ hstep =>
    intro h
    cases h
    exact hne (congrArg Prod.fst hstep)
  · exact fun h => by cases h

/-- A run finds a record or fails. -/
theorem resultOn_ne_none (s : Scan) (journal : Bytes) : s.resultOn journal ≠ .ok none := by
  unfold resultOn
  generalize (⟨journal⟩ : MemoryStorage) = storage
  fun_induction Scan.run s storage with
  | case1 s storage result after hr =>
    intro h
    unfold readOnce at hr
    split at hr
    · cases hr
      cases h
    · have hstep := (Prod.mk.inj hr).1
      dsimp only at h
      rw [h] at hstep
      exact ofStep_resume_ne_none s _ hstep
  | case2 s storage next after hr _ ih => exact ih

end Scan

/-- A task keeps the bytes. -/
theorem ScanTask.run_memory (task : ScanTask) (journal : Bytes) :
    task.run (⟨journal⟩ : MemoryStorage) = (task.resultOn journal, ⟨journal⟩) := by
  apply Prod.ext
  · rfl
  · unfold ScanTask.run
    split
    · next result storage h => exact (congrArg Prod.snd h).symm
    · next scan storage h =>
      have hs : storage = ⟨journal⟩ := (congrArg Prod.snd h).symm
      rw [Scan.run_memory_snd, hs]

namespace ForwardScan

/-- The result of a run over `journal` after a stage result. -/
def outcome (s : ForwardScan) (journal : Bytes) :
    Except JournalError (StageResult Stage) → ScanResult
  | .error error => .error error
  | .ok (.found scanned) => .ok (some scanned)
  | .ok (.next stage) => (Scan.forward { s with stage }).resultOn journal

/-- A run whose request lies inside the bytes is the outcome of the requested window. -/
theorem resultOn_eq_outcome {s : ForwardScan} {journal : Bytes}
    (h : s.request.offset + s.request.length ≤ journal.length) :
    (Scan.forward s).resultOn journal =
      s.outcome journal (s.advance (journal.window s.request.offset s.request.length)) := by
  rw [Scan.resultOn_eq (s := .forward s) h]
  simp only [Scan.resume, Scan.request, resume]
  cases s.advance (journal.window s.request.offset s.request.length) with
  | error error => rfl
  | ok result => cases result <;> rfl

end ForwardScan

namespace BackwardScan

/-- The result of a run over `journal` after a stage result. -/
def outcome (s : BackwardScan) (journal : Bytes) :
    Except JournalError (StageResult Stage) → ScanResult
  | .error error => .error error
  | .ok (.found scanned) => .ok (some scanned)
  | .ok (.next stage) => (Scan.backward { s with stage }).resultOn journal

/-- A run whose request lies inside the bytes is the outcome of the requested window. -/
theorem resultOn_eq_outcome {s : BackwardScan} {journal : Bytes}
    (h : s.request.offset + s.request.length ≤ journal.length) :
    (Scan.backward s).resultOn journal =
      s.outcome journal (s.advance (journal.window s.request.offset s.request.length)) := by
  rw [Scan.resultOn_eq (s := .backward s) h]
  simp only [Scan.resume, Scan.request, resume]
  cases s.advance (journal.window s.request.offset s.request.length) with
  | error error => rfl
  | ok result => cases result <;> rfl

end BackwardScan

/-- A function that goes over a payload chunk by chunk comes to its value after the payload in one
piece. -/
theorem PayloadCheck.eq_update_window {α : Type} {journal : Bytes} {f : PayloadCheck → α}
    (step : ∀ c : PayloadCheck, 0 < c.remaining → c.offset + c.remaining ≤ journal.length →
      f c = f (c.update (journal.window c.request.offset c.request.length)))
    (c : PayloadCheck) (h : c.offset + c.remaining ≤ journal.length) :
    f c = f (c.update (journal.window c.offset c.remaining)) := by
  induction hn : c.remaining using Nat.strongRecOn generalizing c with
  | ind n ih =>
    subst hn
    by_cases hr : 0 < c.remaining
    · have hle : c.request.length ≤ c.remaining := Nat.min_le_left _ _
      have hsplit : journal.window c.offset c.remaining =
          journal.window c.offset c.request.length ++
            journal.window (c.offset + c.request.length) (c.remaining - c.request.length) := by
        rw [← Bytes.window_add, Nat.add_sub_cancel' hle]
      have hlen : (journal.window c.request.offset c.request.length).length =
          c.request.length := Bytes.length_window (by simp only [request]; omega)
      have hlt := remaining_update_lt hr hlen
      let next := c.update (journal.window c.request.offset c.request.length)
      have hnext : next.remaining = c.remaining - c.request.length := by
        simp only [next, update, hlen]
      have hoffset : next.offset = c.offset + c.request.length := by
        simp only [next, update, hlen]
      calc f c
        _ = f next := step c hr h
        _ = f (next.update (journal.window next.offset next.remaining)) :=
          ih next.remaining hlt next (by omega) rfl
        _ = f (c.update (journal.window c.offset c.remaining)) := by
          rw [hnext, hoffset, ← update_append, hsplit]
          rfl
    · have hz : c.remaining = 0 := by omega
      have hw : journal.window c.offset c.remaining = [] := by
        rw [hz, Bytes.window, List.take_zero]
      rw [hw]
      rfl

end UndoLog
