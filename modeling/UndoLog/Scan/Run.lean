import UndoLog.Scan
import UndoLog.Storage.Memory

/-!
# Scanning a storage

A scan over a storage asks once for the size, and then makes the reads that the scan asks for, one
after another, until it finds a record, finds that there is none, or fails.

UndoJournal specification: section 5.5.
-/

namespace UndoLog

/-- What a scan looks for: the record that starts at a position, over a target of a given length, or
the record that ends at one. -/
inductive ScanTask
  | forward (cursor targetLength : Nat) (verifyTrailer : Bool)
  | backward (cursor : Nat)
  deriving DecidableEq, Repr

/-- The scan for a task in a journal of a given length. -/
def ScanTask.scan (journalLength : Nat) : ScanTask → Scan
  | .forward cursor targetLength verifyTrailer =>
    .forward { cursor, journalLength, targetLength, verifyTrailer }
  | .backward cursor => .backward { cursor, journalLength }

/-- The outcome of a scan. -/
abbrev ScanResult := Except JournalError (Option Scanned)

/-- A scan that is over, or that waits for more bytes. -/
inductive ScanProgress
  | over (result : ScanResult)
  | waiting (scan : Scan)

namespace ScanProgress

/-- The progress after a step. -/
def ofStep : Except JournalError ScanStep × Scan → ScanProgress
  | (.error error, _) => .over (.error error)
  | (.ok (.done found?), _) => .over (.ok found?)
  | (.ok (.read _), scan) => .waiting scan

end ScanProgress

variable {σ : Type} [Storage σ]

/-- Asks for the size and starts the scan. -/
def ScanTask.begin (task : ScanTask) (storage : σ) : ScanProgress × σ :=
  match Storage.size storage with
  | (.error error, storage) => (.over (.error (.storage error)), storage)
  | (.ok journalLength, storage) => (.ofStep (task.scan journalLength).start, storage)

namespace Scan

/-- Makes the requested read and resumes the scan with its bytes. -/
def readOnce (s : Scan) (storage : σ) : ScanProgress × σ :=
  match Storage.readAt storage s.request.offset s.request.length with
  | (.error error, storage) => (.over (.error (.storage error)), storage)
  | (.ok bytes, storage) => (.ofStep (s.resume bytes), storage)

/-- A read brings a waiting scan nearer to its end. -/
theorem rank_lt_of_readOnce {s next : Scan} {storage after : σ}
    (h : s.readOnce storage = (.waiting next, after)) : next.rank < s.rank := by
  unfold readOnce at h
  split at h
  · cases h
  · next bytes after' hr =>
    simp only [Prod.mk.injEq] at h
    obtain ⟨hstep, -⟩ := h
    have hb : bytes.length = s.request.length :=
      Storage.length_readAt storage s.request.offset s.request.length bytes (by rw [hr])
    unfold ScanProgress.ofStep at hstep
    split at hstep
    · cases hstep
    · cases hstep
    · next hs =>
      cases hstep
      exact rank_lt_of_resume hb hs

/-- Makes the requested reads until the scan is over (specification, section 5.5). -/
def run (s : Scan) (storage : σ) : ScanResult × σ :=
  match h : s.readOnce storage with
  | (.over result, storage) => (result, storage)
  | (.waiting next, storage) =>
    have := rank_lt_of_readOnce h
    next.run storage
termination_by s.rank

end Scan

/-- Carries out a task on a storage. -/
def ScanTask.run (task : ScanTask) (storage : σ) : ScanResult × σ :=
  match task.begin storage with
  | (.over result, storage) => (result, storage)
  | (.waiting scan, storage) => scan.run storage

/-- A record found backward in any storage starts below the position. -/
theorem Scan.cursor_lt_of_run {s : Scan} {storage after : σ} {cursor : Nat} {found : Scanned}
    (hs : s.GoesBelow cursor) (h : s.run storage = (.ok (some found), after)) :
    found.cursor < cursor := by
  fun_induction Scan.run s storage with
  | case1 s storage result storage' hr =>
    cases h
    unfold Scan.readOnce at hr
    split at hr
    · cases hr
    · simp only [Prod.mk.injEq, ScanProgress.ofStep] at hr
      obtain ⟨hstep, -⟩ := hr
      split at hstep <;> cases hstep
      exact cursor_lt_of_resume hs (by assumption)
  | case2 s storage next storage' hr _ ih =>
    refine ih ?_ h
    unfold Scan.readOnce at hr
    split at hr
    · cases hr
    · simp only [Prod.mk.injEq, ScanProgress.ofStep] at hr
      obtain ⟨hstep, -⟩ := hr
      split at hstep <;> cases hstep
      exact goesBelow_of_resume hs (by assumption)

/-- A record found backward in any storage starts below the position. -/
theorem ScanTask.cursor_lt_of_run {storage after : σ} {cursor : Nat} {found : Scanned}
    (h : (ScanTask.backward cursor).run storage = (.ok (some found), after)) :
    found.cursor < cursor := by
  unfold ScanTask.run ScanTask.begin at h
  split at h
  · next hb =>
    cases h
    split at hb
    · cases hb
    · simp only [Prod.mk.injEq] at hb
      obtain ⟨hstep, -⟩ := hb
      unfold ScanProgress.ofStep at hstep
      split at hstep <;> cases hstep
      next hs => exact absurd hs (Scan.start_ne_found _ _ _)
  · next hb =>
    refine Scan.cursor_lt_of_run ?_ h
    split at hb
    · cases hb
    · simp only [Prod.mk.injEq] at hb
      obtain ⟨hstep, -⟩ := hb
      unfold ScanProgress.ofStep at hstep
      split at hstep <;> cases hstep
      next hs =>
        rw [Scan.eq_of_start hs]
        exact ⟨rfl, trivial⟩

end UndoLog
