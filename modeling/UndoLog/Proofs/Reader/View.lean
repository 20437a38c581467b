import UndoLog.Proofs.Reader.Cursor

/-!
# Readers see what their storage answers

A reader knows its storage by the answers to its calls alone. If one storage answers as another
does, with states that correspond, a reader over the one answers and moves as a reader over the
other.
-/

namespace UndoLog

variable {σ τ : Type}

namespace Reader

/-- A reader over the image of its storage. -/
def mapStorage (view : σ → τ) (r : Reader σ) : Reader τ :=
  ⟨view r.storage, r.position, r.verifyTrailer⟩

private theorem commit_mapStorage (view : σ → τ) (r : Reader σ) (outcome : ScanResult × σ) :
    (r.mapStorage view).commit (Prod.map id view outcome) =
      Prod.map id (mapStorage view) (r.commit outcome) := by
  match outcome with
  | (.error error, storage) => rfl
  | (.ok none, storage) => rfl
  | (.ok (some found), storage) => rfl

end Reader

variable [Storage σ] [Storage τ] {view : σ → τ}

/-- A map of storages that commutes with size calls and reads. -/
structure IsView (view : σ → τ) : Prop where
  size_eq (s : σ) : Storage.size (view s) = Prod.map id view (Storage.size s)
  readAt_eq (s : σ) (offset length : Nat) :
    Storage.readAt (view s) offset length = Prod.map id view (Storage.readAt s offset length)

namespace Scan

private theorem readOnce_view (h : IsView view) (s : Scan) (storage : σ) :
    s.readOnce (view storage) = Prod.map id view (s.readOnce storage) := by
  unfold readOnce
  rw [h.readAt_eq]
  rcases Storage.readAt storage s.request.offset s.request.length with ⟨result, after⟩
  cases result <;> rfl

private theorem run_view (h : IsView view) (s : Scan) (storage : σ) :
    s.run (view storage) = Prod.map id view (s.run storage) := by
  fun_induction Scan.run s storage with
  | case1 s storage result after hr =>
    have hview := readOnce_view h s storage
    rw [hr] at hview
    rw [Scan.run]
    split
    · next hr' =>
      cases hview.symm.trans hr'
      rfl
    · next hr' => cases hview.symm.trans hr'
  | case2 s storage next after hr _ ih =>
    have hview := readOnce_view h s storage
    rw [hr] at hview
    rw [Scan.run]
    split
    · next hr' => cases hview.symm.trans hr'
    · next hr' =>
      cases hview.symm.trans hr'
      exact ih

end Scan

namespace ScanTask

/-- A task commutes with a view. -/
theorem run_view (h : IsView view) (task : ScanTask) (storage : σ) :
    task.run (view storage) = Prod.map id view (task.run storage) := by
  have hbegin : task.begin (view storage) = Prod.map id view (task.begin storage) := by
    unfold begin
    rw [h.size_eq]
    rcases Storage.size storage with ⟨result, after⟩
    cases result <;> rfl
  unfold run
  rw [hbegin]
  rcases task.begin storage with ⟨result | scan, after⟩
  · rfl
  · exact scan.run_view h after

end ScanTask

namespace Reader

private theorem commit_run_mapStorage (h : IsView view) (r : Reader σ) (task : ScanTask) :
    (r.mapStorage view).commit (task.run (view r.storage)) =
      Prod.map id (mapStorage view) (r.commit (task.run r.storage)) := by
  rw [task.run_view h, commit_mapStorage]

private theorem seek_mapStorage (h : IsView view) (r : Reader σ) (position : Nat) :
    (r.mapStorage view).seek position = Prod.map id (mapStorage view) (r.seek position) := by
  have hsize : Storage.size (r.mapStorage view).storage =
      Prod.map id view (Storage.size r.storage) := h.size_eq r.storage
  unfold seek
  rw [hsize]
  rcases Storage.size r.storage with ⟨result, after⟩
  cases result with
  | error error => rfl
  | ok journalLength =>
    dsimp only [Prod.map, id]
    cases checkCursor position journalLength <;> rfl

private theorem seekEnd_mapStorage (h : IsView view) (r : Reader σ) :
    (r.mapStorage view).seekEnd = Prod.map id (mapStorage view) r.seekEnd := by
  have hsize : Storage.size (r.mapStorage view).storage =
      Prod.map id view (Storage.size r.storage) := h.size_eq r.storage
  unfold seekEnd
  rw [hsize]
  rcases Storage.size r.storage with ⟨result, after⟩
  cases result with
  | error error => rfl
  | ok journalLength =>
    have hseek : seek { r.mapStorage view with storage := view after } journalLength =
        Prod.map id (mapStorage view) (seek { r with storage := after } journalLength) :=
      seek_mapStorage h { r with storage := after } journalLength
    dsimp only [Prod.map, id]
    rw [hseek]
    rcases seek { r with storage := after } journalLength with ⟨result, last⟩
    cases result <;> rfl

private theorem readPayload_mapStorage (h : IsView view) (r : Reader σ) (record : Record) :
    (r.mapStorage view).readPayload record =
      Prod.map id (mapStorage view) (r.readPayload record) := by
  have hread : Storage.readAt (r.mapStorage view).storage record.payloadOffset record.dataLength =
      Prod.map id view (Storage.readAt r.storage record.payloadOffset record.dataLength) :=
    h.readAt_eq r.storage _ _
  unfold readPayload
  rw [hread]
  rcases Storage.readAt r.storage record.payloadOffset record.dataLength with ⟨result, after⟩
  cases result <;> rfl

/-- A call commutes with a view. -/
theorem perform_mapStorage (h : IsView view) (r : Reader σ) (call : ReaderCall) :
    (r.mapStorage view).perform call = Prod.map id (mapStorage view) (r.perform call) := by
  cases call with
  | forward targetLength =>
    exact congrArg (Prod.map ReaderAnswer.next id)
      (commit_run_mapStorage h r (r.forwardTask targetLength))
  | backward =>
    exact congrArg (Prod.map ReaderAnswer.next id) (commit_run_mapStorage h r r.backwardTask)
  | seek position => exact congrArg (Prod.map ReaderAnswer.seek id) (seek_mapStorage h r position)
  | seekEnd => exact congrArg (Prod.map ReaderAnswer.seekEnd id) (seekEnd_mapStorage h r)
  | payload record =>
    exact congrArg (Prod.map ReaderAnswer.payload id) (readPayload_mapStorage h r record)

/-- A history commutes with a view. -/
theorem history_mapStorage (h : IsView view) (calls : List ReaderCall) (r : Reader σ) :
    (r.mapStorage view).history calls = r.history calls := by
  induction calls generalizing r with
  | nil => rfl
  | cons call rest ih =>
    rw [history, perform_mapStorage h, history]
    dsimp only [Prod.map, id]
    rw [ih]
    rfl

end Reader
end UndoLog
