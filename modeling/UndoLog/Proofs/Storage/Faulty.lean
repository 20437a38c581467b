import UndoLog.Storage.Faulty

/-!
# Faulty and truthful storages

A storage may fail any call. It is truthful if an append adds its data or nothing, no other call
changes the bytes, and the size it tells is the true one. Memory is, and so is a storage that fails
on schedule, unless it has another size to tell.

A storage with nothing on its schedule reads as memory does. Size calls and reads leave a trace in
it, and that is all they do.
-/

namespace UndoLog.FaultyStorage

variable {f : FaultyStorage} {offset length : Nat}

/-- The storage after `sizes` size calls and the given reads. -/
def afterCalls (f : FaultyStorage) (sizes : Nat) (reads : List (Nat × Nat)) : FaultyStorage :=
  { f with sizeCount := f.sizeCount + sizes, readLog := reads.reverse ++ f.readLog }

@[simp] theorem data_afterCalls (f : FaultyStorage) (sizes : Nat) (reads : List (Nat × Nat)) :
    (f.afterCalls sizes reads).data = f.data := rfl

/-- The reads are appended. -/
@[simp] theorem reads_afterCalls (f : FaultyStorage) (sizes : Nat) (reads : List (Nat × Nat)) :
    (f.afterCalls sizes reads).reads = f.reads ++ reads := by
  simp [FaultyStorage.reads, afterCalls]

/-- No calls change nothing. -/
@[simp] theorem afterCalls_zero_nil (f : FaultyStorage) : f.afterCalls 0 [] = f := rfl

/-- Successive calls add up. -/
@[simp] theorem afterCalls_afterCalls (f : FaultyStorage) (sizes others : Nat)
    (reads more : List (Nat × Nat)) :
    (f.afterCalls sizes reads).afterCalls others more =
      f.afterCalls (sizes + others) (reads ++ more) := by
  simp [afterCalls, Nat.add_assoc]

/-- Without faults the size is that of the bytes. -/
theorem size_eq (h : f.plan = {}) : Storage.size f = (.ok f.data.length, f.afterCalls 1 []) := by
  simp [Storage.size, h, afterCalls]

/-- Without faults a read is that of the bytes. -/
theorem readAt_eq (h : f.plan = {}) :
    Storage.readAt f offset length =
      (f.data.read offset length, f.afterCalls 0 [(offset, length)]) := by
  simp [Storage.readAt, h, afterCalls]

end UndoLog.FaultyStorage

namespace UndoLog

@[simp] theorem isOk_ok {ε α : Type} (value : α) : (Except.ok value : Except ε α).isOk = true := rfl

@[simp] theorem isOk_error {ε α : Type} (error : ε) :
    (Except.error error : Except ε α).isOk = false := rfl

/-- A storage whose bytes can be seen, and that is truthful in some states: there every call leaves
it truthful, the size told is the number of bytes, an append that succeeds adds its data, and every
other call leaves the bytes. -/
class TruthfulStorage (σ : Type) extends Storage σ where
  bytes (s : σ) : Bytes
  IsTruthful (s : σ) : Prop
  size_spec (s : σ) : IsTruthful s →
    IsTruthful (size s).2 ∧ bytes (size s).2 = bytes s ∧
      ∀ n, (size s).1 = .ok n → n = (bytes s).length
  append_spec (s : σ) (data : Bytes) : IsTruthful s →
    IsTruthful (append s data).2 ∧
      bytes (append s data).2 = if (append s data).1.isOk then bytes s ++ data else bytes s
  flush_spec (s : σ) : IsTruthful s → IsTruthful (flush s).2 ∧ bytes (flush s).2 = bytes s

/-- An append after a size call adds its data, or nothing if it fails. -/
theorem TruthfulStorage.append_size_spec {σ : Type} [TruthfulStorage σ] {s : σ}
    (h : IsTruthful s) (data : Bytes) :
    IsTruthful (Storage.append (Storage.size s).2 data).2 ∧
      bytes (Storage.append (Storage.size s).2 data).2 =
        if (Storage.append (Storage.size s).2 data).1.isOk then bytes s ++ data else bytes s := by
  obtain ⟨hsized, hbytes, -⟩ := size_spec s h
  rw [← hbytes]
  exact append_spec _ data hsized

/-- Memory is always truthful. -/
instance : TruthfulStorage MemoryStorage where
  bytes m := m.data
  IsTruthful _ := True
  size_spec _ _ := ⟨trivial, rfl, fun _ h => (Except.ok.inj h).symm⟩
  append_spec _ _ _ := ⟨trivial, rfl⟩
  flush_spec _ _ := ⟨trivial, rfl⟩

/-- A storage that fails on schedule is truthful if it has no other size to tell. -/
instance : TruthfulStorage FaultyStorage where
  bytes f := f.data
  IsTruthful f := f.plan.claimedSize? = none
  size_spec f hf := by
    simp only [Storage.size]
    split
    · exact ⟨hf, rfl, fun _ h => by cases h⟩
    · refine ⟨hf, rfl, ?_⟩
      intro n h
      cases h
      rw [hf, Option.getD_none]
  append_spec f data hf := by
    simp only [Storage.append]
    split <;> exact ⟨hf, rfl⟩
  flush_spec f hf := by
    simp only [Storage.flush]
    split <;> exact ⟨hf, rfl⟩

end UndoLog
