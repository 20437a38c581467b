import UndoLog.Bytes
import UndoLog.Storage.Error

/-!
# Storage of bytes

A storage holds a byte string that grows at its end. Each of its four calls gives a result and the
storage after it; a call that fails may change the storage too, as one that counts its calls does.

The plainest storage is in memory, the bytes themselves with nothing else. Every call of it but a
read past the end succeeds, and only an append changes anything.

UndoJournal specification: section 2.
-/

namespace UndoLog

/-- The result of a call and the storage after it. -/
abbrev StorageResult (σ α : Type) := Except StorageError α × σ

/-- A storage of bytes that a journal can be kept in. An append answers the offset of its first
byte; a read that succeeds answers as many bytes as it was asked for. -/
class Storage (σ : Type) where
  size (s : σ) : StorageResult σ Nat
  readAt (s : σ) (offset length : Nat) : StorageResult σ Bytes
  append (s : σ) (data : Bytes) : StorageResult σ Nat
  flush (s : σ) : StorageResult σ Unit
  length_readAt (s : σ) (offset length : Nat) (bytes : Bytes) :
    (readAt s offset length).1 = .ok bytes → bytes.length = length

/-- Refuses a range that does not lie inside `size` bytes. -/
def StorageError.checkRange (offset length size : Nat) : Except StorageError Unit :=
  if offset + length ≤ size then .ok () else .error (.readPastEnd offset length size)

/-- The bytes of a range inside the data. -/
def Bytes.read (data : Bytes) (offset length : Nat) : Except StorageError Bytes :=
  match StorageError.checkRange offset length data.length with
  | .ok () => .ok (data.window offset length)
  | .error error => .error error

/-- A read succeeds iff its range lies inside the data, with the window there. -/
theorem Bytes.read_eq_ok_iff {data : Bytes} {offset length : Nat} {bytes : Bytes} :
    data.read offset length = .ok bytes ↔
      offset + length ≤ data.length ∧ bytes = data.window offset length := by
  unfold Bytes.read StorageError.checkRange
  by_cases h : offset + length ≤ data.length <;> simp [h, eq_comm]

/-- A read has the requested length. -/
theorem Bytes.length_of_read {data : Bytes} {offset length : Nat} {bytes : Bytes}
    (h : data.read offset length = .ok bytes) : bytes.length = length := by
  obtain ⟨hr, rfl⟩ := Bytes.read_eq_ok_iff.mp h
  exact Bytes.length_window hr

/-- Bytes kept in memory. -/
structure MemoryStorage where
  data : Bytes
  deriving DecidableEq, Repr

instance : Storage MemoryStorage where
  size m := (.ok m.data.length, m)
  readAt m offset length := (m.data.read offset length, m)
  append m data := (.ok m.data.length, ⟨m.data ++ data⟩)
  flush m := (.ok (), m)
  length_readAt _ _ _ _ h := Bytes.length_of_read h

end UndoLog
