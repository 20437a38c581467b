import UndoLog.Storage.File

/-!
# Reading into a buffer

A read fills a buffer of the caller's, and a range past the end leaves the buffer as it was. The
calls of a storage can be made one after another, whatever it answers.
-/

namespace UndoLog

/-- A storage whose reads fill a buffer. A fill succeeds exactly if the read does, and then the
buffer holds the bytes read. -/
class BufferedStorage (σ : Type) extends Storage σ where
  fill (s : σ) (offset : Nat) (buffer : Bytes) : Except StorageError Unit × Bytes
  fill_fst (s : σ) (offset : Nat) (buffer : Bytes) :
    (fill s offset buffer).1 = (readAt s offset buffer.length).1.map fun _ => ()
  fill_snd (s : σ) (offset : Nat) (buffer bytes : Bytes) :
    (readAt s offset buffer.length).1 = .ok bytes → (fill s offset buffer).2 = bytes

/-- Memory checks the range before it copies. -/
instance : BufferedStorage MemoryStorage where
  fill m offset buffer :=
    match StorageError.checkRange offset buffer.length m.data.length with
    | .error error => (.error error, buffer)
    | .ok () => (.ok (), m.data.window offset buffer.length)
  fill_fst m offset buffer := by
    simp only [Storage.readAt, Bytes.read]
    cases StorageError.checkRange offset buffer.length m.data.length <;> rfl
  fill_snd m offset buffer bytes h := by
    simp only [Storage.readAt, Bytes.read] at h
    cases hcheck : StorageError.checkRange offset buffer.length m.data.length with
    | error error =>
      rw [hcheck] at h
      cases h
    | ok valid =>
      rw [hcheck] at h
      cases h
      rfl

/-- A file checks the range against the size that it knows, and then reads as far as its content
goes. -/
instance : BufferedStorage FileStorage where
  fill f offset buffer :=
    match StorageError.checkRange offset buffer.length f.knownSize with
    | .error error => (.error error, buffer)
    | .ok () =>
      if buffer.length = 0 then (.ok (), buffer)
      else
        let found := f.content.window offset buffer.length
        (if offset + buffer.length ≤ f.content.length then .ok ()
          else .error (.io (FileStorage.cutShort f.flavour)),
          found ++ buffer.drop found.length)
  fill_fst f offset buffer := by
    simp only [Storage.readAt, FileStorage.read]
    cases StorageError.checkRange offset buffer.length f.knownSize with
    | error error => rfl
    | ok valid =>
      dsimp only
      split
      · rfl
      · split <;> rfl
  fill_snd f offset buffer bytes h := by
    simp only [Storage.readAt, FileStorage.read] at h
    cases hcheck : StorageError.checkRange offset buffer.length f.knownSize with
    | error error =>
      rw [hcheck] at h
      cases h
    | ok valid =>
      rw [hcheck] at h
      dsimp only at h ⊢
      by_cases hempty : buffer.length = 0
      · rw [if_pos hempty] at h ⊢
        cases h
        exact List.eq_nil_of_length_eq_zero hempty
      · rw [if_neg hempty] at h ⊢
        split at h
        · next hin =>
          cases h
          rw [Bytes.length_window hin, List.drop_length, List.append_nil]
        · cases h

/-- A call of a storage whose reads fill a buffer. -/
inductive BufferedCall
  | append (data : Bytes)
  | read (offset : Nat) (buffer : Bytes)
  | flush
  | size
  deriving DecidableEq, Repr

/-- The answer of a storage to a call. A read also answers the buffer. -/
inductive BufferedReply
  | append (result : Except StorageError Nat)
  | read (result : Except StorageError Unit) (buffer : Bytes)
  | flush (result : Except StorageError Unit)
  | size (result : Except StorageError Nat)

namespace BufferedStorage

variable {σ : Type} [BufferedStorage σ]

/-- Carries out a call. -/
def perform (s : σ) : BufferedCall → BufferedReply × σ
  | .append data => ((.append (Storage.append s data).1), (Storage.append s data).2)
  | .read offset buffer =>
    (.read (fill s offset buffer).1 (fill s offset buffer).2,
      (Storage.readAt s offset buffer.length).2)
  | .flush => (.flush (Storage.flush s).1, (Storage.flush s).2)
  | .size => (.size (Storage.size s).1, (Storage.size s).2)

/-- Carries out calls one after another, with the storage after each. -/
def history : (calls : List BufferedCall) → (s : σ) → List (BufferedReply × σ)
  | [], _ => []
  | call :: rest, s => perform s call :: history rest (perform s call).2

/-- The storage after some calls. -/
def after (s : σ) (calls : List BufferedCall) : σ :=
  calls.foldl (fun s call => (perform s call).2) s

end BufferedStorage
end UndoLog
