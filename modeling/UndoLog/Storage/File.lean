import UndoLog.Storage.Memory

/-!
# Storage in a file

A file keeps the size that it had when it was opened, and adds to it what it appends itself. Ranges
are checked against that size, while reads and appends go to the content as it is. The two differ
only when something else changes the content in between.

UndoJournal specification: section 2.
-/

namespace UndoLog

/-- How a file waits for its bytes. It shows only in the words of a read that was cut short. -/
inductive FileFlavour
  | blocking
  | suspending
  deriving DecidableEq, Repr

/-- An open file. `knownSize` is its size when opened and what was appended since. -/
structure FileStorage where
  content : Bytes
  knownSize : Nat
  writable : Bool
  flavour : FileFlavour
  deriving DecidableEq, Repr

namespace FileStorage

/-- The fault of a read that finds the file shorter than it was. -/
def cutShort : FileFlavour → IoFault
  | .blocking => .shortRead
  | .suspending => .earlyEnd

/-- Opens a file for reading and appending, and creates it if there is none. -/
def openWritable (content? : Option Bytes) : FileStorage :=
  let content := content?.getD []
  ⟨content, content.length, true, .blocking⟩

/-- Opens an existing file for reading. -/
def openReadOnly (flavour : FileFlavour) (content? : Option Bytes) :
    Except StorageError FileStorage :=
  match content? with
  | some content => .ok ⟨content, content.length, false, flavour⟩
  | none => .error (.io .notFound)

/-- Another program replaces the content. -/
def replaceContent (f : FileStorage) (content : Bytes) : FileStorage := { f with content }

/-- Asks for the size anew. -/
def refreshSize (f : FileStorage) : FileStorage := { f with knownSize := f.content.length }

/-- The bytes of a range inside the known size, if the content still has them. -/
def read (f : FileStorage) (offset length : Nat) : Except StorageError Bytes :=
  match StorageError.checkRange offset length f.knownSize with
  | .error error => .error error
  | .ok () =>
    if length = 0 then .ok []
    else if offset + length ≤ f.content.length then .ok (f.content.window offset length)
    else .error (.io (cutShort f.flavour))

/-- Adds bytes after the content. An empty append is no call to the system and never fails. -/
def append (f : FileStorage) (data : Bytes) : StorageResult FileStorage Nat :=
  if data.isEmpty then (.ok f.knownSize, f)
  else if f.writable then
    (.ok f.knownSize,
      { f with content := f.content ++ data, knownSize := f.knownSize + data.length })
  else (.error (.io .badDescriptor), f)

/-- A read has the requested length. -/
theorem length_of_read {f : FileStorage} {offset length : Nat} {bytes : Bytes}
    (h : f.read offset length = .ok bytes) : bytes.length = length := by
  unfold read at h
  split at h
  · cases h
  · split at h
    · cases h
      simp_all
    · split at h
      · cases h
        exact Bytes.length_window (by assumption)
      · cases h

instance : Storage FileStorage where
  size f := (.ok f.knownSize, f)
  readAt f offset length := (f.read offset length, f)
  append := append
  flush f := (.ok (), f)
  length_readAt _ _ _ _ h := length_of_read h

end FileStorage
end UndoLog
