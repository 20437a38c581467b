import UndoLog.Record.Trailer
import UndoLog.Storage.Memory

/-!
# Writing a journal

A writer appends records to a journal, each with one call, so that a crash leaves at most one record
cut off at the end. If it is to synchronise, it flushes the storage after every append.

UndoJournal specification: section 5.8.
-/

namespace UndoLog

/-- A storage that records are appended to. With `syncOnWrite` every append is followed by a
flush. -/
structure Writer (σ : Type) where
  storage : σ
  syncOnWrite : Bool := true
  deriving DecidableEq, Repr

namespace Writer

variable {σ : Type} [Storage σ]

/-- Flushes the storage if the writer is to synchronise. -/
def sync (syncOnWrite : Bool) (storage : σ) : Except JournalError Unit × σ :=
  if syncOnWrite then
    match Storage.flush storage with
    | (.error error, storage) => (.error (.storage error), storage)
    | (.ok (), storage) => (.ok (), storage)
  else (.ok (), storage)

/-- Opens a storage for appending. An empty one is given the reserved bytes, and one that ends
inside them is refused (specification, section 5.8). -/
def create (syncOnWrite : Bool) (storage : σ) : Except JournalError Unit × σ :=
  match Storage.size storage with
  | (.error error, storage) => (.error (.storage error), storage)
  | (.ok size, storage) =>
    if size = 0 then
      match Storage.append storage Layout.magic with
      | (.error error, storage) => (.error (.storage error), storage)
      | (.ok _, storage) => sync syncOnWrite storage
    else if size < Layout.journalStart then
      (.error (.invalidArgument (.journalTooShort size)), storage)
    else (.ok (), storage)

/-- Appends a record at the end of the journal, with the timestamp truncated to microseconds
(specification, section 5.8). -/
def appendRecord (w : Writer σ) (kind : RecordKind) (timestamp : Timestamp) (payload : Bytes) :
    Except JournalError Record × Writer σ :=
  match Storage.size w.storage with
  | (.error error, storage) => (.error (.storage error), { w with storage })
  | (.ok journalOffset, storage) =>
    let record : Record := ⟨journalOffset, timestamp.truncateToMicros, kind⟩
    match record.encode payload with
    | .error error => (.error error, { w with storage })
    | .ok image =>
      match Storage.append storage image with
      | (.error error, storage) => (.error (.storage error), { w with storage })
      | (.ok _, storage) =>
        match sync w.syncOnWrite storage with
        | (.error error, storage) => (.error error, { w with storage })
        | (.ok (), storage) => (.ok record, { w with storage })

/-- Records the bytes that a write is about to overwrite. Those that a record cannot hold are
refused before the storage is called. -/
def recordWrite (w : Writer σ) (targetOffset : UInt64) (preImage : Bytes) (timestamp : Timestamp) :
    Except JournalError Record × Writer σ :=
  if UInt32.size ≤ preImage.length then
    (.error (.invalidArgument (.preImageTooLong preImage.length)), w)
  else if Layout.offsetLimit ≤ targetOffset.toNat + preImage.length then
    (.error (.invalidArgument (.preImageOverflow targetOffset.toNat preImage.length)), w)
  else w.appendRecord (.write targetOffset (UInt32.ofNat preImage.length)) timestamp preImage

/-- Records that the length of the target is about to change. -/
def recordLength (w : Writer σ) (oldLength newLength : UInt64) (tail : Bytes)
    (timestamp : Timestamp) : Except JournalError Record × Writer σ :=
  w.appendRecord (.length oldLength newLength) timestamp tail

/-- Flushes the storage. -/
def flush (w : Writer σ) : Except JournalError Unit × Writer σ :=
  let (result, storage) := sync true w.storage
  (result, { w with storage })

/-- The number of bytes in the journal. -/
def size (w : Writer σ) : Except JournalError Nat × Writer σ :=
  match Storage.size w.storage with
  | (.error error, storage) => (.error (.storage error), { w with storage })
  | (.ok size, storage) => (.ok size, { w with storage })

end Writer

/-- A record to be written: a write with the bytes it saves, or a change of length with the tail it
cuts off. -/
inductive BuilderStep
  | write (targetOffset : UInt64) (preImage : Bytes)
  | length (oldLength newLength : UInt64) (tail : Bytes)
  deriving DecidableEq, Repr

/-- The bytes that a step saves. -/
def BuilderStep.payload : BuilderStep → Bytes
  | .write _ preImage => preImage
  | .length _ _ tail => tail

/-- The kind of the record for a step. -/
def BuilderStep.kind : BuilderStep → RecordKind
  | .write targetOffset preImage => .write targetOffset (UInt32.ofNat preImage.length)
  | .length oldLength newLength _ => .length oldLength newLength

/-- A call of a writer. `create` opens the storage, or opens it anew. -/
inductive WriterCall
  | create
  | record (step : BuilderStep) (timestamp : Timestamp)
  | flush
  | size
  deriving DecidableEq, Repr

/-- The answer to a call of a writer. -/
inductive WriterAnswer
  | create (result : Except JournalError Unit)
  | record (result : Except JournalError Record)
  | flush (result : Except JournalError Unit)
  | size (result : Except JournalError Nat)

/-- A call that was carried out and its answer, with the writer before and after it. -/
structure WriterTransition (σ : Type) where
  before : Writer σ
  call : WriterCall
  answer : WriterAnswer
  after : Writer σ

namespace Writer

variable {σ : Type} [Storage σ]

/-- Writes the record of a step. -/
def record (w : Writer σ) (step : BuilderStep) (timestamp : Timestamp) :
    Except JournalError Record × Writer σ :=
  match step with
  | .write targetOffset preImage => w.recordWrite targetOffset preImage timestamp
  | .length oldLength newLength tail => w.recordLength oldLength newLength tail timestamp

/-- Writes records one after another, each at its time, if each is accepted. -/
def recordAll? : (calls : List (BuilderStep × Timestamp)) → (w : Writer σ) →
    Option (List Record × Writer σ)
  | [], w => some ([], w)
  | (step, timestamp) :: rest, w =>
    match w.record step timestamp with
    | (.error _, _) => none
    | (.ok record, w) => (recordAll? rest w).map fun (records, w) => (record :: records, w)

/-- Carries out a call. -/
def perform (w : Writer σ) : WriterCall → WriterAnswer × Writer σ
  | .create =>
    let (result, storage) := create w.syncOnWrite w.storage
    (.create result, { w with storage })
  | .record step timestamp =>
    let (result, w) := w.record step timestamp
    (.record result, w)
  | .flush =>
    let (result, w) := w.flush
    (.flush result, w)
  | .size =>
    let (result, w) := w.size
    (.size result, w)

/-- Carries out calls one after another. A failed opening ends the session. -/
def session : (calls : List WriterCall) → (w : Writer σ) → List (WriterTransition σ)
  | [], _ => []
  | call :: rest, w =>
    let (answer, after) := w.perform call
    ⟨w, call, answer, after⟩ ::
      match answer with
      | .create (.error _) => []
      | _ => session rest after

/-- The writer of a fresh journal in memory. -/
def fresh (syncOnWrite : Bool) : Writer MemoryStorage where
  storage := (create syncOnWrite (⟨[]⟩ : MemoryStorage)).2
  syncOnWrite

end Writer
end UndoLog
