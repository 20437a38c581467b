import UndoLog.Writer
import UndoLog.Storage.Memory

/-!
# Building journals

A builder writes a journal into memory, record by record, on a clock that goes on by a millisecond
before each. It stops at the first record that cannot be written.

UndoJournal specification: section 11.
-/

namespace UndoLog

/-- The microseconds at which the clock of a builder starts. -/
def baseMicros : Int := 1700000000000000

/-- The timestamp `micros` after the start of the clock. -/
def builderTime? (micros : Int) : Option Timestamp := Timestamp.ofMicros? (baseMicros + micros)

/-- The bytes of a journal, the reserved ones included, and its records and payloads in the order
they were written. -/
structure BuiltJournal where
  bytes : Bytes
  records : List Record
  payloads : List Bytes
  deriving DecidableEq, Repr

namespace BuiltJournal

/-- There are no records. -/
def isEmpty (j : BuiltJournal) : Bool := j.records.isEmpty

/-- The bytes left by a crash that cuts the journal to `length`. -/
def tornAt (j : BuiltJournal) (length : Nat) : Bytes := j.bytes.take length

/-- A storage that holds the bytes. -/
def storage (j : BuiltJournal) : MemoryStorage := ⟨j.bytes⟩

end BuiltJournal

/-- A journal that is being built, its records so far, newest first, and the microseconds since the
start of the clock. -/
structure JournalBuilder where
  writer : Writer MemoryStorage
  newest : List (Record × Bytes)
  clock : Int
  deriving DecidableEq, Repr

namespace JournalBuilder

/-- A builder of a journal without records. -/
def empty : JournalBuilder where
  writer := { storage := (Writer.create false (⟨[]⟩ : MemoryStorage)).2, syncOnWrite := false }
  newest := []
  clock := 0

/-- Writes a record, unless the clock or the writer refuses it. -/
def add (b : JournalBuilder) (step : BuilderStep) : Option JournalBuilder :=
  let clock := b.clock + 1000
  match builderTime? clock with
  | none => none
  | some timestamp =>
    let (result, writer) :=
      match step with
      | .write targetOffset preImage => b.writer.recordWrite targetOffset preImage timestamp
      | .length oldLength newLength tail =>
        b.writer.recordLength oldLength newLength tail timestamp
    match result with
    | .error _ => none
    | .ok record => some ⟨writer, (record, step.payload) :: b.newest, clock⟩

/-- Writes records one after another. -/
def addAll (b : JournalBuilder) (steps : List BuilderStep) : Option JournalBuilder :=
  steps.foldlM add b

/-- The journal built so far. -/
def finish (b : JournalBuilder) : BuiltJournal where
  bytes := b.writer.storage.data
  records := b.newest.reverse.map Prod.fst
  payloads := b.newest.reverse.map Prod.snd

end JournalBuilder

/-- The journal of some steps, if each can be written. -/
def buildJournal? (steps : List BuilderStep) : Option BuiltJournal :=
  (JournalBuilder.empty.addAll steps).map JournalBuilder.finish

end UndoLog
