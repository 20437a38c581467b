import UndoLog.Reader

/-!
# Calls of a reader

A reader may be called in any order. Each call has an answer and leaves the reader at a position.
-/

namespace UndoLog

/-- A call of a reader. A read forward is given the length of the target. -/
inductive ReaderCall
  | forward (targetLength : Nat)
  | backward
  | seek (position : Nat)
  | seekEnd
  | payload (record : Record)
  deriving DecidableEq, Repr

/-- The answer to a call of a reader; `next` answers a read in either direction. -/
inductive ReaderAnswer
  | next (result : Except JournalError (Option Record))
  | seek (result : Except JournalError Unit)
  | seekEnd (result : Except JournalError Nat)
  | payload (result : Except JournalError Bytes)

/-- A call that was carried out, its answer, and the position after it. -/
structure ReaderEvent where
  call : ReaderCall
  answer : ReaderAnswer
  position : Nat

namespace Reader

variable {σ : Type} [Storage σ]

/-- Carries out a call. -/
def perform (r : Reader σ) : ReaderCall → ReaderAnswer × Reader σ
  | .forward targetLength =>
    let (result, r) := r.nextForward targetLength
    (.next result, r)
  | .backward =>
    let (result, r) := r.nextBackward
    (.next result, r)
  | .seek position =>
    let (result, r) := r.seek position
    (.seek result, r)
  | .seekEnd =>
    let (result, r) := r.seekEnd
    (.seekEnd result, r)
  | .payload record =>
    let (result, r) := r.readPayload record
    (.payload result, r)

/-- Carries out calls one after another. -/
def history : (calls : List ReaderCall) → (r : Reader σ) → List ReaderEvent
  | [], _ => []
  | call :: rest, r =>
    let (answer, after) := r.perform call
    ⟨call, answer, after.position⟩ :: history rest after

end Reader
end UndoLog
