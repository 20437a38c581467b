import UndoLog.Reader

/-!
# Walking a journal backward

Undoing takes the newest record first. A walk reads one record after another towards the start of
the journal, and stops for good where the records end or where one cannot be read.

UndoJournal specification: section 5.7.
-/

namespace UndoLog

/-- A walk from a reader's position towards the start, and whether it is over. -/
structure Rollback (σ : Type) where
  reader : Reader σ
  finished : Bool := false
  deriving DecidableEq, Repr

namespace Rollback

variable {σ : Type} [Storage σ]

/-- The next item of a walk, a record or the error that ends it. -/
def next (w : Rollback σ) : Option (Except JournalError Record) × Rollback σ :=
  if w.finished then (none, w)
  else
    match w.reader.nextBackward with
    | (.ok (some record), reader) => (some (.ok record), { w with reader })
    | (.ok none, reader) => (none, { reader, finished := true })
    | (.error error, reader) => (some (.error error), { reader, finished := true })

/-- The first items of a walk, at most `count`, and whether its end was seen. -/
def take : (count : Nat) → (w : Rollback σ) →
    List (Except JournalError Record) × Bool × Rollback σ
  | 0, w => ([], false, w)
  | count + 1, w =>
    match w.next with
    | (none, w) => ([], true, w)
    | (some item, w) =>
      let (items, ended, w) := take count w
      (item :: items, ended, w)

/-- The walk after some calls for its next item. -/
def after : (calls : Nat) → (w : Rollback σ) → Rollback σ
  | 0, w => w
  | calls + 1, w => after calls w.next.2

/-- The answer of a walk to a call after `calls` others. -/
def answer (calls : Nat) (w : Rollback σ) : Option (Except JournalError Record) :=
  (w.after calls).next.1

end Rollback

namespace Reader

variable {σ : Type} [Storage σ]

/-- All records from the position towards the start, newest first, and the error that ended the
walk. With a limit, the walk ends with the item after that many records, whatever that item is. -/
def rollback (limit? : Option Nat) (r : Reader σ) :
    List Record × Option JournalError × Reader σ :=
  match h : r.nextBackward with
  | (.ok none, r) => ([], none, r)
  | (.error error, r) => ([], if limit? = some 0 then none else some error, r)
  | (.ok (some record), after) =>
    if limit? = some 0 then ([], none, after)
    else
      have := position_lt_of_nextBackward h
      let (records, error?, last) := rollback (limit?.map (· - 1)) after
      (record :: records, error?, last)
termination_by r.position

end Reader
end UndoLog
