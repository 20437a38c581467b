import UndoLog.Record
import UndoLog.Error

/-!
# The steps of a scan

A scan finds one record. It does not touch a storage: it asks for a range of bytes, is given them,
and goes on to ask for the next range or to say what it found.

UndoJournal specification: section 5.5.
-/

namespace UndoLog

/-- A range of bytes that a scan asks for. -/
structure ReadRequest where
  offset : Nat
  length : Nat
  deriving DecidableEq, Repr

/-- A record that was found, and the position after the scan: its end after a forward scan, its
start after a backward scan. -/
structure Scanned where
  record : Record
  cursor : Nat
  deriving DecidableEq, Repr

/-- What a scan wants or has found. It finds nothing at the end of the journal in its direction. -/
inductive ScanStep
  | read (request : ReadRequest)
  | done (found? : Option Scanned)
  deriving DecidableEq, Repr

/-- The result of a stage: the next stage, or the record found. -/
inductive StageResult (Stage : Type)
  | next (stage : Stage)
  | found (scanned : Scanned)

namespace StageResult

/-- The answer of a scan to a stage result, and the scan after it: `finished` when it is over, else
`waiting` at the next stage for what it requests there. -/
def settle {Stage S : Type} (finished : S) (waiting : Stage → S) (request : S → ReadRequest) :
    Except JournalError (StageResult Stage) → Except JournalError ScanStep × S
  | .error error => (.error error, finished)
  | .ok (.found scanned) => (.ok (.done (some scanned)), finished)
  | .ok (.next stage) => (.ok (.read (request (waiting stage))), waiting stage)

variable {Stage S : Type} {finished next : S} {waiting : Stage → S} {request : S → ReadRequest}
  {result : Except JournalError (StageResult Stage)}

/-- A scan requests bytes iff its stage goes on. -/
theorem settle_eq_read_iff {wanted : ReadRequest} :
    settle finished waiting request result = (.ok (.read wanted), next) ↔
      ∃ stage, result = .ok (.next stage) ∧ next = waiting stage ∧ wanted = request next := by
  constructor
  · intro h
    cases result with
    | error error => cases h
    | ok result =>
      cases result with
      | found scanned => cases h
      | next stage =>
        cases h
        exact ⟨stage, rfl, rfl, rfl⟩
  · rintro ⟨stage, rfl, rfl, rfl⟩
    rfl

/-- A scan finds a record iff its stage does. -/
theorem settle_fst_eq_found_iff {scanned : Scanned} :
    (settle finished waiting request result).1 = .ok (.done (some scanned)) ↔
      result = .ok (.found scanned) := by
  match result with
  | .error error => simp [settle]
  | .ok (.found scanned) => simp [settle]
  | .ok (.next stage) => simp [settle]

/-- A scan fails iff its stage does. -/
theorem settle_fst_eq_error_iff {error : JournalError} :
    (settle finished waiting request result).1 = .error error ↔ result = .error error := by
  match result with
  | .error error => simp [settle]
  | .ok (.found scanned) => simp [settle]
  | .ok (.next stage) => simp [settle]

/-- A resume never finds nothing. -/
theorem settle_fst_ne_none : (settle finished waiting request result).1 ≠ .ok (.done none) := by
  match result with
  | .error error => simp [settle]
  | .ok (.found scanned) => simp [settle]
  | .ok (.next stage) => simp [settle]

/-- Settling commutes with a map of the scan. -/
theorem map_settle {T : Type} (f : S → T) {request' : T → ReadRequest}
    (h : ∀ s, request' (f s) = request s) :
    (settle finished waiting request result).map id f =
      settle (f finished) (fun stage => f (waiting stage)) request' result := by
  match result with
  | .error error => rfl
  | .ok (.found scanned) => rfl
  | .ok (.next stage) => simp [settle, h]

end StageResult

/-- Refuses a position in the reserved bytes or past the end. -/
def checkCursor (cursor journalLength : Nat) : Except JournalError Unit :=
  if Layout.journalStart ≤ cursor ∧ cursor ≤ journalLength then .ok ()
  else .error (.invalidCursor cursor journalLength)

end UndoLog
