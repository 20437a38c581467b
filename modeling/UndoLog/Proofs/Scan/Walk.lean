import Mathlib.Data.List.Forall2
import UndoLog.Proofs.Journal.Grammar
import UndoLog.Proofs.Scan.Forward

/-!
# Walking a journal forward

The scans of a walk forward start each where the one before ended. Over the entries of a journal,
with target lengths that they fit, a walk finds their records one after another.
-/

namespace UndoLog

open Journal

/-- The results of forward scans, one for each target length, the first from `cursor` and each from
the end of the record before. The first scan that finds no record is the last. -/
def scanForwardAll (journal : Bytes) (verifyTrailer : Bool) :
    (cursor : Nat) → (targetLengths : List Nat) → List ScanResult
  | _, [] => []
  | cursor, targetLength :: rest =>
    match (ScanTask.forward cursor targetLength verifyTrailer).resultOn journal with
    | .ok (some found) => .ok (some found) :: scanForwardAll journal verifyTrailer found.cursor rest
    | .ok none => [.ok none]
    | .error error => [.error error]

/-- A walk over one target length is one scan. -/
theorem scanForwardAll_singleton (journal : Bytes) (verifyTrailer : Bool)
    (cursor targetLength : Nat) :
    scanForwardAll journal verifyTrailer cursor [targetLength] =
      [(ScanTask.forward cursor targetLength verifyTrailer).resultOn journal] := by
  rw [scanForwardAll]
  split
  · next found h => rw [h, scanForwardAll]
  · next h => rw [h]
  · next error h => rw [h]

/-- A walk over entries that fit the target lengths finds their records and goes on at their end. -/
theorem scanForwardAll_imagesFrom {entries : List Entry} {lengths : List Nat} {offset : Nat}
    {before : Bytes}
    (hfits : List.Forall₂ (fun e length => e.kind.FitsTarget length) entries lengths)
    (hstored : ∀ e ∈ entries, e.IsStored) (hstart : Layout.journalStart ≤ offset)
    (hbefore : before.length = offset)
    (hlimit : offset + (imagesFrom offset entries).length < Layout.offsetLimit) (after : Bytes)
    (verifyTrailer : Bool) (more : List Nat) :
    scanForwardAll (before ++ imagesFrom offset entries ++ after) verifyTrailer offset
        (lengths ++ more) =
      (recordsFrom offset entries).map (fun r => .ok (some ⟨r, r.endOffset⟩)) ++
        scanForwardAll (before ++ imagesFrom offset entries ++ after) verifyTrailer
          (offset + (imagesFrom offset entries).length) more := by
  induction hfits generalizing offset before with
  | nil => rfl
  | @cons e length rest lengths hfit _ ih =>
    let next := offset + (e.image offset).length
    have hjournal : before ++ imagesFrom offset (e :: rest) ++ after =
        before ++ e.image offset ++ imagesFrom next rest ++ after := by
      rw [imagesFrom, ← List.append_assoc]
    have hlength : offset + (imagesFrom offset (e :: rest)).length =
        next + (imagesFrom next rest).length := by
      rw [imagesFrom, List.length_append, ← Nat.add_assoc]
    have hend : (e.recordAt offset).endOffset = next := e.endOffset_recordAt offset
    have hstands : (e.recordAt offset).StandsIn e.payload
        (before ++ e.image offset ++ imagesFrom next rest ++ after) := by
      rw [List.append_assoc]
      exact e.standsIn_of_append (hstored e List.mem_cons_self) hstart hbefore _
    have hfound := ScanTask.resultOn_forward_of_standsIn hstands hfit (by omega) verifyTrailer
    have hbefore' : (before ++ e.image offset).length = next := by
      rw [List.length_append, hbefore]
    have hrest := ih (fun x hx => hstored x (List.mem_cons_of_mem e hx))
      (Nat.le_add_right_of_le hstart) hbefore' (hlength ▸ hlimit)
    rw [hlength, hjournal, List.cons_append, scanForwardAll]
    change (ScanTask.forward offset length verifyTrailer).resultOn _ = _ at hfound
    rw [hfound]
    dsimp only
    rw [hend, hrest, recordsFrom, List.map_cons, List.cons_append, hend]

end UndoLog
