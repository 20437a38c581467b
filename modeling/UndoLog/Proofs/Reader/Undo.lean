import Mathlib.Data.List.Induction
import UndoLog.Proofs.Journal.Grammar
import UndoLog.Proofs.Reader.Memory
import UndoLog.Simulation.Target

/-!
# Undoing what a journal records

The records that a walk backward reads are undone with the payloads that the reader reads. Where
they are the records of entries, that undoes the entries.
-/

namespace UndoLog

open Journal

/-- The target before the change of an entry. It does not depend on the offset of the record. -/
def Entry.undo? (e : Entry) (target : Bytes) : Option Bytes :=
  (e.recordAt 0).undo? e.payload target

/-- The target before the changes of entries, newest first. -/
def undoEntries? (newest : List Entry) (target : Bytes) : Option Bytes :=
  newest.foldlM (fun target e => e.undo? target) target

/-- Undoing the records of entries, with the payloads read from the journal, undoes the entries. -/
theorem Reader.undoRecords?_recordsFrom {entries : List Entry}
    (hstored : ∀ e ∈ entries, e.IsStored) {before : Bytes}
    (hbefore : before.length = Layout.journalStart) (after : Bytes) (position : Nat)
    (verifyTrailer : Bool) (target : Bytes) :
    (⟨⟨before ++ imagesFrom Layout.journalStart entries ++ after⟩, position, verifyTrailer⟩ :
        Reader MemoryStorage).undoRecords?
          (recordsFrom Layout.journalStart entries).reverse target =
      undoEntries? entries.reverse target := by
  -- the last entry is undone first, and what follows it is bytes after those that remain
  induction entries using List.reverseRecOn generalizing after target with
  | nil => rfl
  | append_singleton entries e ih =>
    let offset := Layout.journalStart + (imagesFrom Layout.journalStart entries).length
    have hstands := standsIn_imagesFrom (hstored e List.mem_concat_self) (Nat.le_refl _) hbefore
      entries [] after
    have hread := Reader.readPayload_memory hstands position verifyTrailer
    have hjournal : before ++ imagesFrom Layout.journalStart (entries ++ [e]) ++ after =
        before ++ imagesFrom Layout.journalStart entries ++ (e.image offset ++ after) := by
      simp only [imagesFrom_concat, List.append_assoc, offset]
    rw [recordsFrom_concat, List.reverse_concat, List.reverse_concat, undoRecords?, hread, hjournal,
      undoEntries?, List.foldlM_cons]
    exact Option.bind_congr fun earlier _ =>
      ih (fun x hx => hstored x (List.mem_append_left _ hx)) (e.image offset ++ after) earlier

end UndoLog
