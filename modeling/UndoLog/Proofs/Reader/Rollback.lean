import Mathlib.Data.List.Induction
import UndoLog.Proofs.Journal.Grammar
import UndoLog.Proofs.Reader.Memory

/-!
# What a walk backward reads

A walk without limit reads the records of entries, newest first, exactly if what lies between the
reserved bytes and its position is what those entries are written as.
-/

namespace UndoLog.Reader

open Journal

variable {journal : Bytes} {position : Nat} {verifyTrailer : Bool} {records : List Record}

section

variable {σ : Type} [Storage σ] {r after : Reader σ}

/-- A walk takes one step, and goes on after a record while the limit is not reached. -/
theorem rollback_eq (limit? : Option Nat) (r : Reader σ) :
    r.rollback limit? =
      match r.nextBackward with
      | (.ok none, after) => ([], none, after)
      | (.error error, after) => ([], if limit? = some 0 then none else some error, after)
      | (.ok (some record), after) =>
        if limit? = some 0 then ([], none, after)
        else
          (record :: (after.rollback (limit?.map (· - 1))).1,
            (after.rollback (limit?.map (· - 1))).2) := by
  rw [rollback]
  split
  · next hr => simp only [hr]
  · next hr => simp only [hr]
  · next hr => simp only [hr]

/-- Without limit a walk goes on after a record. -/
theorem rollback_of_found {record : Record} (h : r.nextBackward = (.ok (some record), after)) :
    r.rollback none =
      (record :: (after.rollback none).1, (after.rollback none).2) := by
  rw [rollback_eq, h]
  rfl

/-- Where there is no record a walk ends without an error. -/
theorem rollback_of_none (h : r.nextBackward = (.ok none, after)) :
    r.rollback none = ([], none, after) := by
  rw [rollback_eq, h]

/-- Without limit a walk ends with the error of the scan. -/
theorem rollback_of_error {error : JournalError} (h : r.nextBackward = (.error error, after)) :
    r.rollback none = ([], some error, after) := by
  rw [rollback_eq, h]
  rfl

/-- With a limit a walk answers a prefix of the walk without, and its error only if that comes
before the limit. -/
theorem rollback_limit (limit : Nat) (r : Reader σ) :
    (r.rollback (some limit)).1 = (r.rollback none).1.take limit ∧
      (r.rollback (some limit)).2.1 =
        if limit ≤ (r.rollback none).1.length then none else (r.rollback none).2.1 := by
  induction limit generalizing r with
  | zero =>
    rw [rollback_eq (some 0)]
    rcases r.nextBackward with ⟨_ | _ | record, after⟩ <;> exact ⟨List.take_zero.symm, rfl⟩
  | succ limit ih =>
    rcases hnext : r.nextBackward with ⟨error | _ | record, after⟩
    · rw [rollback_eq, hnext, rollback_of_error hnext]
      exact ⟨rfl, rfl⟩
    · rw [rollback_eq, hnext, rollback_of_none hnext]
      exact ⟨rfl, rfl⟩
    · obtain ⟨hrecords, herror⟩ := ih after
      rw [rollback_eq, hnext, rollback_of_found hnext]
      simp only [Option.some.injEq, Nat.add_one_ne_zero, if_false, Option.map_some,
        Nat.add_sub_cancel, hrecords, herror, List.take_succ_cons, List.length_cons,
        Nat.add_le_add_iff_right, and_self]

end

/-- A walk from the end of entries reads their records, newest first. -/
theorem rollback_imagesFrom {entries : List Entry} (hstored : ∀ e ∈ entries, e.IsStored)
    {before : Bytes} (hbefore : before.length = Layout.journalStart) (after : Bytes)
    (verifyTrailer : Bool) :
    let storage : MemoryStorage :=
      ⟨before ++ imagesFrom Layout.journalStart entries ++ after⟩
    (⟨storage, Layout.journalStart + (imagesFrom Layout.journalStart entries).length,
        verifyTrailer⟩ : Reader MemoryStorage).rollback none =
      ((recordsFrom Layout.journalStart entries).reverse, none,
        ⟨storage, Layout.journalStart, verifyTrailer⟩) := by
  intro storage
  -- the last entry is read first, and what follows it is bytes after those that remain
  induction entries using List.reverseRecOn generalizing after with
  | nil =>
    refine rollback_of_none (nextBackward_journalStart ?_ verifyTrailer)
    rw [List.length_append, List.length_append]
    omega
  | append_singleton entries e ih =>
    let offset := Layout.journalStart + (imagesFrom Layout.journalStart entries).length
    have hstands := standsIn_imagesFrom (hstored e List.mem_concat_self) (Nat.le_refl _) hbefore
      entries [] after
    have hnext : (⟨storage, (e.recordAt offset).endOffset, verifyTrailer⟩ :
        Reader MemoryStorage).nextBackward =
          (.ok (some (e.recordAt offset)), ⟨storage, offset, verifyTrailer⟩) :=
      nextBackward_of_standsIn hstands verifyTrailer
    have hstorage : storage =
        ⟨before ++ imagesFrom Layout.journalStart entries ++ (e.image offset ++ after)⟩ := by
      simp only [storage, imagesFrom_concat, List.append_assoc, offset]
    have hend : Layout.journalStart + (imagesFrom Layout.journalStart (entries ++ [e])).length =
        (e.recordAt offset).endOffset := by
      rw [imagesFrom_concat, List.length_append, e.endOffset_recordAt, ← Nat.add_assoc]
    have hrest := ih (fun x hx => hstored x (List.mem_append_left _ hx)) (e.image offset ++ after)
    dsimp only at hrest
    rw [← hstorage] at hrest
    rw [hend, rollback_of_found hnext, hrest, recordsFrom_concat, List.reverse_concat]

/-- A walk that ends without an error has read the records of entries. -/
theorem exists_entries_of_rollback {after : Reader MemoryStorage}
    (h : (⟨⟨journal⟩, position, verifyTrailer⟩ : Reader MemoryStorage).rollback none =
      (records, none, after)) :
    Layout.journalStart ≤ position ∧ position ≤ journal.length ∧
      ∃ entries : List Entry, (∀ e ∈ entries, e.IsStored) ∧
        journal.window Layout.journalStart (position - Layout.journalStart) =
          imagesFrom Layout.journalStart entries ∧
        records = (recordsFrom Layout.journalStart entries).reverse := by
  induction position using Nat.strongRecOn generalizing records with
  | ind position ih =>
    have hnext := nextBackward_memory journal position verifyTrailer
    cases hscan : (ScanTask.backward position).resultOn journal with
    | error error =>
      rw [hscan] at hnext
      cases h.symm.trans (rollback_of_error hnext)
    | ok found? =>
      rw [hscan] at hnext
      cases found? with
      | none =>
        cases h.symm.trans (rollback_of_none hnext)
        obtain ⟨rfl, hlen⟩ := ScanTask.resultOn_backward_eq_none_iff.mp hscan
        refine ⟨Nat.le_refl _, hlen, [], fun e he => absurd he List.not_mem_nil, ?_, rfl⟩
        rw [Nat.sub_self, Bytes.window, List.take_zero, imagesFrom]
      | some found =>
        obtain ⟨record, start⟩ := found
        obtain ⟨rfl, rfl, payload, hstands⟩ := ScanTask.resultOn_backward_eq_some_iff.mp hscan
        have hlonger := record.trailerLength_lt_encodedLength
        have hend : record.endOffset = record.journalOffset + record.encodedLength := rfl
        rw [rollback_of_found hnext] at h
        obtain ⟨hrecords, hrest⟩ := Prod.mk.inj h
        obtain ⟨hstart, -, entries, hstored, hwindow, hread⟩ :=
          ih record.journalOffset (by omega) (Prod.ext rfl hrest)
        obtain ⟨e, he, himages, hlast⟩ := exists_concat_of_standsIn hstands hwindow
        refine ⟨by omega, hstands.endOffset_le, entries ++ [e], ?_, himages, ?_⟩
        · intro x hx
          rcases List.mem_append.mp hx with hx | hx
          · exact hstored x hx
          · rw [List.mem_singleton.mp hx]
            exact he
        · rw [hlast, List.reverse_concat, ← hread, hrecords]

end UndoLog.Reader
