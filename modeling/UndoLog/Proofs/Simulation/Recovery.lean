import UndoLog.Proofs.Journal.Boundaries
import UndoLog.Proofs.Reader.Rollback
import UndoLog.Proofs.Scan.CutShort
import UndoLog.Proofs.Scan.Walk
import UndoLog.Proofs.Simulation.Run

/-!
# Recovery from a crash

A crash cuts a journal short. The records that end before the cut are found in both directions, the
rest is reported as truncated, and undoing the records that were found takes the target as it was
after their changes back to the first one.
-/

namespace UndoLog

open Journal

namespace BuiltJournal

variable (j : BuiltJournal)

/-- A record starts or ends at `offset`. -/
def IsBoundary (offset : Nat) : Prop :=
  offset = Layout.journalStart ∨ ∃ r ∈ j.records, r.endOffset = offset

instance (offset : Nat) : Decidable (j.IsBoundary offset) := inferInstanceAs (Decidable (_ ∨ _))

/-- The number of records that end at or before `cut`. -/
def countKept (cut : Nat) : Nat := j.records.countP fun r => r.endOffset ≤ cut

/-- The records that end at or before `cut`. -/
def kept (cut : Nat) : List Record := j.records.take (j.countKept cut)

/-- The end of the last record that ends at or before `cut`. -/
def lastBoundary (cut : Nat) : Nat :=
  ((j.kept cut).getLast?.map Record.endOffset).getD Layout.journalStart

private theorem length_tornAt {cut : Nat} (h : cut ≤ j.bytes.length) :
    (j.tornAt cut).length = cut := by
  rw [tornAt, List.length_take]
  omega

end BuiltJournal

/-- The journal of a simulation, cut short, takes a target back to the first one. A forward walk
over the lengths of the target finds the records kept, and then the end or a truncated record; a
backward walk from the last boundary finds the same records, newest first; and undoing them with
their payloads gives the first target. -/
structure SimulatedJournal.Recovers (g : SimulatedJournal) (cut : Nat) (target : Bytes) : Prop where
  forward (verifyTrailer : Bool) (targetLength : Nat)
    (h : ∀ length, g.lengthsBefore[g.journal.countKept cut]? = some length →
      targetLength = length) :
    ∃ recordEnd,
      scanForwardAll (g.journal.tornAt cut) verifyTrailer Layout.journalStart
          (g.lengthsBefore.take (g.journal.countKept cut) ++ [targetLength]) =
        (g.journal.kept cut).map (fun r => .ok (some ⟨r, r.endOffset⟩)) ++
          [if g.journal.IsBoundary cut then .ok none
            else .error (.truncatedJournal (g.journal.lastBoundary cut) recordEnd cut)]
  backward (verifyTrailer : Bool) :
    (⟨⟨g.journal.tornAt cut⟩, g.journal.lastBoundary cut, verifyTrailer⟩ :
        Reader MemoryStorage).rollback none =
      ((g.journal.kept cut).reverse, none,
        ⟨⟨g.journal.tornAt cut⟩, Layout.journalStart, verifyTrailer⟩)
  backward_start :
    (ScanTask.backward Layout.journalStart).resultOn (g.journal.tornAt cut) = .ok none
  undo (position : Nat) (verifyTrailer : Bool) :
    (⟨⟨g.journal.tornAt cut⟩, position, verifyTrailer⟩ :
        Reader MemoryStorage).undoRecords? (g.journal.kept cut).reverse target =
      some g.initialTarget

namespace SimulatedJournal

variable {g : SimulatedJournal} {front back : List Entry} {cut : Nat}

/-- The records kept are those of the first entries, and the cut lies before the end of the next
one. -/
private theorem kept_eq (h : g.Holds (front ++ back)) (hcut : Layout.journalStart ≤ cut)
    (hcount : g.journal.countKept cut = front.length) :
    g.journal.kept cut = recordsFrom Layout.journalStart front ∧
      g.journal.lastBoundary cut =
        Layout.journalStart + (imagesFrom Layout.journalStart front).length ∧
      g.journal.lastBoundary cut ≤ cut ∧
      ∀ r ∈ recordsFrom (g.journal.lastBoundary cut) back, cut < r.endOffset := by
  have hkept : g.journal.kept cut = recordsFrom Layout.journalStart front := by
    have hlen : (recordsFrom Layout.journalStart front).length = front.length :=
      length_recordsFrom _ _
    rw [BuiltJournal.kept, hcount, h.records_eq, recordsFrom_append, ← hlen, List.take_left]
  have hlast : g.journal.lastBoundary cut =
      Layout.journalStart + (imagesFrom Layout.journalStart front).length := by
    rw [BuiltJournal.lastBoundary, hkept, getLast?_recordsFrom]
  rw [BuiltJournal.countKept, h.records_eq] at hcount
  have hbetween := cut_of_countP hcut hcount
  exact ⟨hkept, hlast, hlast ▸ hbetween.1, hlast ▸ hbetween.2⟩

private theorem isBoundary_iff (h : g.Holds (front ++ back)) (hcut : Layout.journalStart ≤ cut)
    (hcount : g.journal.countKept cut = front.length) :
    g.journal.IsBoundary cut ↔ cut = g.journal.lastBoundary cut := by
  obtain ⟨hkept, hlast, hle, hnext⟩ := kept_eq h hcut hcount
  have hrecords : g.journal.records = recordsFrom Layout.journalStart front ++
      recordsFrom (g.journal.lastBoundary cut) back := by
    rw [h.records_eq, recordsFrom_append, hlast]
  constructor
  · rintro (rfl | ⟨r, hr, rfl⟩)
    · omega
    · rw [hrecords] at hr
      rcases List.mem_append.mp hr with hfront | hback
      · have hin := (endOffset_mem_recordsFrom hfront).2
        omega
      · exact absurd (hnext r hback) (Nat.lt_irrefl _)
  · intro heq
    rcases List.eq_nil_or_concat' front with rfl | ⟨first, e, rfl⟩
    · exact .inl (heq.trans hlast)
    · refine .inr ⟨e.recordAt (Layout.journalStart +
        (imagesFrom Layout.journalStart first).length), ?_, ?_⟩
      · rw [hrecords, recordsFrom_concat]
        exact List.mem_append_left _ (List.mem_append_right _ (List.mem_singleton.mpr rfl))
      · rw [e.endOffset_recordAt, heq, hlast, imagesFrom_concat, List.length_append,
          Nat.add_assoc]

private theorem tornAt_eq (h : g.Holds (front ++ back)) (hcut : Layout.journalStart ≤ cut)
    (hcount : g.journal.countKept cut = front.length) :
    g.journal.tornAt cut = Layout.magic ++ imagesFrom Layout.journalStart front ++
      (imagesFrom (g.journal.lastBoundary cut) back).take (cut - g.journal.lastBoundary cut) := by
  obtain ⟨-, hlast, hle, -⟩ := kept_eq h hcut hcount
  have hlen : (Layout.magic ++ imagesFrom Layout.journalStart front).length =
      g.journal.lastBoundary cut := by
    rw [List.length_append, Layout.length_magic, hlast]
  rw [BuiltJournal.tornAt, h.bytes_eq, ofEntries, imagesFrom_append, ← hlast, ← List.append_assoc,
    List.take_append, hlen, List.take_of_length_le (by omega)]

private theorem Holds.standsIn_lastBoundary {e : Entry} {rest : List Entry}
    (h : g.Holds (front ++ e :: rest)) (hcut : Layout.journalStart ≤ cut)
    (hcount : g.journal.countKept cut = front.length) :
    (e.recordAt (g.journal.lastBoundary cut)).StandsIn e.payload g.journal.bytes := by
  have he : e.IsStored := h.isStored e (List.mem_append_right _ List.mem_cons_self)
  rw [(kept_eq h hcut hcount).2.1, h.bytes_eq]
  exact standsIn_ofEntries he front rest

private theorem Holds.exists_lengthsBefore {e : Entry} {rest : List Entry}
    (h : g.Holds (front ++ e :: rest)) :
    ∃ length, g.lengthsBefore[front.length]? = some length ∧ e.kind.FitsTarget length := by
  have hdrop := List.forall₂_drop front.length h.fitsTarget
  rw [List.drop_left, List.forall₂_cons_left_iff] at hdrop
  obtain ⟨length, lengths, hfits, -, hlengths⟩ := hdrop
  refine ⟨length, ?_, hfits⟩
  rw [← List.head?_drop, hlengths]
  rfl

/-- Behind the records kept, a forward scan finds the end of the journal, or a truncation of the
next record if the target has the length before its change. -/
private theorem exists_resultOn_lastBoundary (h : g.Holds (front ++ back))
    (hcut : Layout.journalStart ≤ cut) (hin : cut ≤ g.journal.bytes.length)
    (hcount : g.journal.countKept cut = front.length) :
    ∃ recordEnd, ∀ targetLength verifyTrailer,
      (∀ length, g.lengthsBefore[front.length]? = some length → targetLength = length) →
        (ScanTask.forward (g.journal.lastBoundary cut) targetLength verifyTrailer).resultOn
            (g.journal.tornAt cut) =
          if g.journal.IsBoundary cut then .ok none
          else .error (.truncatedJournal (g.journal.lastBoundary cut) recordEnd cut) := by
  obtain ⟨-, hlast, hle, hnext⟩ := kept_eq h hcut hcount
  have hlen := g.journal.length_tornAt hin
  by_cases hboundary : g.journal.IsBoundary cut
  · refine ⟨0, ?_⟩
    intro targetLength verifyTrailer hlength
    have heq := (isBoundary_iff h hcut hcount).mp hboundary
    rw [if_pos hboundary, ScanTask.resultOn_forward_eq_none_iff, hlen]
    exact ⟨heq.symm, hcut⟩
  · have hne : cut ≠ g.journal.lastBoundary cut :=
      fun heq => hboundary ((isBoundary_iff h hcut hcount).mpr heq)
    cases back with
    | nil =>
      rw [h.bytes_eq, List.append_nil, length_ofEntries, ← hlast] at hin
      omega
    | cons e rest =>
      let record := e.recordAt (g.journal.lastBoundary cut)
      have hstands : record.StandsIn e.payload g.journal.bytes :=
        h.standsIn_lastBoundary hcut hcount
      have hlimit : record.endOffset < Layout.offsetLimit :=
        Nat.lt_of_le_of_lt hstands.endOffset_le h.length_lt
      have hlo : record.journalOffset < cut := Nat.lt_of_le_of_ne hle (Ne.symm hne)
      have hhi : cut < record.endOffset := hnext record (by
        rw [recordsFrom]
        exact List.mem_cons_self)
      obtain ⟨recordEnd, -, -, -, hresult⟩ :=
        ScanTask.resultOn_forward_take hstands hlimit hlo hhi
      refine ⟨recordEnd, ?_⟩
      intro targetLength verifyTrailer hlength
      rw [if_neg hboundary]
      apply hresult targetLength verifyTrailer
      left
      obtain ⟨length, hhead, hfits⟩ := h.exists_lengthsBefore
      rw [hlength length hhead]
      exact hfits

/-- A cut journal of entries recovers from every target that the entries kept take back. -/
theorem recovers_of_holds {target : Bytes} (h : g.Holds (front ++ back))
    (hcut : Layout.journalStart ≤ cut) (hin : cut ≤ g.journal.bytes.length)
    (hcount : g.journal.countKept cut = front.length)
    (hundo : undoEntries? front.reverse target = some g.initialTarget) : g.Recovers cut target := by
  obtain ⟨hkept, hlast, hle, -⟩ := kept_eq h hcut hcount
  have htorn := tornAt_eq h hcut hcount
  have hlen := g.journal.length_tornAt hin
  have hstored : ∀ e ∈ front, e.IsStored := fun e he => h.isStored e (List.mem_append_left _ he)
  constructor
  · intro verifyTrailer targetLength hlength
    obtain ⟨recordEnd, hresult⟩ := exists_resultOn_lastBoundary h hcut hin hcount
    refine ⟨recordEnd, ?_⟩
    have hfits := List.forall₂_take front.length h.fitsTarget
    rw [List.take_left] at hfits
    have hlimit : Layout.journalStart + (imagesFrom Layout.journalStart front).length <
        Layout.offsetLimit := by
      have hlt := h.length_lt
      omega
    have hwalk := scanForwardAll_imagesFrom hfits hstored (Nat.le_refl _) Layout.length_magic hlimit
      ((imagesFrom (g.journal.lastBoundary cut) back).take (cut - g.journal.lastBoundary cut))
      verifyTrailer [targetLength]
    rw [← htorn, ← hlast, scanForwardAll_singleton] at hwalk
    rw [hcount] at hlength ⊢
    rw [hwalk, hkept, hresult targetLength verifyTrailer hlength]
  · intro verifyTrailer
    rw [hkept, hlast, htorn]
    exact Reader.rollback_imagesFrom hstored Layout.length_magic _ verifyTrailer
  · exact ScanTask.resultOn_backward_eq_none_iff.mpr ⟨rfl, by omega⟩
  · intro position verifyTrailer
    rw [hkept, htorn, Reader.undoRecords?_recordsFrom hstored Layout.length_magic]
    exact hundo

end SimulatedJournal

/-- No change of a simulation is refused, and wherever its journal is cut, the records kept take the
target after as many changes back to the first one. -/
theorem recovery_restores_target (length : Nat) (hlength : length < 2 ^ 62) (first : UInt8)
    (changes : List TargetChange) (hcount : changes.length < 2 ^ 40) :
    ∃ g, simulate? length first changes = some g ∧
      ∀ cut, Layout.journalStart ≤ cut → cut ≤ g.journal.bytes.length →
        ∃ early, simulate? length first (changes.take (g.journal.countKept cut)) = some early ∧
          g.Recovers cut early.finalTarget := by
  obtain ⟨g, -, -, -, hg, -⟩ := exists_simulate?_take hlength hcount first 0
  refine ⟨g, hg, ?_⟩
  intro cut hcut hin
  obtain ⟨whole, early, front, back, hwhole, hholds, hearly, hfront, hfrontLength, hbackLength,
      hinitial⟩ :=
    exists_simulate?_take hlength hcount first (g.journal.countKept cut)
  have hsame : whole = g := Option.some.inj (hwhole.symm.trans hg)
  subst hsame
  have hkept : whole.journal.countKept cut ≤ whole.journal.records.length :=
    List.countP_le_length
  rw [hholds.records_eq, length_recordsFrom, List.length_append] at hkept
  have hundo : undoEntries? front.reverse early.finalTarget = some whole.initialTarget :=
    hinitial ▸ hfront.undo_eq
  exact ⟨early, hearly,
    SimulatedJournal.recovers_of_holds hholds hcut hin (by omega) hundo⟩

/-- A journal of three changes cut inside its second record, so that the first is kept. -/
theorem recovery_restores_target_of_three :
    ∃ g early, simulate? 4 7 [.overwrite 1 1, .truncate 2, .append 3] = some g ∧
      g.journal.records.map Record.endOffset = [37, 66, 92] ∧
      simulate? 4 7 [.overwrite 1 1] = some early ∧ g.Recovers 50 early.finalTarget := by
  obtain ⟨g, hg, hcuts⟩ := recovery_restores_target 4 (by decide) 7
    [.overwrite 1 1, .truncate 2, .append 3] (by decide)
  have hfacts : (simulate? 4 7 [.overwrite 1 1, .truncate 2, .append 3]).map (fun g =>
      (g.journal.bytes.length, g.journal.records.map Record.endOffset, g.journal.countKept 50)) =
        some (92, [37, 66, 92], 1) := by decide +kernel
  rw [hg, Option.map_some, Option.some.injEq, Prod.mk.injEq, Prod.mk.injEq] at hfacts
  obtain ⟨hlen, hends, hkept⟩ := hfacts
  obtain ⟨early, hearly, hrecovers⟩ := hcuts 50 (by decide) (by rw [hlen]; decide)
  rw [hkept] at hearly
  exact ⟨g, early, hg, hends, hearly, hrecovers⟩

end UndoLog
