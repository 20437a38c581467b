import UndoLog.Proofs.Reader.Walked
import UndoLog.Proofs.Simulation.Checked

/-!
# The lengths of a simulated target

A simulation notes the length of its target before each change. The records of a journal lead from
each of these lengths to the next, and from the last one to the length of the target that is left;
they lie side by side from the reserved bytes to the end of the journal. What the first changes have
recorded stands at the start of what all of them record.
-/

namespace UndoLog

open Journal

private theorem Journal.tiles_recordsFrom (offset : Nat) (entries : List Entry) :
    Tiles offset ((recordsFrom offset entries).map Record.span)
      (offset + (imagesFrom offset entries).length) := by
  induction entries generalizing offset with
  | nil => rfl
  | cons e rest ih =>
    have hpos := e.length_image_pos offset
    have hend := e.endOffset_recordAt offset
    rw [recordsFrom, imagesFrom, List.map_cons, List.length_append, ← Nat.add_assoc]
    refine ⟨rfl, ?_, ?_⟩
    · show offset < (e.recordAt offset).endOffset
      omega
    · show Tiles (e.recordAt offset).endOffset _ _
      rw [hend]
      exact ih _

/-- Records lead from one length of the target to another, by way of the lengths before each. -/
inductive LengthsFollow : (start : Nat) → List Record → List Nat → (stop : Nat) → Prop
  | stop {length : Nat} : LengthsFollow length [] [] length
  | record {before next stop : Nat} {r : Record} {records : List Record} {lengths : List Nat}
      (leads : r.LeadsTo before next) (rest : LengthsFollow next records lengths stop) :
      LengthsFollow before (r :: records) (before :: lengths) stop

namespace LengthsFollow

variable {start middle stop : Nat} {records : List Record} {lengths : List Nat}

private theorem concat (h : LengthsFollow start records lengths middle) {r : Record}
    (hr : r.LeadsTo middle stop) :
    LengthsFollow start (records ++ [r]) (lengths ++ [middle]) stop := by
  induction h with
  | stop => exact .record hr .stop
  | record leads _ ih => exact .record leads (ih hr)

private theorem length_eq (h : LengthsFollow start records lengths stop) :
    lengths.length = records.length := by
  induction h with
  | stop => rfl
  | record _ _ ih => simp [ih]

private theorem getD_head (h : LengthsFollow start records lengths stop) :
    lengths[0]?.getD stop = start := by
  cases h <;> rfl

/-- Each record leads from the length before it to the next one, and the last to the final
length. -/
theorem leadsTo (h : LengthsFollow start records lengths stop) {i before : Nat} {r : Record}
    (hr : records[i]? = some r) (hbefore : lengths[i]? = some before) :
    r.LeadsTo before (lengths[i + 1]?.getD stop) := by
  induction h generalizing i with
  | stop => cases hr
  | record leads rest ih =>
    cases i with
    | zero =>
      cases hr
      cases hbefore
      rw [List.getElem?_cons_succ, rest.getD_head]
      exact leads
    | succ i => exact ih hr hbefore

end LengthsFollow

private theorem JournalBuilder.Holds.payloads_finish {b : JournalBuilder} {entries : List Entry}
    (h : b.Holds entries) : b.finish.payloads = entries.map Entry.payload := by
  show b.newest.reverse.map Prod.snd = _
  have hlen : (entries.map Entry.payload).length ≤
      (recordsFrom Layout.journalStart entries).length :=
    Nat.le_of_eq (by rw [length_recordsFrom, List.length_map])
  rw [h.newest_eq, List.map_snd_zip hlen]

/-- The bytes, records, payloads and lengths of one simulated journal begin with those of
another. -/
structure SimulatedJournal.Continues (g early : SimulatedJournal) : Prop where
  bytes : early.journal.bytes <+: g.journal.bytes
  records : early.journal.records <+: g.journal.records
  payloads : early.journal.payloads <+: g.journal.payloads
  lengthsBefore : early.lengthsBefore <+: g.lengthsBefore

namespace Simulation

variable {s late : Simulation} {initial : Bytes} {entries front back : List Entry}

/-- The records lead from the length of the first target to that of the target, by way of the
lengths noted. -/
def Follows (s : Simulation) (initial : Bytes) : Prop :=
  LengthsFollow initial.length s.builder.finish.records s.newestLengths.reverse s.target.length

private theorem follows_start (initial : Bytes) : Follows ⟨initial, .empty, []⟩ initial := .stop

private theorem Holds.follows_step (h : s.Holds initial entries)
    (hinitial : initial.length < maxInitialLength)
    (hcount : entries.length < JournalBuilder.capacity) {first : UInt8} {change : TargetChange}
    {after : Simulation} (hafter : s.step first change = some after)
    (hfollows : s.Follows initial) : after.Follows initial := by
  obtain ⟨next, e, hnext, hholds, hlengths, undo, heffect, hkind⟩ :=
    h.step hinitial hcount first change
  cases hafter.symm.trans hnext
  have hsmall : s.target.length + maxChunk < Layout.offsetLimit := by
    have hroom := h.add_maxChunk_lt hinitial (Nat.le_of_lt hcount)
    simp only [memoryLimit, Layout.offsetLimit, UInt64.size] at hroom ⊢
    omega
  unfold Follows at hfollows ⊢
  rw [hholds.builder.records_finish, recordsFrom_concat, hlengths, List.reverse_cons,
    ← h.builder.records_finish]
  exact hfollows.concat (heffect.leadsTo hsmall hkind)

/-- The records of a run lead to the length of the target after it. -/
theorem Holds.follows_run (h : s.Holds initial entries)
    (hinitial : initial.length < maxInitialLength) {changes : List TargetChange}
    (hcount : entries.length + changes.length ≤ JournalBuilder.capacity) {first : UInt8}
    (hrun : changes.foldlM (Simulation.step first) s = some late) (hfollows : s.Follows initial) :
    late.Follows initial := by
  induction changes generalizing s entries with
  | nil =>
    cases hrun
    exact hfollows
  | cons change rest ih =>
    obtain ⟨hfirst, hrest⟩ := room_of_cons hcount
    obtain ⟨next, e, hnext, hholds, -⟩ := h.step hinitial hfirst first change
    rw [List.foldlM_cons, hnext] at hrun
    exact ih hholds (hrest e) hrun (h.follows_step hinitial hfirst hnext hfollows)

private theorem newestLengths_of_step {first : UInt8} {change : TargetChange} {after : Simulation}
    (h : s.step first change = some after) :
    after.newestLengths = s.target.length :: s.newestLengths := by
  unfold Simulation.step at h
  obtain ⟨builder, -, rfl⟩ := Option.map_eq_some_iff.mp h
  rfl

private theorem newestLengths_suffix_of_run {first : UInt8} {changes : List TargetChange}
    (h : changes.foldlM (Simulation.step first) s = some late) :
    s.newestLengths <:+ late.newestLengths := by
  induction changes generalizing s with
  | nil =>
    cases h
    exact List.suffix_refl _
  | cons change rest ih =>
    rw [List.foldlM_cons] at h
    obtain ⟨next, hnext, hrest⟩ := Option.bind_eq_some_iff.mp h
    exact ((newestLengths_of_step hnext) ▸ List.suffix_cons _ _).trans (ih hrest)

/-- The journal of more entries continues that of the first ones. -/
theorem Holds.continues (h : s.Holds initial front) (hlate : late.Holds initial (front ++ back))
    (hlengths : s.newestLengths <:+ late.newestLengths) :
    (late.finish initial).Continues (s.finish initial) where
  bytes := by
    show s.builder.writer.storage.data <+: late.builder.writer.storage.data
    rw [h.builder.data_eq, hlate.builder.data_eq, ofEntries, ofEntries, imagesFrom_append,
      ← List.append_assoc]
    exact List.prefix_append _ _
  records := by
    show s.builder.finish.records <+: late.builder.finish.records
    rw [h.builder.records_finish, hlate.builder.records_finish, recordsFrom_append]
    exact List.prefix_append _ _
  payloads := by
    show s.builder.finish.payloads <+: late.builder.finish.payloads
    rw [h.builder.payloads_finish, hlate.builder.payloads_finish, List.map_append]
    exact List.prefix_append _ _
  lengthsBefore := List.reverse_prefix.mpr hlengths

end Simulation

/-- No change of a simulation is refused and no check of it fails. There is one record and one
length for each change; the records tile the journal, and each leads from the length before its
change to the next one, the last to the length of the final target. The first changes alone give a
prefix of all that is recorded. -/
theorem simulated_lengths_follow (length : Nat) (hlength : length < 2 ^ 62) (first : UInt8)
    (changes : List TargetChange) (hcount : changes.length < 2 ^ 40) :
    ∃ g, simulate? length first changes = some g ∧
      simulateChecked? length first changes = some g ∧
      g.journal.records.length = changes.length ∧ g.lengthsBefore.length = changes.length ∧
      Tiles Layout.journalStart (g.journal.records.map Record.span) g.journal.bytes.length ∧
      (∀ (i : Nat) (r : Record) (before : Nat), g.journal.records[i]? = some r →
        g.lengthsBefore[i]? = some before →
          r.LeadsTo before (g.lengthsBefore[i + 1]?.getD g.finalTarget.length)) ∧
      ∀ k, ∃ early, simulate? length first (changes.take k) = some early ∧ g.Continues early := by
  let initial := Simulation.initialTarget length first
  have hinitial : initial.length < Simulation.maxInitialLength :=
    Nat.lt_of_le_of_lt (Nat.le_of_eq (Simulation.length_initialTarget length first)) hlength
  have hcapacity : changes.length ≤ JournalBuilder.capacity := Nat.le_of_lt hcount
  have hroom : ([] : List Entry).length + changes.length ≤ JournalBuilder.capacity := by
    rwa [List.length_nil, Nat.zero_add]
  obtain ⟨s, entries, hrun, hholds, hentries⟩ :=
    (Simulation.holds_start initial).run hinitial changes hroom first
  rw [List.nil_append] at hholds
  have hfollows : s.Follows initial :=
    (Simulation.holds_start initial).follows_run hinitial hroom hrun
      (Simulation.follows_start initial)
  have hsimulate : simulate? length first changes = some (s.finish initial) := by
    rw [simulate?_eq, hrun, Option.map_some]
  have hrecords : s.builder.finish.records.length = changes.length := by
    rw [hholds.builder.records_finish, length_recordsFrom, hentries]
  refine ⟨s.finish initial, hsimulate, ?_, hrecords, hfollows.length_eq.trans hrecords, ?_, ?_, ?_⟩
  · rw [simulateChecked?_eq hlength hcapacity, hsimulate]
  · show Tiles _ (s.builder.finish.records.map Record.span) s.builder.writer.storage.data.length
    rw [hholds.builder.records_finish, hholds.builder.data_eq, length_ofEntries]
    exact tiles_recordsFrom _ entries
  · intro i r before hr hbefore
    exact hfollows.leadsTo hr hbefore
  · intro k
    obtain ⟨early, late, front, back, hearly, hlate, hwhole, hfront, hback, -⟩ :=
      Simulation.exists_run_take hinitial hcapacity first k
    cases hwhole.symm.trans hrun
    refine ⟨early.finish initial, ?_,
      hfront.continues hback (Simulation.newestLengths_suffix_of_run hlate)⟩
    rw [simulate?_eq, hearly, Option.map_some]

/-- A target of four bytes is written inside, cut to two bytes, and extended by four bytes, of which
the last record does not tell the number. -/
theorem simulated_lengths_follow_of_three :
    ∃ g r early, simulate? 4 7 [.overwrite 1 1, .truncate 2, .append 3] = some g ∧
      g.lengthsBefore = [4, 4, 2] ∧ g.journal.records[2]? = some r ∧ r.lengthAfter? 2 = none ∧
      r.LeadsTo 2 6 ∧ simulate? 4 7 [.overwrite 1 1, .truncate 2] = some early ∧
      g.Continues early := by
  obtain ⟨g, hg, -, -, -, -, hleads, htake⟩ := simulated_lengths_follow 4 (by decide) 7
    [.overwrite 1 1, .truncate 2, .append 3] (by decide)
  have hfacts : (simulate? 4 7 [.overwrite 1 1, .truncate 2, .append 3]).map (fun g =>
      (g.lengthsBefore, g.finalTarget.length,
        g.journal.records[2]?.map fun r => r.lengthAfter? 2)) =
        some ([4, 4, 2], 6, some none) := by decide +kernel
  rw [hg, Option.map_some, Option.some.injEq, Prod.mk.injEq, Prod.mk.injEq] at hfacts
  obtain ⟨hlengths, hfinal, hlast⟩ := hfacts
  obtain ⟨r, hr, hnone⟩ := Option.map_eq_some_iff.mp hlast
  have hleadsTo := hleads 2 r 2 hr (by rw [hlengths]; rfl)
  rw [hlengths, hfinal] at hleadsTo
  obtain ⟨early, hearly, hcontinues⟩ := htake 2
  exact ⟨g, r, early, hg, hlengths, hr, hnone, hleadsTo, hearly, hcontinues⟩

end UndoLog
