import Mathlib.Data.List.Forall2
import UndoLog.Proofs.Reader.Undo
import UndoLog.Proofs.Simulation.Target

/-!
# What a simulation has done

After some changes a simulation holds the journal of as many entries. Each entry fits the length
that was noted before its change, and undoing the entries, newest first, leads back to the first
target. No change is refused as long as the clock has time, because journal and target together grow
by no more than a fixed number of bytes with every change.
-/

namespace UndoLog

open Journal

namespace Simulation

/-- The most bytes that a change adds to journal and target together. -/
def growth : Nat := Layout.maxHeaderLength + Layout.trailerLength + maxChunk

/-- The length of a first target below which no change is refused. -/
def maxInitialLength : Nat := 2 ^ 62

/-- A simulation has come from `initial` by the changes that `entries` undo. Each entry fits the
length of the target before its change, and journal and target have grown by at most `growth` bytes
a change. -/
structure Holds (s : Simulation) (initial : Bytes) (entries : List Entry) : Prop where
  builder : s.builder.Holds entries
  fitsTarget : List.Forall₂ (fun e length => e.kind.FitsTarget length) entries.reverse
    s.newestLengths
  undo_eq : undoEntries? entries.reverse s.target = some initial
  length_le : (ofEntries entries).length + s.target.length ≤
    Layout.journalStart + initial.length + growth * entries.length

/-- A simulation starts from its target with no entries. -/
theorem holds_start (initial : Bytes) : Holds ⟨initial, .empty, []⟩ initial [] where
  builder := JournalBuilder.holds_empty
  fitsTarget := .nil
  undo_eq := rfl
  length_le := by
    show Layout.journalStart + initial.length ≤ _
    omega

variable {s : Simulation} {initial : Bytes} {entries : List Entry}

/-- Journal and target stay far below the offset limit while the clock has time. -/
theorem Holds.length_lt (h : s.Holds initial entries) (hinitial : initial.length < maxInitialLength)
    (hcount : entries.length ≤ JournalBuilder.capacity) :
    (ofEntries entries).length + s.target.length < 2 ^ 63 := by
  have hle := h.length_le
  simp only [maxInitialLength, JournalBuilder.capacity, Layout.journalStart] at *
  have hgrowth : growth = 297 := rfl
  rw [hgrowth] at hle
  omega

/-- A change adds the entry of its effect, while the clock has time. -/
theorem Holds.step (h : s.Holds initial entries) (hinitial : initial.length < maxInitialLength)
    (hcount : entries.length < JournalBuilder.capacity) (first : UInt8) (change : TargetChange) :
    ∃ after, ∃ e : Entry, s.step first change = some after ∧ after.Holds initial (entries ++ [e]) ∧
      after.newestLengths = s.target.length :: s.newestLengths ∧
      ∃ undo, TargetChange.Effect s.target undo after.target ∧ e.kind = undo.kind := by
  have hsmall : s.target.length + maxChunk < Layout.offsetLimit := by
    have hlt := h.length_lt hinitial (Nat.le_of_lt hcount)
    simp only [maxChunk, Layout.offsetLimit, UInt64.size]
    omega
  have heffect := change.effect_apply (stamp first s.newestLengths.length) s.target
  unfold Simulation.step
  generalize change.apply (stamp first s.newestLengths.length) s.target = result at heffect ⊢
  obtain ⟨undo, target⟩ := result
  dsimp only at heffect ⊢
  obtain ⟨e, builder, hadd, hholds, hkind, hpayload⟩ :=
    h.builder.add (heffect.isWritable hsmall) hcount
  rw [hadd]
  refine ⟨_, e, rfl, ?_, rfl, undo, heffect, hkind⟩
  constructor
  · exact hholds
  · rw [List.reverse_concat]
    exact .cons (hkind ▸ heffect.fitsTarget hsmall) h.fitsTarget
  · have hundo : e.undo? target = some s.target := by
      unfold Entry.undo?
      rw [hpayload]
      exact heffect.undo?_eq hsmall hkind
    rw [List.reverse_concat, undoEntries?, List.foldlM_cons]
    dsimp only
    rw [hundo]
    exact h.undo_eq
  · have hgrow := heffect.length_le
    have hbefore := h.length_le
    have hheader := e.kind.headerLength_le
    have himage : (e.image (ofEntries entries).length).length =
        e.kind.headerLength + e.payload.length + Layout.trailerLength := by
      rw [e.length_image, e.length_payload]
      rfl
    rw [ofEntries_concat, List.length_append, List.length_append, List.length_singleton,
      Nat.mul_add, himage, hpayload]
    dsimp only
    simp only [growth] at hbefore ⊢
    omega

/-- Room for some changes is room for the first and then for the others. -/
theorem room_of_cons {change : TargetChange} {rest : List TargetChange}
    (h : entries.length + (change :: rest).length ≤ JournalBuilder.capacity) :
    entries.length < JournalBuilder.capacity ∧
      ∀ e : Entry, (entries ++ [e]).length + rest.length ≤ JournalBuilder.capacity := by
  simp only [List.length_append, List.length_cons, List.length_nil] at h ⊢
  exact ⟨by omega, fun _ => by omega⟩

/-- A run adds one entry for each change, while the clock has time. -/
theorem Holds.run (h : s.Holds initial entries) (hinitial : initial.length < maxInitialLength)
    (changes : List TargetChange)
    (hcount : entries.length + changes.length ≤ JournalBuilder.capacity) (first : UInt8) :
    ∃ after, ∃ more : List Entry, changes.foldlM (Simulation.step first) s = some after ∧
      after.Holds initial (entries ++ more) ∧ more.length = changes.length := by
  induction changes generalizing s entries with
  | nil => exact ⟨s, [], rfl, (List.append_nil entries).symm ▸ h, rfl⟩
  | cons change rest ih =>
    obtain ⟨hfirst, hrest⟩ := room_of_cons hcount
    obtain ⟨next, e, hnext, hholds, -⟩ := h.step hinitial hfirst first change
    obtain ⟨after, more, hafter, hmore, hlen⟩ := ih hholds (hrest e)
    refine ⟨after, e :: more, ?_, ?_, ?_⟩
    · rw [List.foldlM_cons, hnext]
      exact hafter
    · rw [List.append_assoc] at hmore
      exact hmore
    · rw [List.length_cons, List.length_cons, hlen]

end Simulation

/-- A simulated journal is that of `entries`, each of which fits the length of the target before its
change and which take the last target back to the first. -/
structure SimulatedJournal.Holds (g : SimulatedJournal) (entries : List Entry) : Prop where
  bytes_eq : g.journal.bytes = ofEntries entries
  records_eq : g.journal.records = recordsFrom Layout.journalStart entries
  isStored : ∀ e ∈ entries, e.IsStored
  fitsTarget : List.Forall₂ (fun e length => e.kind.FitsTarget length) entries g.lengthsBefore
  undo_eq : undoEntries? entries.reverse g.finalTarget = some g.initialTarget
  length_lt : g.journal.bytes.length < Layout.offsetLimit

/-- A finished run is a simulated journal of its entries. -/
theorem Simulation.Holds.simulated {s : Simulation} {initial : Bytes} {entries : List Entry}
    (h : s.Holds initial entries) (hinitial : initial.length < maxInitialLength)
    (hcount : entries.length ≤ JournalBuilder.capacity) :
    SimulatedJournal.Holds
      { journal := s.builder.finish
        lengthsBefore := s.newestLengths.reverse
        initialTarget := initial
        finalTarget := s.target } entries := by
  constructor
  · exact h.builder.data_eq
  · exact h.builder.records_finish
  · exact h.builder.isStored
  · rw [← List.forall₂_reverse_iff, List.reverse_reverse]
    exact h.fitsTarget
  · exact h.undo_eq
  · show s.builder.writer.storage.data.length < _
    have hlt := h.length_lt hinitial hcount
    rw [h.builder.data_eq]
    simp only [Layout.offsetLimit, UInt64.size]
    omega

/-- A new target has the given length. -/
theorem Simulation.length_initialTarget (length : Nat) (first : UInt8) :
    (initialTarget length first).length = length := by
  rw [initialTarget, List.length_map, List.length_range]

/-- While the clock has time a run succeeds, and so does every prefix of it. -/
theorem Simulation.exists_run_take {initial : Bytes} {changes : List TargetChange}
    (hinitial : initial.length < maxInitialLength)
    (hcount : changes.length ≤ JournalBuilder.capacity) (first : UInt8) (k : Nat) :
    ∃ early late : Simulation, ∃ front back : List Entry,
      (changes.take k).foldlM (Simulation.step first) ⟨initial, .empty, []⟩ = some early ∧
      (changes.drop k).foldlM (Simulation.step first) early = some late ∧
      changes.foldlM (Simulation.step first) ⟨initial, .empty, []⟩ = some late ∧
      early.Holds initial front ∧ late.Holds initial (front ++ back) ∧
      front.length = min k changes.length ∧ back.length = changes.length - k := by
  obtain ⟨early, front, hearly, hfront, hfrontLength⟩ :=
    (holds_start initial).run hinitial (changes.take k) (by
      rw [List.length_nil, List.length_take]
      omega) first
  rw [List.length_take] at hfrontLength
  obtain ⟨late, back, hlate, hback, hbackLength⟩ :=
    hfront.run hinitial (changes.drop k) (by
      rw [List.length_append, List.length_nil, List.length_drop]
      omega) first
  rw [List.length_drop] at hbackLength
  rw [List.nil_append] at hfront hback
  refine ⟨early, late, front, back, hearly, hlate, ?_, hfront, hback, hfrontLength, hbackLength⟩
  rw [← List.take_append_drop k changes, List.foldlM_append, hearly]
  exact hlate

/-- A simulation succeeds, and its first changes alone give the first entries. -/
theorem exists_simulate?_take {length : Nat} {changes : List TargetChange}
    (hlength : length < 2 ^ 62) (hcount : changes.length < 2 ^ 40) (first : UInt8) (k : Nat) :
    ∃ g early : SimulatedJournal, ∃ front back : List Entry,
      simulate? length first changes = some g ∧ g.Holds (front ++ back) ∧
      simulate? length first (changes.take k) = some early ∧ early.Holds front ∧
      front.length = min k changes.length ∧ back.length = changes.length - k ∧
      early.initialTarget = g.initialTarget := by
  have hinitial : (Simulation.initialTarget length first).length < Simulation.maxInitialLength :=
    Nat.lt_of_le_of_lt (Nat.le_of_eq (Simulation.length_initialTarget length first)) hlength
  have hcapacity : changes.length ≤ JournalBuilder.capacity := Nat.le_of_lt hcount
  obtain ⟨early, late, front, back, hearly, -, hlate, hfront, hback, hfrontLength, hbackLength⟩ :=
    Simulation.exists_run_take hinitial hcapacity first k
  refine ⟨_, _, front, back, ?_, hback.simulated hinitial ?_, ?_, hfront.simulated hinitial ?_,
    hfrontLength, hbackLength, rfl⟩
  · simp only [simulate?, hlate, Option.map_some]
  · rw [List.length_append]
    omega
  · simp only [simulate?, hearly, Option.map_some]
  · omega

end UndoLog
