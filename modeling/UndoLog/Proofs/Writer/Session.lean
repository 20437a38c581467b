import UndoLog.Proofs.Report.Verification
import UndoLog.Proofs.Writer.Atomic

/-!
# Sessions of a writer

A session opens a storage and then writes records, flushes it, asks for its size and opens it anew,
in any order. Since every call is atomic, the bytes are none or a journal that passes verification
after each of them, whatever calls of the storage fail.

UndoJournal specification: section 5.8.
-/

namespace UndoLog

open Journal

/-- The call writes a record with a leap second as timestamp. -/
def WriterCall.IsLeap : WriterCall → Prop
  | .record _ timestamp => timestamp.IsLeap
  | .create | .flush | .size => False

namespace Writer

section AnyStorage

variable {σ : Type} [Storage σ]

private theorem eq_or_mem_of_mem_session {w : Writer σ} {call : WriterCall} {rest : List WriterCall}
    {t : WriterTransition σ} (ht : t ∈ w.session (call :: rest)) :
    t = ⟨w, call, (w.perform call).1, (w.perform call).2⟩ ∨
      (∀ error, (w.perform call).1 ≠ .create (.error error)) ∧
        t ∈ (w.perform call).2.session rest := by
  rw [session] at ht
  rcases List.mem_cons.mp ht with hfirst | hrest
  · exact .inl hfirst
  · dsimp only at hrest
    split at hrest
    · cases hrest
    · next hopen => exact .inr ⟨hopen, hrest⟩

end AnyStorage

end Writer

namespace WriterTransition

variable {σ : Type} [TruthfulStorage σ]

/-- The call has its effect as a whole or not at all. -/
def IsAtomic (t : WriterTransition σ) : Prop :=
  match t.call, t.answer with
  | .create, .create result => t.before.CreateEffect result t.after
  | .record step timestamp, .record result =>
    t.before.RecordEffect step timestamp result t.after
  | .flush, .flush result => t.before.FlushEffect result t.after
  | .size, .size result => t.before.SizeEffect result t.after
  | _, _ => False

end WriterTransition

namespace Writer

open TruthfulStorage

variable {σ : Type} [TruthfulStorage σ] {w : Writer σ}

/-- The storage is truthful and holds the journal of some entries. -/
def HoldsJournal (w : Writer σ) : Prop :=
  IsTruthful w.storage ∧ ∃ entries, bytes w.storage = ofEntries entries

/-- A call over a journal is atomic and leaves a journal. -/
theorem HoldsJournal.perform (h : w.HoldsJournal) {call : WriterCall} (hleap : ¬ call.IsLeap) :
    (⟨w, call, (w.perform call).1, (w.perform call).2⟩ : WriterTransition σ).IsAtomic ∧
      (w.perform call).2.HoldsJournal := by
  obtain ⟨hw, entries, hbytes⟩ := h
  have hstart := journalStart_le_length_ofEntries entries
  cases call with
  | create =>
    obtain ⟨htruthful, heffect⟩ := createEffect_create hw (.inr (hbytes ▸ hstart))
    refine ⟨heffect, htruthful, entries, ?_⟩
    rw [← hbytes]
    apply heffect.unchanged
    rintro ⟨hempty, -⟩
    rw [← hbytes, hempty] at hstart
    cases hstart
  | record step timestamp =>
    obtain ⟨htruthful, heffect⟩ := recordEffect_record hw step timestamp
    refine ⟨heffect, htruthful, ?_⟩
    by_cases hcan : w.CanAppend step timestamp
    · obtain ⟨image, hencode, happended⟩ := heffect.appended hcan
      let e := hcan.1.entry hleap
      have himage := Record.image_congr (e.recordAt (ofEntries entries).length) e.payload
        ⟨(ofEntries entries).length, timestamp, step.kind⟩ rfl timestamp.micros_truncateToMicros rfl
      refine ⟨entries ++ [e], happended.trans ?_⟩
      rw [(Record.encode_eq_ok_iff.mp hencode).2, hbytes, ofEntries_concat]
      exact congrArg _ himage.symm
    · exact ⟨entries, (heffect.unchanged hcan).trans hbytes⟩
  | flush =>
    obtain ⟨htruthful, heffect⟩ := flushEffect_flush hw
    exact ⟨heffect, htruthful, entries, heffect.unchanged.trans hbytes⟩
  | size =>
    obtain ⟨htruthful, heffect⟩ := sizeEffect_size hw
    exact ⟨heffect, htruthful, entries, heffect.unchanged.trans hbytes⟩

/-- Every call of a session over a journal is atomic and leaves a journal. -/
theorem HoldsJournal.session (h : w.HoldsJournal) {calls : List WriterCall}
    (hleap : ∀ call ∈ calls, ¬ call.IsLeap) :
    ∀ t ∈ w.session calls, t.IsAtomic ∧ t.after.HoldsJournal := by
  induction calls generalizing w with
  | nil => exact fun t ht => absurd ht List.not_mem_nil
  | cons call rest ih =>
    have hfirst := h.perform (hleap call List.mem_cons_self)
    have hrest := ih hfirst.2 fun c hc => hleap c (List.mem_cons_of_mem call hc)
    intro t ht
    rcases eq_or_mem_of_mem_session ht with rfl | ⟨-, ht⟩
    · exact hfirst
    · exact hrest t ht

/-- There are no bytes, or the journal of entries, which passes verification. -/
def IsSound (journal : Bytes) : Prop :=
  journal = [] ∨ (∃ entries, journal = ofEntries entries) ∧
    ∃ v, verifyJournal (⟨journal⟩ : MemoryStorage) = (.ok v, ⟨journal⟩) ∧ v.defect? = none

private theorem isSound_ofEntries (entries : List Entry) : IsSound (ofEntries entries) :=
  .inr ⟨⟨entries, rfl⟩, _, verifyJournal_ofEntries entries, rfl⟩

/-- A writer over a journal has sound bytes. -/
theorem HoldsJournal.isSound (h : w.HoldsJournal) : IsSound (bytes w.storage) := by
  obtain ⟨-, entries, hbytes⟩ := h
  rw [hbytes]
  exact isSound_ofEntries entries

/-- An empty storage that is opened holds a journal, unless the opening fails and leaves it
empty. -/
theorem holdsJournal_or_error_of_create (hw : IsTruthful w.storage)
    (hempty : bytes w.storage = []) :
    (w.perform .create).2.HoldsJournal ∨
      bytes (w.perform .create).2.storage = [] ∧
        ∃ error, (w.perform .create).1 = .create (.error error) := by
  obtain ⟨htruthful, heffect⟩ := createEffect_create hw (.inl hempty)
  by_cases hcan : w.CanAppendMagic
  · exact .inl ⟨htruthful, [], heffect.appended hcan⟩
  · have hunchanged := heffect.unchanged hcan
    refine .inr ⟨hunchanged.trans hempty, ?_⟩
    cases hresult : (create w.syncOnWrite w.storage).1 with
    | error error => exact ⟨error, congrArg WriterAnswer.create hresult⟩
    | ok value =>
      rcases heffect.isOk_iff.mp hresult with ⟨hbytes, -⟩ | ⟨happended, -⟩
      · exact absurd hempty hbytes
      · exact absurd happended hcan

/-- Every call of a session that begins on an empty storage or on a journal is carried out as a
whole or not at all, and leaves no bytes or a journal that passes verification. -/
private theorem session_create (hw : IsTruthful w.storage)
    (hbytes : bytes w.storage = [] ∨ ∃ entries, bytes w.storage = ofEntries entries)
    {calls : List WriterCall} (hleap : ∀ call ∈ calls, ¬ call.IsLeap) :
    ∀ t ∈ w.session (.create :: calls), t.IsAtomic ∧ IsSound (bytes t.after.storage) := by
  intro t ht
  rcases hbytes with hempty | hjournal
  · have heffect := (createEffect_create hw (.inl hempty)).2
    have hopened := holdsJournal_or_error_of_create hw hempty
    rcases eq_or_mem_of_mem_session ht with rfl | ⟨hopen, ht⟩
    · refine ⟨heffect, ?_⟩
      rcases hopened with h | ⟨hnone, -⟩
      · exact h.isSound
      · exact .inl hnone
    · rcases hopened with h | ⟨-, error, herror⟩
      · obtain ⟨hatomic, hafter⟩ := h.session hleap t ht
        exact ⟨hatomic, hafter.isSound⟩
      · exact absurd herror (hopen error)
  · have hcalls : ∀ call ∈ WriterCall.create :: calls, ¬ call.IsLeap :=
      List.forall_mem_cons.mpr ⟨id, hleap⟩
    obtain ⟨hatomic, hafter⟩ := HoldsJournal.session ⟨hw, hjournal⟩ hcalls t ht
    exact ⟨hatomic, hafter.isSound⟩

end Writer

/-- Whatever calls fail, in memory or on a schedule, over a storage that is empty or holds a
journal, every call of a writer is atomic and leaves no bytes or a journal that passes
verification. -/
theorem writer_keeps_journal (syncOnWrite : Bool) {calls : List WriterCall}
    (hleap : ∀ call ∈ calls, ¬ call.IsLeap) :
    (∀ storage : MemoryStorage,
      (storage.data = [] ∨ ∃ entries, storage.data = ofEntries entries) →
        ∀ t ∈ Writer.session (.create :: calls) ⟨storage, syncOnWrite⟩,
          t.IsAtomic ∧ Writer.IsSound t.after.storage.data) ∧
    (∀ storage : FaultyStorage, storage.plan.claimedSize? = none →
      (storage.data = [] ∨ ∃ entries, storage.data = ofEntries entries) →
        ∀ t ∈ Writer.session (.create :: calls) ⟨storage, syncOnWrite⟩,
          t.IsAtomic ∧ Writer.IsSound t.after.storage.data) := by
  constructor
  · intro storage hbytes
    exact Writer.session_create trivial hbytes hleap
  · intro storage hplan hbytes
    exact Writer.session_create hplan hbytes hleap

/-- A session whose second append and second flush fail: the first record is not appended, the
second is appended and not returned, and the third follows it after the storage was opened anew. -/
theorem writer_keeps_journal_of_faults :
    let epoch : Timestamp := ⟨0, 0, by decide, by decide⟩
    let write : WriterCall := .record (.write 3 [1, 2]) epoch
    let session := Writer.session [.create, write, write, .create, write]
      ⟨{ data := [], plan := { appends := [1], flushes := [1] } : FaultyStorage }, true⟩
    session.map (fun t => t.after.storage.data.length) = [8, 8, 37, 37, 66] ∧
      ∀ t ∈ session, t.IsAtomic ∧ Writer.IsSound t.after.storage.data := by
  intro epoch write session
  have hleap : ∀ call ∈ [write, write, .create, write], ¬ call.IsLeap := by
    simp [write, epoch, WriterCall.IsLeap, Timestamp.IsLeap]
  refine ⟨by decide +kernel, ?_⟩
  exact (writer_keeps_journal true hleap).2 _ rfl (.inl rfl)

end UndoLog
