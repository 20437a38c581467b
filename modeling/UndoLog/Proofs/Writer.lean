import UndoLog.Proofs.Journal.Grammar
import UndoLog.Writer

/-!
# Writing entries

A writer refuses a step that no record can hold, whatever its storage does. Over memory it accepts
every other step, and what it appends is an entry: a record at the end of the bytes, with the
timestamp cut to microseconds. So what a writer has accepted on a fresh journal are entries: their
bytes are the journal, and their records are what was returned.
-/

namespace UndoLog

open Journal

/-- Outside leap seconds a timestamp truncated to microseconds is stored. -/
theorem Timestamp.isStored_truncateToMicros {t : Timestamp} (h : ¬ t.IsLeap) :
    t.truncateToMicros.IsStored := by
  unfold IsStored
  rw [micros_truncateToMicros, ofMicros?_micros h]

namespace BuilderStep

variable {step : BuilderStep}

/-- A record can hold what a step saves: the payload has the declared length, and a write ends below
the offset limit. -/
structure IsWritable (step : BuilderStep) : Prop where
  length_payload : step.payload.length = step.kind.dataLength
  fitsOffsets : step.kind.FitsOffsets

instance : DecidablePred IsWritable := fun step =>
  decidable_of_iff (step.payload.length = step.kind.dataLength ∧ step.kind.FitsOffsets)
    ⟨fun h => ⟨h.1, h.2⟩, fun h => ⟨h.1, h.2⟩⟩

private theorem isWritable_write_iff {targetOffset : UInt64} {preImage : Bytes} :
    (write targetOffset preImage).IsWritable ↔
      preImage.length < UInt32.size ∧
        targetOffset.toNat + preImage.length < Layout.offsetLimit := by
  constructor
  · rintro ⟨hp, hfits⟩
    have hlength : preImage.length = (UInt32.ofNat preImage.length).toNat := hp
    have hend : targetOffset.toNat + (UInt32.ofNat preImage.length).toNat < Layout.offsetLimit :=
      hfits
    have hlt := UInt32.toNat_lt_size (UInt32.ofNat preImage.length)
    omega
  · rintro ⟨hlt, hend⟩
    have hlength : (UInt32.ofNat preImage.length).toNat = preImage.length :=
      UInt32.toNat_ofNat_of_lt' hlt
    constructor
    · exact hlength.symm
    · show targetOffset.toNat + (UInt32.ofNat preImage.length).toNat < Layout.offsetLimit
      omega

/-- The entry written for a step. -/
def IsWritable.entry (h : step.IsWritable) {timestamp : Timestamp} (hleap : ¬ timestamp.IsLeap) :
    Entry where
  timestamp := timestamp.truncateToMicros
  kind := step.kind
  payload := step.payload
  length_payload := h.length_payload
  fitsOffsets := h.fitsOffsets
  decodable := by
    rw [show Timestamp.ofMicros? timestamp.truncateToMicros.micros = _ from
      Timestamp.isStored_truncateToMicros hleap]
    rfl

/-- The entry written for a step is stored. -/
theorem IsWritable.isStored_entry (h : step.IsWritable) {timestamp : Timestamp}
    (hleap : ¬ timestamp.IsLeap) : (h.entry hleap).IsStored :=
  Timestamp.isStored_truncateToMicros hleap

end BuilderStep

namespace Writer

section AnyStorage

variable {σ : Type} [Storage σ] {w : Writer σ} {step : BuilderStep} {payload : Bytes}

private theorem recordWrite_eq {targetOffset : UInt64} (hlength : payload.length < UInt32.size)
    (hfits : targetOffset.toNat + payload.length < Layout.offsetLimit) (timestamp : Timestamp) :
    w.recordWrite targetOffset payload timestamp =
      w.appendRecord (.write targetOffset (UInt32.ofNat payload.length)) timestamp payload := by
  unfold recordWrite
  rw [if_neg (by omega), if_neg (by omega)]

/-- A writable step is appended. -/
theorem record_of_isWritable (h : step.IsWritable) (timestamp : Timestamp) :
    w.record step timestamp = w.appendRecord step.kind timestamp step.payload := by
  cases step with
  | write targetOffset preImage =>
    obtain ⟨hlength, hfits⟩ := BuilderStep.isWritable_write_iff.mp h
    exact recordWrite_eq hlength hfits timestamp
  | length oldLength newLength tail => rfl

/-- A step that is not writable is refused after at most a size call. -/
theorem record_of_not_isWritable (h : ¬ step.IsWritable) (timestamp : Timestamp) :
    ∃ error, w.record step timestamp = (.error error, w) ∨
      w.record step timestamp =
        (.error error, { w with storage := (Storage.size w.storage).2 }) := by
  cases step with
  | write targetOffset preImage =>
    rw [BuilderStep.isWritable_write_iff] at h
    by_cases hlength : UInt32.size ≤ preImage.length
    · exact ⟨_, .inl (if_pos hlength)⟩
    · have hend : Layout.offsetLimit ≤ targetOffset.toNat + preImage.length := by omega
      exact ⟨_, .inl ((if_neg hlength).trans (if_pos hend))⟩
  | length oldLength newLength tail =>
    have hp : ¬ tail.length = (RecordKind.length oldLength newLength).dataLength :=
      fun hp => h ⟨hp, trivial⟩
    have hencode (offset : Nat) :
        (⟨offset, timestamp.truncateToMicros, .length oldLength newLength⟩ : Record).encode tail =
          .error (.invalidArgument (.payloadLength .length
            (RecordKind.length oldLength newLength).dataLength tail.length)) := if_neg hp
    unfold record recordLength appendRecord
    cases hsize : Storage.size w.storage with
    | mk result storage =>
      cases result with
      | error error => exact ⟨_, .inr rfl⟩
      | ok size =>
        dsimp only
        rw [hencode]
        exact ⟨_, .inr rfl⟩

end AnyStorage

variable {w after : Writer MemoryStorage} {kind : RecordKind} {payload : Bytes}
  {step : BuilderStep} {timestamp : Timestamp} {calls : List (BuilderStep × Timestamp)}
  {entries : List Entry}

/-- Over memory an append adds the encoding of the record. -/
theorem appendRecord_memory (h : payload.length = kind.dataLength) (timestamp : Timestamp) :
    w.appendRecord kind timestamp payload =
      let record : Record := ⟨w.storage.data.length, timestamp.truncateToMicros, kind⟩
      (.ok record, { w with storage := ⟨w.storage.data ++ record.image payload⟩ }) := by
  have hsize : Storage.size w.storage = (.ok w.storage.data.length, w.storage) := rfl
  have happend (bytes : Bytes) : Storage.append w.storage bytes =
      (.ok w.storage.data.length, ⟨w.storage.data ++ bytes⟩) := rfl
  have hsync (storage : MemoryStorage) : sync w.syncOnWrite storage = (.ok (), storage) := by
    unfold sync
    split <;> rfl
  have hencode (offset : Nat) (t : Timestamp) :
      (⟨offset, t, kind⟩ : Record).encode payload =
        .ok ((⟨offset, t, kind⟩ : Record).image payload) :=
    Record.encode_eq_ok_iff.mpr ⟨h, rfl⟩
  unfold appendRecord
  simp only [hsize, hencode, happend, hsync]

private theorem appendRecord_ofEntries {entries : List Entry}
    (hw : w.storage.data = ofEntries entries)
    (e : Entry) {timestamp : Timestamp} (htime : timestamp.truncateToMicros = e.timestamp) :
    w.appendRecord e.kind timestamp e.payload =
      (.ok (e.recordAt (ofEntries entries).length),
        { w with storage := ⟨ofEntries (entries ++ [e])⟩ }) := by
  rw [appendRecord_memory e.length_payload]
  dsimp only
  rw [hw, htime, ofEntries_concat]
  rfl

/-- A fresh journal has no entries. -/
theorem data_fresh (syncOnWrite : Bool) : (fresh syncOnWrite).storage.data = ofEntries [] := by
  cases syncOnWrite <;> decide

/-- Over memory a writable step appends its entry. -/
theorem record_ofEntries (hw : w.storage.data = ofEntries entries) (h : step.IsWritable)
    (hleap : ¬ timestamp.IsLeap) :
    w.record step timestamp =
      (.ok ((h.entry hleap).recordAt (ofEntries entries).length),
        { w with storage := ⟨ofEntries (entries ++ [h.entry hleap])⟩ }) := by
  rw [record_of_isWritable h]
  exact appendRecord_ofEntries hw (h.entry hleap) rfl

/-- Over memory a writer accepts exactly the writable steps. -/
theorem record_memory_isOk_iff :
    (∃ record after, w.record step timestamp = (.ok record, after)) ↔ step.IsWritable := by
  constructor
  · rintro ⟨record, after, hrecord⟩
    by_contra h
    obtain ⟨error, herror | herror⟩ := record_of_not_isWritable (w := w) h timestamp
    · rw [herror] at hrecord
      cases hrecord
    · rw [herror] at hrecord
      cases hrecord
  · intro h
    rw [record_of_isWritable h, appendRecord_memory h.length_payload]
    exact ⟨_, _, rfl⟩

/-- Accepted steps append stored entries with their payloads. -/
theorem recordAll?_ofEntries {records : List Record} (hw : w.storage.data = ofEntries entries)
    (hleap : ∀ call ∈ calls, ¬ call.2.IsLeap) (h : w.recordAll? calls = some (records, after)) :
    ∃ more : List Entry, (∀ e ∈ more, e.IsStored) ∧
      after.storage.data = ofEntries (entries ++ more) ∧
      records = recordsFrom (ofEntries entries).length more ∧
      more.map Entry.payload = calls.map fun call => call.1.payload := by
  induction calls generalizing w entries records with
  | nil =>
    cases h
    exact ⟨[], fun _ he => absurd he List.not_mem_nil, by rw [List.append_nil]; exact hw, rfl, rfl⟩
  | cons call rest ih =>
    obtain ⟨step, timestamp⟩ := call
    have hfirst : ¬ timestamp.IsLeap := hleap _ List.mem_cons_self
    rw [recordAll?] at h
    split at h
    · cases h
    · next record next hrecord =>
      have hstep : step.IsWritable := record_memory_isOk_iff.mp ⟨record, next, hrecord⟩
      let e := hstep.entry hfirst
      rw [record_ofEntries hw hstep hfirst, Prod.mk.injEq, Except.ok.injEq] at hrecord
      obtain ⟨rfl, rfl⟩ := hrecord
      obtain ⟨⟨others, last⟩, hlast, hrecords⟩ := Option.map_eq_some_iff.mp h
      cases hrecords
      have hnext : ({ w with storage := ⟨ofEntries (entries ++ [e])⟩ } :
          Writer MemoryStorage).storage.data = ofEntries (entries ++ [e]) := rfl
      obtain ⟨more, hstored, hdata, rfl, hpayloads⟩ :=
        ih hnext (fun call hcall => hleap call (List.mem_cons_of_mem _ hcall)) hlast
      refine ⟨e :: more, ?_, ?_, ?_, ?_⟩
      · intro x hx
        rcases List.mem_cons.mp hx with rfl | hx
        · exact hstep.isStored_entry hfirst
        · exact hstored x hx
      · rw [hdata, List.append_assoc]
        rfl
      · rw [recordsFrom, ofEntries_concat, List.length_append]
      · rw [List.map_cons, List.map_cons, hpayloads]
        rfl

end Writer
end UndoLog
