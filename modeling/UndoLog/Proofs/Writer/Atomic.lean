import UndoLog.Proofs.Storage.Faulty
import UndoLog.Proofs.Writer

/-!
# Calls of a writer are atomic

On a truthful storage a writer appends a whole record, or the reserved bytes, or leaves the bytes as
they are, whichever call of the storage fails. A record that is appended is returned, unless the
flush that follows fails.
-/

namespace UndoLog.Writer

open TruthfulStorage

variable {σ : Type} [TruthfulStorage σ]

/-- The writer does not synchronise, or the flush succeeds. -/
def CanSync (syncOnWrite : Bool) (storage : σ) : Prop :=
  syncOnWrite = false ∨ (Storage.flush storage).1.isOk

/-- Synchronising keeps the bytes and succeeds iff the writer can synchronise. -/
theorem sync_spec {storage : σ} (h : IsTruthful storage) (syncOnWrite : Bool) :
    IsTruthful (sync syncOnWrite storage).2 ∧
      bytes (sync syncOnWrite storage).2 = bytes storage ∧
      ((sync syncOnWrite storage).1 = .ok () ↔ CanSync syncOnWrite storage) := by
  obtain ⟨htruthful, hbytes⟩ := flush_spec storage h
  unfold sync CanSync
  cases syncOnWrite with
  | false => simp [h]
  | true =>
    cases hflush : Storage.flush storage with
    | mk result after =>
      rw [hflush] at htruthful hbytes
      cases result <;> simp [htruthful, hbytes]

/-! ### Records -/

/-- The record written for a step at the end of the bytes. -/
def nextRecord (w : Writer σ) (step : BuilderStep) (timestamp : Timestamp) : Record :=
  ⟨(bytes w.storage).length, timestamp.truncateToMicros, step.kind⟩

/-- The append of the next record, after a size call. -/
def appendNext (w : Writer σ) (step : BuilderStep) (timestamp : Timestamp) : StorageResult σ Nat :=
  Storage.append (Storage.size w.storage).2 ((w.nextRecord step timestamp).image step.payload)

/-- The step is writable, the size is told, and the record is appended. -/
def CanAppend (w : Writer σ) (step : BuilderStep) (timestamp : Timestamp) : Prop :=
  step.IsWritable ∧ (Storage.size w.storage).1.isOk ∧ (w.appendNext step timestamp).1.isOk

/-- The effect of a record call. It appends the encoding of the record at the previous length if it
can append, and nothing else; it succeeds exactly if it also synchronised; the record it returns
lies between the previous length and the new one. -/
structure RecordEffect (w : Writer σ) (step : BuilderStep) (timestamp : Timestamp)
    (result : Except JournalError Record) (after : Writer σ) : Prop where
  appended : w.CanAppend step timestamp →
    ∃ image,
      (⟨(bytes w.storage).length, timestamp, step.kind⟩ : Record).encode step.payload =
          .ok image ∧
        bytes after.storage = bytes w.storage ++ image
  unchanged : ¬ w.CanAppend step timestamp → bytes after.storage = bytes w.storage
  isOk_iff : (∃ record, result = .ok record) ↔
    w.CanAppend step timestamp ∧ CanSync w.syncOnWrite (w.appendNext step timestamp).2
  record_eq : ∀ record, result = .ok record →
    record = w.nextRecord step timestamp ∧
      record.journalOffset = (bytes w.storage).length ∧
      record.endOffset = (bytes after.storage).length

variable {w after : Writer σ} {step : BuilderStep} {timestamp : Timestamp}

private theorem record_eq_of_isWritable (hw : IsTruthful w.storage) (h : step.IsWritable) :
    w.record step timestamp =
      match (Storage.size w.storage).1 with
      | .error error => (.error (.storage error), { w with storage := (Storage.size w.storage).2 })
      | .ok _ =>
        match (w.appendNext step timestamp).1 with
        | .error error =>
          (.error (.storage error), { w with storage := (w.appendNext step timestamp).2 })
        | .ok _ =>
          match sync w.syncOnWrite (w.appendNext step timestamp).2 with
          | (.error error, storage) => (.error error, { w with storage })
          | (.ok (), storage) => (.ok (w.nextRecord step timestamp), { w with storage }) := by
  have hsize := (size_spec w.storage hw).2.2
  have hencode : (w.nextRecord step timestamp).encode step.payload =
      .ok ((w.nextRecord step timestamp).image step.payload) :=
    Record.encode_eq_ok_iff.mpr ⟨h.length_payload, rfl⟩
  rw [record_of_isWritable h]
  unfold appendRecord appendNext
  cases hsized : Storage.size w.storage with
  | mk result sized =>
    rw [hsized] at hsize
    cases result with
    | error error => rfl
    | ok size =>
      have hrecord : (⟨size, timestamp.truncateToMicros, step.kind⟩ : Record) =
          w.nextRecord step timestamp := by
        rw [hsize size rfl]
        rfl
      simp only [hrecord, hencode]
      cases Storage.append sized ((w.nextRecord step timestamp).image step.payload) with
      | mk result appended => cases result <;> rfl

private theorem RecordEffect.of_not_canAppend {error : JournalError}
    (hcan : ¬ w.CanAppend step timestamp) (hbytes : bytes after.storage = bytes w.storage) :
    w.RecordEffect step timestamp (.error error) after where
  appended h := absurd h hcan
  unchanged _ := hbytes
  isOk_iff := by simp [hcan]
  record_eq _ h := by cases h

private theorem RecordEffect.of_canAppend {result : Except JournalError Record}
    (hcan : w.CanAppend step timestamp)
    (hbytes : bytes after.storage =
      bytes w.storage ++ (w.nextRecord step timestamp).image step.payload)
    (hresult : ∀ record, result = .ok record ↔ record = w.nextRecord step timestamp ∧
      CanSync w.syncOnWrite (w.appendNext step timestamp).2) :
    w.RecordEffect step timestamp result after where
  appended _ := by
    have himage := Record.image_congr (w.nextRecord step timestamp) step.payload
      ⟨(bytes w.storage).length, timestamp, step.kind⟩ rfl timestamp.micros_truncateToMicros rfl
    rw [himage] at hbytes
    exact ⟨_, Record.encode_eq_ok_iff.mpr ⟨hcan.1.length_payload, rfl⟩, hbytes⟩
  unchanged h := absurd hcan h
  isOk_iff := by simp [hcan, hresult]
  record_eq record h := by
    obtain ⟨rfl, -⟩ := (hresult record).mp h
    refine ⟨rfl, rfl, ?_⟩
    rw [hbytes, List.length_append, Record.length_image hcan.1.length_payload]
    rfl

private theorem appendNext_spec (hw : IsTruthful w.storage) (step : BuilderStep)
    (timestamp : Timestamp) :
    IsTruthful (w.appendNext step timestamp).2 ∧
      bytes (w.appendNext step timestamp).2 =
        if (w.appendNext step timestamp).1.isOk then
          bytes w.storage ++ (w.nextRecord step timestamp).image step.payload
        else bytes w.storage :=
  append_size_spec hw _

private theorem recordEffect_of_isWritable (hw : IsTruthful w.storage) (h : step.IsWritable) :
    IsTruthful (w.record step timestamp).2.storage ∧
      w.RecordEffect step timestamp (w.record step timestamp).1
        (w.record step timestamp).2 := by
  obtain ⟨hsized, hsizedBytes, -⟩ := size_spec w.storage hw
  obtain ⟨happended, happendedBytes⟩ := appendNext_spec hw step timestamp
  rw [record_eq_of_isWritable hw h]
  cases hsize : (Storage.size w.storage).1 with
  | error error =>
    have hcan : ¬ w.CanAppend step timestamp := by
      simp [CanAppend, hsize]
    exact ⟨hsized, .of_not_canAppend hcan hsizedBytes⟩
  | ok size =>
    dsimp only
    cases happend : (w.appendNext step timestamp).1 with
    | error error =>
      have hcan : ¬ w.CanAppend step timestamp := by
        simp [CanAppend, happend]
      rw [happend] at happendedBytes
      exact ⟨happended, .of_not_canAppend hcan happendedBytes⟩
    | ok offset =>
      have hcan : w.CanAppend step timestamp := by
        simp [CanAppend, h, hsize, happend]
      rw [happend] at happendedBytes
      obtain ⟨hsynced, hsyncedBytes, hsync⟩ := sync_spec happended w.syncOnWrite
      have hbytes := hsyncedBytes.trans happendedBytes
      dsimp only
      split
      · next error storage heq =>
        rw [heq] at hsynced hbytes hsync
        refine ⟨hsynced, .of_canAppend hcan hbytes ?_⟩
        simpa using hsync
      · next storage heq =>
        rw [heq] at hsynced hbytes hsync
        refine ⟨hsynced, .of_canAppend hcan hbytes ?_⟩
        intro record
        simp [hsync.mp rfl, eq_comm]

/-- A record call is atomic. -/
theorem recordEffect_record (hw : IsTruthful w.storage) (step : BuilderStep)
    (timestamp : Timestamp) :
    IsTruthful (w.record step timestamp).2.storage ∧
      w.RecordEffect step timestamp (w.record step timestamp).1
        (w.record step timestamp).2 := by
  by_cases h : step.IsWritable
  · exact recordEffect_of_isWritable hw h
  · have hcan : ¬ w.CanAppend step timestamp := fun hcan => h hcan.1
    obtain ⟨hsized, hsizedBytes, -⟩ := size_spec w.storage hw
    obtain ⟨error, herror | herror⟩ := record_of_not_isWritable (w := w) h timestamp
    · rw [herror]
      exact ⟨hw, .of_not_canAppend hcan rfl⟩
    · rw [herror]
      exact ⟨hsized, .of_not_canAppend hcan hsizedBytes⟩

/-! ### Opening, flushing and asking for the size -/

/-- The append of the reserved bytes, after a size call. -/
def appendMagic (w : Writer σ) : StorageResult σ Nat :=
  Storage.append (Storage.size w.storage).2 Layout.magic

/-- The storage is empty, tells its size, and takes the reserved bytes. -/
def CanAppendMagic (w : Writer σ) : Prop :=
  bytes w.storage = [] ∧ (Storage.size w.storage).1.isOk ∧ w.appendMagic.1.isOk

/-- The effect of opening a storage. It appends the reserved bytes if there are no bytes and it can
append, and nothing else; it succeeds exactly if there are bytes and the size is told, or the
reserved bytes were appended and synchronised. -/
structure CreateEffect (w : Writer σ) (result : Except JournalError Unit)
    (after : Writer σ) : Prop where
  appended : w.CanAppendMagic → bytes after.storage = Layout.magic
  unchanged : ¬ w.CanAppendMagic → bytes after.storage = bytes w.storage
  isOk_iff : result = .ok () ↔
    (bytes w.storage ≠ [] ∧ (Storage.size w.storage).1.isOk) ∨
      (w.CanAppendMagic ∧ CanSync w.syncOnWrite w.appendMagic.2)

private theorem CreateEffect.of_not_canAppend {result : Except JournalError Unit}
    (hcan : ¬ w.CanAppendMagic) (hbytes : bytes after.storage = bytes w.storage)
    (hresult : result = .ok () ↔ bytes w.storage ≠ [] ∧ (Storage.size w.storage).1.isOk) :
    w.CreateEffect result after where
  appended h := absurd h hcan
  unchanged _ := hbytes
  isOk_iff := by simp [hresult, hcan]

private theorem create_eq (hw : IsTruthful w.storage)
    (hlen : bytes w.storage = [] ∨ Layout.journalStart ≤ (bytes w.storage).length) :
    create w.syncOnWrite w.storage =
      match (Storage.size w.storage).1 with
      | .error error => (.error (.storage error), (Storage.size w.storage).2)
      | .ok _ =>
        if bytes w.storage = [] then
          match w.appendMagic.1 with
          | .error error => (.error (.storage error), w.appendMagic.2)
          | .ok _ => sync w.syncOnWrite w.appendMagic.2
        else (.ok (), (Storage.size w.storage).2) := by
  have hsize := (size_spec w.storage hw).2.2
  unfold create appendMagic
  cases hsized : Storage.size w.storage with
  | mk result sized =>
    rw [hsized] at hsize
    cases result with
    | error error => rfl
    | ok size =>
      rw [hsize size rfl]
      dsimp only
      by_cases hempty : bytes w.storage = []
      · rw [if_pos (List.length_eq_zero_iff.mpr hempty), if_pos hempty]
        cases Storage.append sized Layout.magic with
        | mk result appended => cases result <;> rfl
      · rw [if_neg (mt List.length_eq_zero_iff.mp hempty), if_neg hempty,
          if_neg (Nat.not_lt.mpr (hlen.resolve_left hempty))]

private theorem appendMagic_spec (hw : IsTruthful w.storage) :
    IsTruthful w.appendMagic.2 ∧
      bytes w.appendMagic.2 =
        if w.appendMagic.1.isOk then bytes w.storage ++ Layout.magic else bytes w.storage :=
  append_size_spec hw _

/-- Opening a storage that is empty or holds the reserved bytes is atomic. -/
theorem createEffect_create (hw : IsTruthful w.storage)
    (hlen : bytes w.storage = [] ∨ Layout.journalStart ≤ (bytes w.storage).length) :
    IsTruthful (create w.syncOnWrite w.storage).2 ∧
      w.CreateEffect (create w.syncOnWrite w.storage).1
        { w with storage := (create w.syncOnWrite w.storage).2 } := by
  obtain ⟨hsized, hsizedBytes, -⟩ := size_spec w.storage hw
  obtain ⟨happended, happendedBytes⟩ := appendMagic_spec hw
  rw [create_eq hw hlen]
  cases hsize : (Storage.size w.storage).1 with
  | error error =>
    have hcan : ¬ w.CanAppendMagic := by simp [CanAppendMagic, hsize]
    exact ⟨hsized, .of_not_canAppend hcan hsizedBytes (by simp [hsize])⟩
  | ok size =>
    dsimp only
    by_cases hempty : bytes w.storage = []
    · rw [if_pos hempty]
      cases happend : w.appendMagic.1 with
      | error error =>
        have hcan : ¬ w.CanAppendMagic := by simp [CanAppendMagic, happend]
        rw [happend] at happendedBytes
        exact ⟨happended, .of_not_canAppend hcan happendedBytes (by simp [hempty])⟩
      | ok offset =>
        have hcan : w.CanAppendMagic := by simp [CanAppendMagic, hempty, hsize, happend]
        rw [happend, hempty] at happendedBytes
        obtain ⟨hsynced, hsyncedBytes, hsync⟩ := sync_spec happended w.syncOnWrite
        refine ⟨hsynced, fun _ => hsyncedBytes.trans happendedBytes, fun h => absurd hcan h, ?_⟩
        simp [hsync, hcan, hempty]
    · rw [if_neg hempty]
      have hcan : ¬ w.CanAppendMagic := fun h => hempty h.1
      exact ⟨hsized, .of_not_canAppend hcan hsizedBytes (by simp [hsize, hempty])⟩

/-- The effect of a flush. It leaves the bytes, and succeeds exactly if the storage is flushed. -/
structure FlushEffect (w : Writer σ) (result : Except JournalError Unit)
    (after : Writer σ) : Prop where
  unchanged : bytes after.storage = bytes w.storage
  isOk_iff : result = .ok () ↔ (Storage.flush w.storage).1.isOk

/-- The effect of asking for the size. It leaves the bytes, and tells their number exactly if the
storage tells its size. -/
structure SizeEffect (w : Writer σ) (result : Except JournalError Nat)
    (after : Writer σ) : Prop where
  unchanged : bytes after.storage = bytes w.storage
  eq_ok_iff : ∀ size, result = .ok size ↔
    (Storage.size w.storage).1.isOk ∧ size = (bytes w.storage).length

/-- A flush keeps the bytes. -/
theorem flushEffect_flush (hw : IsTruthful w.storage) :
    IsTruthful w.flush.2.storage ∧ w.FlushEffect w.flush.1 w.flush.2 := by
  obtain ⟨htruthful, hbytes, hsync⟩ := sync_spec hw true
  refine ⟨htruthful, hbytes, ?_⟩
  change (sync true w.storage).1 = .ok () ↔ _
  simpa [CanSync] using hsync

/-- Asking for the size keeps the bytes. -/
theorem sizeEffect_size (hw : IsTruthful w.storage) :
    IsTruthful w.size.2.storage ∧ w.SizeEffect w.size.1 w.size.2 := by
  obtain ⟨htruthful, hbytes, hsize⟩ := size_spec w.storage hw
  unfold Writer.size
  cases hresult : Storage.size w.storage with
  | mk result sized =>
    rw [hresult] at htruthful hbytes hsize
    cases result with
    | error error =>
      refine ⟨htruthful, hbytes, ?_⟩
      simp [hresult]
    | ok size =>
      refine ⟨htruthful, hbytes, ?_⟩
      simp [hresult, hsize size rfl, eq_comm]

end UndoLog.Writer
