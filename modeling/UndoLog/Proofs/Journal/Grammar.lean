import Mathlib.Algebra.Ring.Nat
import Mathlib.Logic.ExistsUnique
import UndoLog.Proofs.Record.Placed
import UndoLog.Record.Trailer

/-!
# The grammar of journals

A journal is the reserved bytes and then the bytes of entries, one after another, each written at
the end of the one before. Since a timestamp loses what its microseconds do not tell, two journals
of different entries may agree; among the entries whose timestamps can be stored, the bytes
determine the entries.
-/

namespace UndoLog

/-- A record without its place, and its payload. The payload has the declared length, the saved
bytes lie below the offset limit, and the microseconds are a timestamp. -/
@[ext] structure Entry where
  timestamp : Timestamp
  kind : RecordKind
  payload : Bytes
  length_payload : payload.length = kind.dataLength
  fitsOffsets : kind.FitsOffsets
  decodable : (Timestamp.ofMicros? timestamp.micros).isSome

namespace Entry

variable (e : Entry) (offset : Nat)

/-- The record of an entry at `offset`. -/
def recordAt : Record := ⟨offset, e.timestamp, e.kind⟩

/-- The encoding of an entry at `offset`. -/
def image : Bytes := (e.recordAt offset).image e.payload

/-- The timestamp is a whole number of microseconds that decodes to itself. -/
def IsStored : Prop := e.timestamp.IsStored

/-- The encoding of an entry has the length computed for its record. -/
@[simp] theorem length_image :
    (e.image offset).length = (e.recordAt offset).encodedLength :=
  Record.length_image e.length_payload

/-- The record of an entry ends where its encoding does. -/
theorem endOffset_recordAt : (e.recordAt offset).endOffset = offset + (e.image offset).length := by
  rw [length_image]
  rfl

/-- No entry is encoded as no bytes. -/
theorem length_image_pos : 0 < (e.image offset).length := by
  have h := (e.recordAt offset).trailerLength_lt_encodedLength
  rw [length_image]
  omega

private theorem length_payload_le : e.payload.length ≤ (e.image offset).length := by
  unfold image Record.image
  rw [List.length_append, List.length_append]
  omega

/-- An entry stands in a journal whose bytes before it are `offset` many. -/
theorem standsIn_of_append {offset : Nat} {before : Bytes} (he : e.IsStored)
    (hstart : Layout.journalStart ≤ offset) (hbefore : before.length = offset) (after : Bytes) :
    (e.recordAt offset).StandsIn e.payload (before ++ e.image offset ++ after) :=
  .of_append hstart he e.fitsOffsets e.length_payload hbefore

private theorem exists_of_standsIn {r : Record} {payload journal : Bytes}
    (h : r.StandsIn payload journal) :
    ∃ e : Entry, e.IsStored ∧ e.recordAt r.journalOffset = r ∧
      journal.window r.journalOffset r.encodedLength = e.image r.journalOffset := by
  have hstored : Timestamp.ofMicros? r.timestamp.micros = some r.timestamp := h.stored
  let e : Entry :=
    ⟨r.timestamp, r.kind, payload, h.length_payload, h.fitsOffsets, by rw [hstored]; rfl⟩
  exact ⟨e, h.stored, rfl, h.window_eq⟩

/-- The entry with the timestamp decoded from its microseconds. -/
def stored : Entry where
  timestamp := (Timestamp.ofMicros? e.timestamp.micros).get e.decodable
  kind := e.kind
  payload := e.payload
  length_payload := e.length_payload
  fitsOffsets := e.fitsOffsets
  decodable := by
    rw [Timestamp.micros_of_ofMicros? (Option.some_get e.decodable).symm]
    exact e.decodable

private theorem micros_stored : e.stored.timestamp.micros = e.timestamp.micros :=
  Timestamp.micros_of_ofMicros? (Option.some_get e.decodable).symm

private theorem isStored_stored : e.stored.IsStored := by
  unfold IsStored Timestamp.IsStored
  rw [micros_stored]
  exact (Option.some_get e.decodable).symm

private theorem image_stored : e.stored.image offset = e.image offset :=
  Record.image_congr (e.stored.recordAt offset) e.payload (e.recordAt offset) rfl e.micros_stored
    rfl

variable {e offset}

/-- A stored entry, and the rest of the bytes, are determined by bytes that begin with its
encoding. -/
private theorem eq_of_image_append {other : Entry} {rest more : Bytes} (he : e.IsStored)
    (ho : other.IsStored) (h : e.image offset ++ rest = other.image offset ++ more) :
    e = other ∧ rest = more := by
  have hdecode {e : Entry} (he : e.IsStored) (rest : Bytes) :
      DecodedHeader.decode offset (e.image offset ++ rest) =
        .ok ⟨e.recordAt offset, (e.recordAt offset).headerLength⟩ := by
    rw [DecodedHeader.decode_eq_ok_iff]
    refine ⟨rfl, he, rfl, e.payload ++ ((e.recordAt offset).trailer e.payload).encode ++ rest, ?_⟩
    simp only [image, Record.image, List.append_assoc]
  have hrecord : e.recordAt offset = other.recordAt offset := by
    have hd := hdecode he rest
    rw [h, hdecode ho more] at hd
    exact (congrArg DecodedHeader.record (Except.ok.inj hd)).symm
  have hlength : (e.image offset).length = (other.image offset).length := by
    rw [length_image, length_image, hrecord]
  obtain ⟨himage, hrest⟩ := List.append_inj h hlength
  refine ⟨?_, hrest⟩
  have hpayload : e.payload = other.payload := by
    unfold image Record.image at himage
    rw [hrecord, List.append_assoc, List.append_assoc] at himage
    have hlen : e.payload.length = other.payload.length := by
      rw [e.length_payload, other.length_payload]
      exact congrArg Record.dataLength hrecord
    exact (List.append_inj (List.append_cancel_left himage) hlen).1
  exact Entry.ext (congrArg Record.timestamp hrecord) (congrArg Record.kind hrecord) hpayload

end Entry

namespace Journal

/-- The encodings of entries one after another, the first at `offset`. -/
def imagesFrom : (offset : Nat) → List Entry → Bytes
  | _, [] => []
  | offset, e :: rest => e.image offset ++ imagesFrom (offset + (e.image offset).length) rest

/-- The records of entries one after another, the first at `offset`. -/
def recordsFrom : (offset : Nat) → List Entry → List Record
  | _, [] => []
  | offset, e :: rest => e.recordAt offset :: recordsFrom (offset + (e.image offset).length) rest

/-- The journal of some entries: the reserved bytes and their encodings. -/
def ofEntries (entries : List Entry) : Bytes :=
  Layout.magic ++ imagesFrom Layout.journalStart entries

/-- Encodings of appended entries start at the end of those before. -/
theorem imagesFrom_append (offset : Nat) (entries more : List Entry) :
    imagesFrom offset (entries ++ more) =
      imagesFrom offset entries ++
        imagesFrom (offset + (imagesFrom offset entries).length) more := by
  induction entries generalizing offset with
  | nil => rfl
  | cons e rest ih =>
    simp only [List.cons_append, imagesFrom, ih, List.length_append, List.append_assoc,
      Nat.add_assoc]

/-- Records of appended entries start at the end of those before. -/
theorem recordsFrom_append (offset : Nat) (entries more : List Entry) :
    recordsFrom offset (entries ++ more) =
      recordsFrom offset entries ++
        recordsFrom (offset + (imagesFrom offset entries).length) more := by
  induction entries generalizing offset with
  | nil => rfl
  | cons e rest ih =>
    simp only [List.cons_append, recordsFrom, imagesFrom, ih, List.length_append, Nat.add_assoc]

/-- The encoding of one more entry starts at the end of those before. -/
theorem imagesFrom_concat (offset : Nat) (entries : List Entry) (e : Entry) :
    imagesFrom offset (entries ++ [e]) =
      imagesFrom offset entries ++ e.image (offset + (imagesFrom offset entries).length) := by
  rw [imagesFrom_append, imagesFrom, imagesFrom, List.append_nil]

/-- The record of one more entry starts at the end of those before. -/
theorem recordsFrom_concat (offset : Nat) (entries : List Entry) (e : Entry) :
    recordsFrom offset (entries ++ [e]) =
      recordsFrom offset entries ++ [e.recordAt (offset + (imagesFrom offset entries).length)] := by
  rw [recordsFrom_append, recordsFrom, recordsFrom]

/-- An entry stands at the end of those before it, whatever follows. -/
theorem standsIn_imagesFrom {offset : Nat} {before : Bytes} {e : Entry} (he : e.IsStored)
    (hoffset : Layout.journalStart ≤ offset) (hbefore : before.length = offset)
    (entries rest : List Entry) (after : Bytes) :
    (e.recordAt (offset + (imagesFrom offset entries).length)).StandsIn e.payload
      (before ++ imagesFrom offset (entries ++ e :: rest) ++ after) := by
  have hlen : (before ++ imagesFrom offset entries).length =
      offset + (imagesFrom offset entries).length := by
    rw [List.length_append, hbefore]
  rw [imagesFrom_append, imagesFrom, ← List.append_assoc, ← List.append_assoc, List.append_assoc _ _
    after]
  exact e.standsIn_of_append he (Nat.le_trans hoffset (Nat.le_add_right _ _)) hlen _

/-- A record that stands at the end of entries is that of one more entry. -/
theorem exists_concat_of_standsIn {r : Record} {payload journal : Bytes} {entries : List Entry}
    (h : r.StandsIn payload journal)
    (hwindow : journal.window Layout.journalStart (r.journalOffset - Layout.journalStart) =
      imagesFrom Layout.journalStart entries) :
    ∃ e : Entry, e.IsStored ∧
      journal.window Layout.journalStart (r.endOffset - Layout.journalStart) =
        imagesFrom Layout.journalStart (entries ++ [e]) ∧
      recordsFrom Layout.journalStart (entries ++ [e]) =
        recordsFrom Layout.journalStart entries ++ [r] := by
  have hstart := h.start_le
  have hin := h.endOffset_le
  have hend : r.endOffset = r.journalOffset + r.encodedLength := rfl
  have hlast : Layout.journalStart + (imagesFrom Layout.journalStart entries).length =
      r.journalOffset := by
    rw [← hwindow, Bytes.length_window (by omega)]
    omega
  have hsplit : r.endOffset - Layout.journalStart =
      (r.journalOffset - Layout.journalStart) + r.encodedLength := by omega
  obtain ⟨e, he, hrecord, himage⟩ := Entry.exists_of_standsIn h
  refine ⟨e, he, ?_, ?_⟩
  · rw [imagesFrom_concat, hlast, hsplit, Bytes.window_add, hwindow, Nat.add_sub_cancel' hstart,
      himage]
  · rw [recordsFrom_concat, hlast, hrecord]

/-- There is one record for each entry. -/
@[simp] theorem length_recordsFrom (offset : Nat) (entries : List Entry) :
    (recordsFrom offset entries).length = entries.length := by
  induction entries generalizing offset with
  | nil => rfl
  | cons e rest ih => simp only [recordsFrom, List.length_cons, ih]

/-- The records declare the lengths of the payloads. -/
theorem map_dataLength_recordsFrom (offset : Nat) (entries : List Entry) :
    (recordsFrom offset entries).map Record.dataLength =
      entries.map fun e => e.payload.length := by
  induction entries generalizing offset with
  | nil => rfl
  | cons e rest ih =>
    simp only [recordsFrom, List.map_cons, ih, e.length_payload]
    rfl

/-- The payloads are no longer than the encodings together. -/
theorem sum_length_payload_le (offset : Nat) (entries : List Entry) :
    (entries.map fun e => e.payload.length).sum ≤ (imagesFrom offset entries).length := by
  induction entries generalizing offset with
  | nil => exact Nat.le_refl _
  | cons e rest ih =>
    have hrest := ih (offset + (e.image offset).length)
    have hfirst := e.length_payload_le offset
    rw [List.map_cons, List.sum_cons, imagesFrom, List.length_append]
    omega

/-- Encodings depend on the microseconds of the timestamps only. -/
theorem imagesFrom_map_stored (offset : Nat) (entries : List Entry) :
    imagesFrom offset (entries.map Entry.stored) = imagesFrom offset entries := by
  induction entries generalizing offset with
  | nil => rfl
  | cons e rest ih =>
    rw [List.map_cons, imagesFrom, imagesFrom, e.image_stored, ih]

private theorem imagesFrom_injective {offset : Nat} {entries others : List Entry}
    (he : ∀ e ∈ entries, e.IsStored) (ho : ∀ e ∈ others, e.IsStored)
    (h : imagesFrom offset entries = imagesFrom offset others) : entries = others := by
  induction entries generalizing offset others with
  | nil =>
    cases others with
    | nil => rfl
    | cons o more =>
      have hpos := o.length_image_pos offset
      have hlen := congrArg List.length h
      simp only [imagesFrom, List.length_append, List.length_nil] at hlen
      omega
  | cons e rest ih =>
    cases others with
    | nil =>
      have hpos := e.length_image_pos offset
      have hlen := congrArg List.length h
      simp only [imagesFrom, List.length_append, List.length_nil] at hlen
      omega
    | cons o more =>
      obtain ⟨rfl, hrest⟩ := Entry.eq_of_image_append (he e List.mem_cons_self)
        (ho o List.mem_cons_self) h
      have htail := ih (fun x hx => he x (List.mem_cons_of_mem e hx))
        (fun x hx => ho x (List.mem_cons_of_mem e hx)) hrest
      rw [htail]

/-- The journal of entries has the reserved bytes and the encodings. -/
theorem length_ofEntries (entries : List Entry) :
    (ofEntries entries).length =
      Layout.journalStart + (imagesFrom Layout.journalStart entries).length := by
  rw [ofEntries, List.length_append, Layout.length_magic]

/-- The journal of entries has at least the reserved bytes. -/
theorem journalStart_le_length_ofEntries (entries : List Entry) :
    Layout.journalStart ≤ (ofEntries entries).length := by
  rw [length_ofEntries]
  exact Nat.le_add_right _ _

/-- An entry stands in its journal at the end of those before it. -/
theorem standsIn_ofEntries {e : Entry} (he : e.IsStored) (front rest : List Entry) :
    (e.recordAt (Layout.journalStart + (imagesFrom Layout.journalStart front).length)).StandsIn
      e.payload (ofEntries (front ++ e :: rest)) := by
  have h := standsIn_imagesFrom he (Nat.le_refl _) Layout.length_magic front rest []
  rw [List.append_nil] at h
  exact h

/-- One more entry is appended to the journal. -/
theorem ofEntries_concat (entries : List Entry) (e : Entry) :
    ofEntries (entries ++ [e]) =
      ofEntries entries ++ e.image (ofEntries entries).length := by
  rw [length_ofEntries, ofEntries, imagesFrom_concat, ofEntries, List.append_assoc]

/-- Stored entries with the same journal are equal. -/
theorem ofEntries_injective {entries others : List Entry} (he : ∀ e ∈ entries, e.IsStored)
    (ho : ∀ e ∈ others, e.IsStored) (h : ofEntries entries = ofEntries others) :
    entries = others :=
  imagesFrom_injective he ho (List.append_cancel_left h)

/-- Entries with decoded timestamps are stored. -/
theorem isStored_of_mem_map_stored (entries : List Entry) :
    ∀ e ∈ entries.map Entry.stored, e.IsStored := by
  intro e he
  obtain ⟨o, -, rfl⟩ := List.mem_map.mp he
  exact o.isStored_stored

/-- The journal of entries is that of exactly one list of stored entries. -/
theorem existsUnique_stored (entries : List Entry) :
    ∃! stored : List Entry, ofEntries entries = ofEntries stored ∧ ∀ e ∈ stored, e.IsStored := by
  have hsame : ofEntries entries = ofEntries (entries.map Entry.stored) := by
    rw [ofEntries, ofEntries, imagesFrom_map_stored]
  refine ⟨entries.map Entry.stored, ⟨hsame, isStored_of_mem_map_stored entries⟩, ?_⟩
  rintro others ⟨heq, hothers⟩
  exact ofEntries_injective hothers (isStored_of_mem_map_stored entries) (heq.symm.trans hsame)

/-- A journal is that of entries iff it is the reserved bytes followed by their encodings. -/
theorem eq_ofEntries_iff {journal : Bytes} {entries : List Entry} :
    journal = ofEntries entries ↔
      journal.window 0 Layout.journalStart = Layout.magic ∧
        Layout.journalStart ≤ journal.length ∧
        journal.window Layout.journalStart (journal.length - Layout.journalStart) =
          imagesFrom Layout.journalStart entries := by
  constructor
  · rintro rfl
    have hlen := length_ofEntries entries
    have hrest : (ofEntries entries).window Layout.magic.length
        (imagesFrom Layout.journalStart entries).length =
          imagesFrom Layout.journalStart entries := by
      have h := Bytes.window_append_append Layout.magic
        (imagesFrom Layout.journalStart entries) []
      rw [List.append_nil] at h
      exact h
    refine ⟨Bytes.window_append_left (Nat.le_refl _) _, by omega, ?_⟩
    rw [hlen, Nat.add_sub_cancel_left]
    exact hrest
  · rintro ⟨hmagic, hlen, hrest⟩
    have hwhole := Bytes.window_add journal 0 Layout.journalStart
      (journal.length - Layout.journalStart)
    rw [Nat.add_sub_cancel' hlen, Bytes.window_length, hmagic, Nat.zero_add, hrest] at hwhole
    exact hwhole

end Journal
end UndoLog
