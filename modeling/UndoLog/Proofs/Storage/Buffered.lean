import Mathlib.Algebra.Ring.Nat
import Mathlib.Data.List.Forall2
import UndoLog.Layout
import UndoLog.Storage.Buffered

/-!
# A file answers as memory does

A file that nothing else changes knows its size: what it has counted up is the length of its content
after every call. So it answers every call as the same bytes in memory would, and what was appended
is read back where the append said. A file that is open for reading only refuses to append anything,
and answers every other call in the same way.
-/

namespace UndoLog

/-- The greatest offset in place of every number above it. -/
def Layout.saturate (n : Nat) : Nat := min n (offsetLimit - 1)

private theorem StorageError.checkRange_eq {offset length size : Nat} (hsize : size < 2 ^ 63) :
    checkRange offset length size =
      if offset ≤ size ∧ Layout.saturate (offset + length) ≤ size then .ok ()
      else .error (.readPastEnd offset length size) := by
  have hlimit : Layout.offsetLimit = 2 ^ 64 := rfl
  unfold checkRange Layout.saturate
  by_cases hin : offset + length ≤ size
  · rw [if_pos hin, if_pos (by omega)]
  · rw [if_neg hin, if_neg (by omega)]

/-- The call appends at least one byte. -/
def BufferedCall.Adds : BufferedCall → Prop
  | .append data => data ≠ []
  | _ => False

namespace FileStorage

open BufferedStorage

variable {f : FileStorage} {data : Bytes}

/-- A file holds `data` and knows its length. -/
@[mk_iff]
structure Mirrors (f : FileStorage) (data : Bytes) : Prop where
  content_eq : f.content = data
  knownSize_eq : f.knownSize = data.length

/-- A mirroring file fills a buffer as memory does. -/
theorem Mirrors.fill_eq (h : f.Mirrors data) (offset : Nat) (buffer : Bytes) :
    fill f offset buffer = fill (⟨data⟩ : MemoryStorage) offset buffer := by
  simp only [fill, h.content_eq, h.knownSize_eq]
  by_cases hin : offset + buffer.length ≤ data.length
  · have hcheck : StorageError.checkRange offset buffer.length data.length = .ok () := if_pos hin
    rw [hcheck]
    dsimp only
    by_cases hempty : buffer.length = 0
    · rw [if_pos hempty, hempty, List.eq_nil_of_length_eq_zero hempty]
      rfl
    · rw [if_neg hempty, if_pos hin, Bytes.length_window hin, List.drop_length, List.append_nil]
  · have hcheck : StorageError.checkRange offset buffer.length data.length =
        .error (.readPastEnd offset buffer.length data.length) := if_neg hin
    rw [hcheck]

/-- A writable mirroring file answers every call as memory does, and mirrors it after the call. -/
theorem Mirrors.perform (h : f.Mirrors data) (hwritable : f.writable = true)
    (call : BufferedCall) :
    (perform f call).1 = (perform (⟨data⟩ : MemoryStorage) call).1 ∧
      (perform f call).2.Mirrors (perform (⟨data⟩ : MemoryStorage) call).2.data ∧
      (perform f call).2.writable = true := by
  cases call with
  | append bytes =>
    simp only [BufferedStorage.perform, Storage.append, append, hwritable, h.knownSize_eq]
    by_cases hempty : bytes = []
    · subst hempty
      simpa using ⟨h, hwritable⟩
    · simp [hempty, mirrors_iff, h.content_eq]
  | read offset buffer =>
    simp only [BufferedStorage.perform, h.fill_eq]
    exact ⟨trivial, h, hwritable⟩
  | flush => exact ⟨rfl, h, hwritable⟩
  | size =>
    exact ⟨congrArg (fun n => BufferedReply.size (.ok n)) h.knownSize_eq, h, hwritable⟩

/-- A read-only file never changes. It refuses to add bytes, and answers every other call as memory
does. -/
theorem Mirrors.perform_readOnly (h : f.Mirrors data) (hreadOnly : f.writable = false)
    (call : BufferedCall) :
    (BufferedStorage.perform f call).2 = f ∧
      (call.Adds → (BufferedStorage.perform f call).1 = .append (.error (.io .badDescriptor))) ∧
      (¬call.Adds → (BufferedStorage.perform f call).1 =
        (BufferedStorage.perform (⟨data⟩ : MemoryStorage) call).1) := by
  cases call with
  | append bytes =>
    simp only [BufferedStorage.perform, Storage.append, append, hreadOnly, h.knownSize_eq,
      BufferedCall.Adds]
    by_cases hempty : bytes = []
    · simp [hempty]
    · simp [hempty]
  | read offset buffer =>
    simp [BufferedStorage.perform, h.fill_eq, Storage.readAt, BufferedCall.Adds]
  | flush => exact ⟨rfl, fun hadds => hadds.elim, fun _ => rfl⟩
  | size =>
    exact ⟨rfl, fun hadds => hadds.elim,
      fun _ => congrArg (fun n => BufferedReply.size (.ok n)) h.knownSize_eq⟩

/-- A writable mirroring file answers calls one after another as memory does, and mirrors it after
each. -/
theorem Mirrors.history (h : f.Mirrors data) (hwritable : f.writable = true)
    (calls : List BufferedCall) :
    List.Forall₂ (fun event plain => event.1 = plain.1 ∧ event.2.Mirrors plain.2.data)
      (history calls f) (history calls (⟨data⟩ : MemoryStorage)) := by
  induction calls generalizing f data with
  | nil => exact .nil
  | cons call rest ih =>
    obtain ⟨hreply, hmirrors, hstill⟩ := h.perform hwritable call
    exact .cons ⟨hreply, hmirrors⟩ (ih hmirrors hstill)

/-- A writable mirroring file mirrors memory after any calls, and stays writable. -/
theorem Mirrors.after (h : f.Mirrors data) (hwritable : f.writable = true)
    (calls : List BufferedCall) :
    (after f calls).Mirrors (BufferedStorage.after (⟨data⟩ : MemoryStorage) calls).data ∧
      (BufferedStorage.after f calls).writable = true := by
  induction calls generalizing f data with
  | nil => exact ⟨h, hwritable⟩
  | cons call rest ih =>
    obtain ⟨-, hmirrors, hstill⟩ := h.perform hwritable call
    exact ih hmirrors hstill

/-- A read-only file never changes, whatever is called. -/
theorem Mirrors.history_readOnly (h : f.Mirrors data) (hreadOnly : f.writable = false)
    (calls : List BufferedCall) :
    List.Forall₂ (fun call event => event.2 = f ∧
        (call.Adds → event.1 = .append (.error (.io .badDescriptor))) ∧
        (¬call.Adds → event.1 = (BufferedStorage.perform (⟨data⟩ : MemoryStorage) call).1))
      calls (BufferedStorage.history calls f) := by
  induction calls with
  | nil => exact .nil
  | cons call rest ih =>
    have hcall := h.perform_readOnly hreadOnly call
    refine .cons hcall ?_
    rw [hcall.1]
    exact ih

end FileStorage

namespace MemoryStorage

open BufferedStorage

private theorem after_append (m : MemoryStorage) (before rest : List BufferedCall) :
    after m (before ++ rest) = after (after m before) rest := List.foldl_append

/-- A call extends the bytes. -/
theorem data_perform (m : MemoryStorage) (call : BufferedCall) :
    ∃ more, (perform m call).2.data = m.data ++ more := by
  cases call with
  | append bytes => exact ⟨bytes, rfl⟩
  | _ => exact ⟨[], (List.append_nil _).symm⟩

/-- Calls extend the bytes. -/
theorem data_after (m : MemoryStorage) (calls : List BufferedCall) :
    ∃ more, (after m calls).data = m.data ++ more := by
  induction calls generalizing m with
  | nil => exact ⟨[], (List.append_nil _).symm⟩
  | cons call rest ih =>
    obtain ⟨first, hfirst⟩ := m.data_perform call
    obtain ⟨others, hothers⟩ := ih (perform m call).2
    refine ⟨first ++ others, ?_⟩
    rw [← List.append_assoc, ← hfirst]
    exact hothers

/-- A fill fails iff its range, with a saturating end, is not inside the bytes, and then leaves the
buffer. -/
theorem fill_eq {data : Bytes} (hlength : data.length < 2 ^ 63) (offset : Nat) (buffer : Bytes) :
    fill (⟨data⟩ : MemoryStorage) offset buffer =
      if offset ≤ data.length ∧ Layout.saturate (offset + buffer.length) ≤ data.length then
        (.ok (), data.window offset buffer.length)
      else (.error (.readPastEnd offset buffer.length data.length), buffer) := by
  simp only [fill, StorageError.checkRange_eq hlength]
  by_cases hin : offset ≤ data.length ∧ Layout.saturate (offset + buffer.length) ≤ data.length
  · rw [if_pos hin, if_pos hin]
  · rw [if_neg hin, if_neg hin]

/-- Appended bytes are read back at the answered offset, after any calls in between. -/
theorem fill_after_append (m : MemoryStorage) (bytes : Bytes) (rest : List BufferedCall)
    {buffer : Bytes} (hbuffer : buffer.length = bytes.length) :
    fill (after m (.append bytes :: rest)) m.data.length buffer = (.ok (), bytes) := by
  obtain ⟨more, hmore⟩ := data_after (perform m (.append bytes)).2 rest
  have hdata : (after m (.append bytes :: rest)).data = m.data ++ bytes ++ more := hmore
  have hin : m.data.length + bytes.length ≤ (m.data ++ bytes ++ more).length := by
    rw [List.length_append, List.length_append]
    omega
  have hcheck : StorageError.checkRange m.data.length bytes.length
      (m.data ++ bytes ++ more).length = .ok () := if_pos hin
  simp only [fill, hdata, hbuffer, hcheck, Bytes.window_append_append]

end MemoryStorage

open BufferedStorage in
/-- A file that is opened for appending answers every call as memory that starts with the same
bytes does, and after each it holds the same bytes and knows how many they are. What was appended is
read back at the offset that was told, whatever was called in between; a range is read exactly if it
lies inside, counted no further than to the greatest offset, and the buffer is left otherwise. A
file that is opened for reading only refuses to add bytes, answers every other call likewise, and
never changes. -/
theorem file_answers_as_memory (content? : Option Bytes) (calls : List BufferedCall) :
    let content := content?.getD []
    let memory : MemoryStorage := ⟨content⟩
    let file := FileStorage.openWritable content?
    List.Forall₂ (fun event plain => event.1 = plain.1 ∧ event.2.Mirrors plain.2.data)
        (history calls file) (history calls memory) ∧
      (∀ before bytes rest, calls = before ++ .append bytes :: rest →
        ∃ offset, (perform (after file before) (.append bytes)).1 = .append (.ok offset) ∧
          ∀ buffer : Bytes, buffer.length = bytes.length →
            fill (after file calls) offset buffer = (.ok (), bytes)) ∧
      (∀ data, data = (after memory calls).data → data.length < 2 ^ 63 → ∀ offset buffer,
        fill (after file calls) offset buffer =
          if offset ≤ data.length ∧ Layout.saturate (offset + buffer.length) ≤ data.length then
            (.ok (), data.window offset buffer.length)
          else (.error (.readPastEnd offset buffer.length data.length), buffer)) ∧
      ∃ readOnly, FileStorage.openReadOnly .blocking (some content) = .ok readOnly ∧
        readOnly.Mirrors content ∧
        List.Forall₂ (fun call event => event.2 = readOnly ∧
            (call.Adds → event.1 = .append (.error (.io .badDescriptor))) ∧
            (¬call.Adds → event.1 = (perform memory call).1))
          calls (history calls readOnly) := by
  intro content memory file
  have hfile : file.Mirrors content := ⟨rfl, rfl⟩
  have hall : (after file calls).Mirrors (after memory calls).data := (hfile.after rfl calls).1
  refine ⟨hfile.history rfl calls, ?_, ?_, ?_⟩
  · rintro before bytes rest rfl
    obtain ⟨hbefore, hwritable⟩ := hfile.after rfl before
    refine ⟨_, (hbefore.perform hwritable (.append bytes)).1, fun buffer hbuffer => ?_⟩
    rw [hall.fill_eq, MemoryStorage.after_append]
    exact MemoryStorage.fill_after_append (after memory before) bytes rest hbuffer
  · rintro data rfl hlength offset buffer
    rw [hall.fill_eq, MemoryStorage.fill_eq hlength]
  · have hreadOnly : (⟨content, content.length, false, .blocking⟩ : FileStorage).Mirrors content :=
      ⟨rfl, rfl⟩
    exact ⟨_, rfl, hreadOnly, hreadOnly.history_readOnly rfl calls⟩

open BufferedStorage in
/-- A byte is appended to two, and a range that begins at the greatest offset is asked for. -/
theorem file_answers_as_memory_of_append :
    let calls : List BufferedCall := [.append [3], .read (2 ^ 64 - 1) [7, 7], .append [], .size]
    let file := FileStorage.openWritable (some [1, 2])
    (∃ offset, (perform (after file []) (.append [3])).1 = .append (.ok offset) ∧
        fill (after file calls) offset [0] = (.ok (), [3])) ∧
      fill (after file calls) (2 ^ 64 - 1) [7, 7] =
        (.error (.readPastEnd (2 ^ 64 - 1) 2 3), [7, 7]) := by
  intro calls file
  obtain ⟨-, hback, hreads, -⟩ := file_answers_as_memory (some [1, 2]) calls
  constructor
  · obtain ⟨offset, htold, hfill⟩ := hback [] [3] (calls.drop 1) rfl
    exact ⟨offset, htold, hfill [0] rfl⟩
  · rw [hreads [1, 2, 3] rfl (by decide)]
    rfl

end UndoLog
