import UndoLog.Proofs.Field.Cursor
import UndoLog.Proofs.Field.Stable

/-!
# Reads that leave no trace when they fail

A decoder is asked for one field after another. It moves past what it reads and stays where a read
fails, so its position and what is left always make up the data. A read comes to the end exactly
where there are fewer bytes than the field claims, and reports both numbers. What it comes to
otherwise does not change when more bytes follow, and what it lacked is enough when it follows:
unless the width byte of an integer was missing, which alone tells how many bytes follow it.
-/

namespace UndoLog

namespace Field

variable {α β : Type}

/-- `reader` reports an unexpected end exactly on inputs shorter than `claimed`, with that length
and the input's own. -/
def EndsShortOf (claimed : Bytes → Nat) (reader : Bytes → Except FieldError (α × Bytes)) : Prop :=
  ∀ bytes needed available, reader bytes = .error (.unexpectedEnd needed available) ↔
    bytes.length < claimed bytes ∧ needed = claimed bytes ∧ available = bytes.length

private theorem endsShortOf_byte : EndsShortOf (fun _ => 1) byte := by
  intro bytes needed available
  cases bytes with
  | nil => simp [byte, eq_comm]
  | cons b rest => simp [byte]

private theorem endsShortOf_take (n : Nat) : EndsShortOf (fun _ => n) (take n) := by
  intro bytes needed available
  rw [take_eq_error_iff, FieldError.unexpectedEnd.injEq]

private theorem endsShortOf_timestamp : EndsShortOf (fun _ => 8) timestamp := by
  intro bytes needed available
  rw [timestamp_eq_error_iff, endsShortOf_take 8 bytes needed available]
  simp

private theorem EndsShortOf.convert {claimed : Bytes → Nat}
    {reader : Bytes → Except FieldError (α × Bytes)} (h : EndsShortOf claimed reader) (f : α → β) :
    EndsShortOf claimed (fun bytes => Field.convert f (reader bytes)) := by
  intro bytes needed available
  rw [convert_eq_error_iff, h bytes needed available]

end Field

namespace Compact

/-- The bytes claimed by a compact integer: its width byte and the bytes it counts, or the width
byte alone if the width is over the maximum. -/
def claimed (maxWidth : Nat) : Bytes → Nat
  | [] => 1
  | widthByte :: _ => if maxWidth < widthByte.toNat then 1 else 1 + widthByte.toNat

private theorem endsShortOf_decode (maxWidth : Nat) :
    Field.EndsShortOf (claimed maxWidth) (decode maxWidth) := by
  intro bytes needed available
  cases bytes with
  | nil => simp [decode, claimed, eq_comm]
  | cons widthByte rest =>
    simp only [decode, claimed, List.length_cons]
    by_cases hwide : maxWidth < widthByte.toNat
    · simp [hwide]
    · by_cases hshort : rest.length < widthByte.toNat
      · simp only [hwide, hshort, if_false, if_true, Except.error.injEq,
          FieldError.unexpectedEnd.injEq]
        omega
      · simp only [hwide, hshort, if_false]
        by_cases hzero : (rest.take widthByte.toNat).getLast? = some 0
        · simp only [hzero, if_true, Except.error.injEq, reduceCtorEq, false_iff]
          omega
        · simp only [hzero, if_false, reduceCtorEq, false_iff]
          omega

private theorem claimed_append {maxWidth : Nat} {bytes : Bytes} (h : bytes ≠ []) (more : Bytes) :
    claimed maxWidth (bytes ++ more) = claimed maxWidth bytes := by
  cases bytes with
  | nil => exact absurd rfl h
  | cons widthByte rest => rfl

end Compact

namespace FieldKind

/-- The field is a compact integer, whose width byte gives its length. -/
def IsCompact : FieldKind → Prop
  | .compact32 | .compact64 => True
  | _ => False

/-- The bytes claimed by a field. -/
def claimed : FieldKind → Bytes → Nat
  | .byte, _ => Layout.tagLength
  | .word32, _ => 4
  | .word64, _ => 8
  | .timestamp, _ => Layout.timestampLength
  | .compact32, bytes => Compact.claimed 4 bytes
  | .compact64, bytes => Compact.claimed 8 bytes

private theorem isStable_read (kind : FieldKind) : Field.IsStable kind.read := by
  cases kind with
  | byte => exact Field.isStable_byte.convert _
  | word32 => exact ((Field.isStable_take (by decide)).convert _).convert _
  | word64 => exact ((Field.isStable_take (by decide)).convert _).convert _
  | timestamp => exact Field.isStable_timestamp.convert _
  | compact32 => exact Field.isStable_compact32.convert _
  | compact64 => exact Field.isStable_compact64.convert _

private theorem endsShortOf_read (kind : FieldKind) : Field.EndsShortOf kind.claimed kind.read := by
  cases kind with
  | byte => exact Field.endsShortOf_byte.convert _
  | word32 => exact ((Field.endsShortOf_take 4).convert _).convert _
  | word64 => exact ((Field.endsShortOf_take 8).convert _).convert _
  | timestamp => exact Field.endsShortOf_timestamp.convert _
  | compact32 => exact ((Compact.endsShortOf_decode 4).convert _).convert _
  | compact64 => exact ((Compact.endsShortOf_decode 8).convert _).convert _

private theorem claimed_append {kind : FieldKind} {bytes : Bytes} (h : kind.IsCompact → bytes ≠ [])
    (more : Bytes) : kind.claimed (bytes ++ more) = kind.claimed bytes := by
  cases kind with
  | compact32 => exact Compact.claimed_append (h trivial) more
  | compact64 => exact Compact.claimed_append (h trivial) more
  | _ => rfl

end FieldKind

namespace FieldRequest

/-- The request is for a compact integer. -/
def IsCompact : FieldRequest → Prop
  | .field kind => kind.IsCompact
  | _ => False

/-- The bytes claimed by a request. `tagOrEnd` claims none. -/
def claimed : FieldRequest → Bytes → Nat
  | .tag, _ => Layout.tagLength
  | .tagOrEnd, _ => 0
  | .field kind, bytes => kind.claimed bytes

/-- The reader of the unread bytes. -/
def reader : FieldRequest → Bytes → Except FieldError (FieldReply × Bytes)
  | .tag, bytes => Field.convert (fun tag => .tag (some tag)) (Field.byte bytes)
  | .tagOrEnd, [] => .ok (.tag none, [])
  | .tagOrEnd, b :: rest => .ok (.tag (some b), rest)
  | .field kind, bytes => Field.convert .field (kind.read bytes)

variable {request : FieldRequest} {bytes rest : Bytes} {reply : FieldReply}

private theorem exists_append_of_reader (h : request.reader bytes = .ok (reply, rest)) :
    ∃ taken, bytes = taken ++ rest := by
  cases request with
  | tag =>
    obtain ⟨tag, htag, -⟩ := Field.convert_eq_ok_iff.mp h
    exact ⟨[tag], Field.byte_eq_ok_iff.mp htag⟩
  | tagOrEnd =>
    cases bytes with
    | nil =>
      cases h
      exact ⟨[], rfl⟩
    | cons b rest =>
      cases h
      exact ⟨[b], rfl⟩
  | field kind =>
    obtain ⟨value, hvalue, -⟩ := Field.convert_eq_ok_iff.mp h
    exact ⟨value.encode, (FieldKind.read_eq_ok_iff.mp hvalue).2.2⟩

private theorem endsShortOf_reader (request : FieldRequest) :
    Field.EndsShortOf request.claimed request.reader := by
  cases request with
  | tag => exact Field.endsShortOf_byte.convert _
  | tagOrEnd =>
    intro bytes needed available
    cases bytes <;> simp [reader, claimed]
  | field kind => exact kind.endsShortOf_read.convert _

/-- More bytes change the claim only of a compact integer whose width byte is missing. -/
theorem claimed_append (h : request.IsCompact → bytes ≠ []) (more : Bytes) :
    request.claimed (bytes ++ more) = request.claimed bytes := by
  cases request with
  | field kind => exact FieldKind.claimed_append h more
  | _ => rfl

private theorem reader_append_of_ok (h : request.reader bytes = .ok (reply, rest))
    (hreply : reply ≠ .tag none) (more : Bytes) :
    request.reader (bytes ++ more) = .ok (reply, rest ++ more) := by
  cases request with
  | tag => exact (Field.isStable_byte.convert _).append_ok more h
  | tagOrEnd =>
    cases bytes with
    | nil =>
      cases h
      exact absurd rfl hreply
    | cons b rest =>
      cases h
      rfl
  | field kind => exact (kind.isStable_read.convert _).append_ok more h

private theorem reader_append_of_refused {error : FieldError}
    (h : request.reader bytes = .error error)
    (hrefused : error.needed? = none) (more : Bytes) :
    request.reader (bytes ++ more) = .error error := by
  cases request with
  | tag => exact (Field.isStable_byte.convert _).append_refused more h hrefused
  | tagOrEnd => cases bytes <;> cases h
  | field kind => exact (kind.isStable_read.convert _).append_refused more h hrefused

end FieldRequest

namespace FieldCursor

/-- An answer of a cursor moves past what the reader takes, or puts the cursor back. -/
theorem moves_answer (request : FieldRequest) : Moves (answer · request) request.reader := by
  cases request with
  | tag => exact moves_byte.convert _
  | tagOrEnd =>
    intro c
    have hbyte := moves_byte.convert (fun tag => FieldReply.tag (some tag)) c
    unfold answer
    dsimp only at hbyte ⊢
    by_cases hend : c.data.length ≤ c.position
    · have hunread : c.unread = [] := List.drop_of_length_le hend
      rw [if_pos hend, hunread]
      simp [FieldRequest.reader, past, hunread, moveTo]
    · rw [if_neg hend, hbyte]
      cases hunread : c.unread with
      | nil => exact absurd (List.drop_eq_nil_iff.mp hunread) hend
      | cons b rest => rfl
  | field kind => exact (moves_read kind).convert _

end FieldCursor

/-- The decoder with `more` bytes after the unread ones. -/
def FieldDecoder.extend (d : FieldDecoder) (more : Bytes) : FieldDecoder :=
  ⟨d.position, d.unread ++ more⟩

/-- A read of a decoder, its result, and the decoder before and after it. -/
structure DecoderEvent where
  before : FieldDecoder
  request : FieldRequest
  result : Except FieldError FieldReply
  after : FieldDecoder
  deriving DecidableEq, Repr

/-- The result is a value or a refusal that does not depend on the end of input. -/
def DecoderEvent.IsSettled (event : DecoderEvent) : Prop :=
  event.result ≠ .ok (.tag none) ∧
    ∀ needed available, event.result ≠ .error (.unexpectedEnd needed available)

/-- The event with `more` bytes after the unread ones. -/
def DecoderEvent.extend (event : DecoderEvent) (more : Bytes) : DecoderEvent :=
  ⟨event.before.extend more, event.request, event.result, event.after.extend more⟩

namespace FieldDecoder

variable {α β : Type} {d : FieldDecoder} {data : Bytes} {position : Nat}

/-- The event of one read. -/
def event (d : FieldDecoder) (request : FieldRequest) : DecoderEvent :=
  ⟨d, request, (d.answer request).1, (d.answer request).2⟩

/-- The events of reads one after another, past those that fail. -/
def history : (requests : List FieldRequest) → (d : FieldDecoder) → List DecoderEvent
  | [], _ => []
  | request :: rest, d => d.event request :: (d.answer request).2.history rest

private theorem step_convert (reader : Bytes → Except FieldError (α × Bytes)) (f : α → β)
    (d : FieldDecoder) :
    d.step (fun bytes => Field.convert f (reader bytes)) =
      ((d.step reader).1.map f, (d.step reader).2) := by
  simp only [step]
  cases reader d.unread <;> rfl

/-- An answer of a decoder is a step of the request's reader. -/
theorem answer_eq_step (d : FieldDecoder) (request : FieldRequest) :
    d.answer request = d.step request.reader := by
  cases request with
  | tag => exact (step_convert Field.byte _ d).symm
  | tagOrEnd =>
    obtain ⟨position, unread⟩ := d
    cases unread with
    | nil => simp [answer, readTagOrEnd, isEmpty, step, FieldRequest.reader, Except.map]
    | cons b rest =>
      simp [answer, readTagOrEnd, readTag, isEmpty, step, FieldRequest.reader, Field.byte,
        Except.map]
  | field kind => exact (step_convert kind.read _ d).symm

private theorem answer_of_ok {request : FieldRequest} {reply : FieldReply} {taken rest : Bytes}
    (h : request.reader d.unread = .ok (reply, rest)) (htaken : d.unread = taken ++ rest) :
    d.answer request = (.ok reply, ⟨d.position + taken.length, rest⟩) := by
  have hlength : d.unread.length - rest.length = taken.length := by
    rw [htaken, List.length_append, Nat.add_sub_cancel]
  rw [answer_eq_step, step, h]
  dsimp only
  rw [hlength]

/-- A failed answer leaves the decoder. -/
theorem answer_of_error {request : FieldRequest} {error : FieldError}
    (h : request.reader d.unread = .error error) : d.answer request = (.error error, d) := by
  rw [answer_eq_step, step, h]

/-- An answer is an error iff the reader refuses the unread bytes. -/
theorem answer_eq_error_iff {request : FieldRequest} {error : FieldError} :
    (d.answer request).1 = .error error ↔ request.reader d.unread = .error error := by
  rw [answer_eq_step, step]
  cases request.reader d.unread <;> simp

/-- An answer is an unexpected end iff fewer bytes are unread than claimed. -/
theorem answer_eq_unexpectedEnd_iff {request : FieldRequest} {needed available : Nat} :
    (d.answer request).1 = .error (.unexpectedEnd needed available) ↔
      d.remaining < request.claimed d.unread ∧ needed = request.claimed d.unread ∧
        available = d.remaining := by
  rw [answer_eq_error_iff, request.endsShortOf_reader]
  rfl

/-- An answer leaves the decoder inside the data, at no earlier position. -/
theorem exists_ofPosition_answer (h : position ≤ data.length) (request : FieldRequest) :
    ∃ next, next ≤ data.length ∧ ((ofPosition data position).answer request).2 =
      ofPosition data next := by
  cases hread : request.reader (ofPosition data position).unread with
  | error error => exact ⟨position, h, by rw [answer_of_error hread]⟩
  | ok found =>
    obtain ⟨reply, rest⟩ := found
    obtain ⟨taken, htaken⟩ := FieldRequest.exists_append_of_reader hread
    have hrest : data.drop (position + taken.length) = rest := by
      rw [← List.drop_drop, show data.drop position = taken ++ rest from htaken, List.drop_left]
    have hlength : taken.length ≤ data.length - position := by
      rw [← List.length_drop, show data.drop position = taken ++ rest from htaken,
        List.length_append]
      exact Nat.le_add_right _ _
    refine ⟨position + taken.length, by omega, ?_⟩
    rw [answer_of_ok hread htaken]
    simp only [ofPosition, hrest]

private theorem position_add_remaining (h : position ≤ data.length) :
    (ofPosition data position).position + (ofPosition data position).remaining = data.length := by
  show position + (data.drop position).length = data.length
  rw [List.length_drop]
  omega

/-- Cursor and decoder give the same answer and position. -/
theorem answer_cursor (data : Bytes) (position : Nat) (request : FieldRequest) :
    (⟨data, position⟩ : FieldCursor).answer request =
      (((ofPosition data position).answer request).1,
        ⟨data, ((ofPosition data position).answer request).2.position⟩) := by
  have hmoves : (⟨data, position⟩ : FieldCursor).answer request =
      FieldCursor.past ⟨data, position⟩ (request.reader (data.drop position)) :=
    FieldCursor.moves_answer request _
  rw [hmoves, answer_eq_step, step,
    show (ofPosition data position).unread = data.drop position from rfl]
  cases request.reader (data.drop position) <;> rfl

/-- Cursor and decoder give the same answers and positions, read after read. -/
theorem history_cursor (requests : List FieldRequest) (h : position ≤ data.length) :
    (⟨data, position⟩ : FieldCursor).history requests =
      ((ofPosition data position).history requests).map
        (fun event => (event.result, ⟨data, event.after.position⟩)) := by
  induction requests generalizing position with
  | nil => rfl
  | cons request rest ih =>
    obtain ⟨next, hnext, hafter⟩ := exists_ofPosition_answer h request
    rw [FieldCursor.history, history, List.map_cons, answer_cursor, event, hafter]
    exact congrArg _ (ih hnext)

private theorem ofPosition_append (h : position ≤ data.length) (more : Bytes) :
    ofPosition (data ++ more) position = (ofPosition data position).extend more := by
  rw [ofPosition, List.drop_append_of_le_length h]
  rfl

private theorem answer_extend {request : FieldRequest} (h : (d.event request).IsSettled)
    (more : Bytes) :
    (d.extend more).answer request = ((d.answer request).1, (d.answer request).2.extend more) := by
  unfold event at h
  cases hread : request.reader d.unread with
  | error error =>
    rw [answer_of_error hread] at h ⊢
    have hrefused : error.needed? = none := by
      cases error with
      | unexpectedEnd needed available => exact absurd rfl (h.2 needed available)
      | _ => rfl
    exact answer_of_error (FieldRequest.reader_append_of_refused hread hrefused more)
  | ok found =>
    obtain ⟨reply, rest⟩ := found
    obtain ⟨taken, htaken⟩ := FieldRequest.exists_append_of_reader hread
    rw [answer_of_ok hread htaken] at h ⊢
    have hreply : reply ≠ .tag none := fun hnone => h.1 (congrArg Except.ok hnone)
    have hlater : (d.extend more).unread = taken ++ (rest ++ more) := by
      rw [extend, htaken, List.append_assoc]
    exact answer_of_ok (FieldRequest.reader_append_of_ok hread hreply more) hlater

/-- After an unexpected end with `needed - available` bytes lacking, fewer bytes give an unexpected
end that lacks the rest, and as many give another result. -/
theorem answer_extend_of_unexpectedEnd {request : FieldRequest} {needed available : Nat}
    (h : (d.answer request).1 = .error (.unexpectedEnd needed available)) (more : Bytes)
    (hwidth : request.IsCompact → d.unread ≠ []) (later lacking : Nat) :
    ((d.extend more).answer request).1 = .error (.unexpectedEnd later lacking) ↔
      available + more.length < needed ∧ later = needed ∧ lacking = available + more.length := by
  obtain ⟨-, rfl, rfl⟩ := answer_eq_unexpectedEnd_iff.mp h
  rw [answer_eq_unexpectedEnd_iff, show (d.extend more).unread = d.unread ++ more from rfl,
    FieldRequest.claimed_append hwidth, show (d.extend more).remaining = d.remaining + more.length
      from List.length_append]

private theorem map_request_history (requests : List FieldRequest) (d : FieldDecoder) :
    (d.history requests).map DecoderEvent.request = requests := by
  induction requests generalizing d with
  | nil => rfl
  | cons request rest ih => rw [history, List.map_cons, ih, event]

/-- Every event of a history starts inside the data. -/
theorem exists_ofPosition_of_mem_history {requests : List FieldRequest} {event : DecoderEvent}
    (hposition : position ≤ data.length)
    (h : event ∈ (ofPosition data position).history requests) :
    ∃ start, start ≤ data.length ∧ event = (ofPosition data start).event event.request := by
  induction requests generalizing position with
  | nil => cases h
  | cons request rest ih =>
    rcases List.mem_cons.mp h with rfl | hrest
    · exact ⟨position, hposition, rfl⟩
    · obtain ⟨next, hnext, hafter⟩ := exists_ofPosition_answer hposition request
      rw [hafter] at hrest
      exact ih hnext hrest

/-- A history of settled events is the same when more bytes follow. -/
theorem history_extend {requests : List FieldRequest}
    (h : ∀ event ∈ d.history requests, event.IsSettled) (more : Bytes) :
    (d.extend more).history requests = (d.history requests).map (·.extend more) := by
  induction requests generalizing d with
  | nil => rfl
  | cons request rest ih =>
    obtain ⟨hfirst, hrest⟩ := List.forall_mem_cons.mp h
    have hanswer := answer_extend hfirst more
    rw [history, history, List.map_cons, event, hanswer, ih hrest]
    rfl

end FieldDecoder

/-- A read is atomic and its report of the end exact: a failed read leaves the decoder; an
unexpected end reports what is left at the start of the field; a settled read is the same when
`more` bytes follow; and one that ran out runs out again, with the same `needed`, exactly if `more`
is fewer than were lacking, unless it ran out at a compact integer's width byte. -/
structure DecoderEvent.IsExact (data : Bytes) (event : DecoderEvent) : Prop where
  positions : event.before.position + event.before.remaining = data.length ∧
    event.after.position + event.after.remaining = data.length
  after_of_error (error : FieldError) (h : event.result = .error error) :
    event.after = event.before
  end_of_error (needed available : Nat)
    (h : event.result = .error (.unexpectedEnd needed available)) :
    available = event.before.remaining ∧ available < needed
  append_settled (more : Bytes) (h : event.IsSettled) :
    (FieldDecoder.ofPosition (data ++ more) event.before.position).answer event.request =
      (event.result, .ofPosition (data ++ more) event.after.position)
  append_end (more : Bytes) (needed available : Nat)
    (h : event.result = .error (.unexpectedEnd needed available))
    (hwidth : event.request.IsCompact → event.before.remaining ≠ 0) (later lacking : Nat) :
    ((FieldDecoder.ofPosition (data ++ more) event.before.position).answer event.request).1 =
        .error (.unexpectedEnd later lacking) ↔
      more.length < needed - available ∧ later = needed ∧ lacking = available + more.length

/-- A read inside the data is atomic and exact. -/
theorem FieldDecoder.isExact_event {data : Bytes} {position : Nat} (h : position ≤ data.length)
    (request : FieldRequest) : ((ofPosition data position).event request).IsExact data := by
  obtain ⟨next, hnext, hafter⟩ := exists_ofPosition_answer h request
  constructor
  · refine ⟨position_add_remaining h, ?_⟩
    rw [event, hafter]
    exact position_add_remaining hnext
  · intro error herror
    rw [event, answer_of_error (answer_eq_error_iff.mp herror)]
  · intro needed available hend
    obtain ⟨hshort, rfl, rfl⟩ := answer_eq_unexpectedEnd_iff.mp hend
    exact ⟨rfl, hshort⟩
  · intro more hsettled
    have hstart : ofPosition (data ++ more) position = (ofPosition data position).extend more :=
      ofPosition_append h more
    have hstop : ofPosition (data ++ more) next = (ofPosition data next).extend more :=
      ofPosition_append hnext more
    have hanswer := answer_extend hsettled more
    rw [hafter, ← hstart, ← hstop] at hanswer
    rw [event, hafter]
    exact hanswer
  · intro more needed available hend hwidth later lacking
    have hshort := answer_eq_unexpectedEnd_iff.mp hend
    have hleft : request.IsCompact → (ofPosition data position).unread ≠ [] :=
      fun hcompact => List.ne_nil_of_length_pos (Nat.pos_of_ne_zero (hwidth hcompact))
    have hlater := answer_extend_of_unexpectedEnd hend more hleft later lacking
    rw [← ofPosition_append h] at hlater
    refine hlater.trans ?_
    omega

/-- Every read of a history, past failed ones too, is atomic and exact; a history of settled reads
is the same when more bytes follow; and the cursor that moves inside fields gives the same results
and positions. -/
theorem decoder_reads_are_atomic (data : Bytes) (requests : List FieldRequest) :
    let history := (FieldDecoder.ofBytes data).history requests
    history.map DecoderEvent.request = requests ∧
      (⟨data, 0⟩ : FieldCursor).history requests =
        history.map (fun event => (event.result, ⟨data, event.after.position⟩)) ∧
      (∀ event ∈ history, event.IsExact data) ∧
      ∀ more, (∀ event ∈ history, event.IsSettled) →
        (FieldDecoder.ofBytes (data ++ more)).history requests =
          history.map (·.extend more) := by
  intro history
  refine ⟨FieldDecoder.map_request_history requests _,
    FieldDecoder.history_cursor requests (Nat.zero_le data.length), ?_, ?_⟩
  · intro event hevent
    obtain ⟨position, hposition, heq⟩ :=
      FieldDecoder.exists_ofPosition_of_mem_history (Nat.zero_le data.length) hevent
    rw [heq]
    exact FieldDecoder.isExact_event hposition event.request
  · intro more hsettled
    exact FieldDecoder.history_extend hsettled more

/-- An integer of width two whose last byte is missing needs three bytes, leaves the decoder, and is
read when the third follows. The two bytes alone are read as tags whatever follows. -/
theorem decoder_reads_are_atomic_of_cut :
    let event := (FieldDecoder.ofBytes [2, 44]).event (.field .compact64)
    event.result = .error (.unexpectedEnd 3 2) ∧ event.after = event.before ∧
      (⟨[2, 44], 0⟩ : FieldCursor).history [.field .compact64] = [(event.result, ⟨[2, 44], 0⟩)] ∧
      (∀ later lacking, ((FieldDecoder.ofPosition [2, 44, 1] 0).answer (.field .compact64)).1 ≠
        .error (.unexpectedEnd later lacking)) ∧
      ((FieldDecoder.ofBytes [2, 44, 1]).history [.tag, .tagOrEnd]).map DecoderEvent.result =
        [.ok (.tag (some 2)), .ok (.tag (some 44))] := by
  intro event
  have hresult : event.result = .error (.unexpectedEnd 3 2) := rfl
  obtain ⟨-, hcursor, hexact, -⟩ := decoder_reads_are_atomic [2, 44] [.field .compact64]
  have hevent : event.IsExact [2, 44] := hexact event (List.mem_singleton.mpr rfl)
  have hwidth : event.request.IsCompact → event.before.remaining ≠ 0 := fun _ => by decide
  have hsettled : ∀ tagged ∈ (FieldDecoder.ofBytes [2, 44]).history [.tag, .tagOrEnd],
      tagged.IsSettled := by
    intro tagged htagged
    rcases List.mem_pair.mp htagged with rfl | rfl
    · exact ⟨by decide, fun _ _ h => by cases h⟩
    · exact ⟨by decide, fun _ _ h => by cases h⟩
  obtain ⟨-, -, -, hmore⟩ := decoder_reads_are_atomic [2, 44] [.tag, .tagOrEnd]
  refine ⟨hresult, hevent.after_of_error _ hresult, hcursor, ?_, ?_⟩
  · intro later lacking hend
    have hshort := (hevent.append_end [1] 3 2 hresult hwidth later lacking).mp hend
    exact absurd hshort.1 (by decide)
  · exact congrArg (List.map DecoderEvent.result) (hmore [1] hsettled)

end UndoLog
