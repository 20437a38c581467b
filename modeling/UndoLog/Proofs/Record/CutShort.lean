import UndoLog.Record.Canonical
import UndoLog.Proofs.Record.Placed

/-!
# Headers that are cut short

A field of which only the first bytes are there is reported with more bytes than are there and no
more than it has. So is the field of a header that the end falls into, and it is told by the
position where it starts.
-/

namespace UndoLog

namespace Field

/-- On every proper prefix of `encoding`, `reader` reports an unexpected end that needs at most the
encoding. -/
def ReportsCut {α : Type} (reader : Bytes → Except FieldError α) (encoding : Bytes) : Prop :=
  ∀ n < encoding.length, ∃ needed, reader (encoding.take n) = .error (.unexpectedEnd needed n) ∧
    n < needed ∧ needed ≤ encoding.length

private theorem reportsCut_byte (v : UInt8) : ReportsCut byte [v] := by
  intro n hn
  have hz : n = 0 := by
    rw [List.length_singleton] at hn
    omega
  subst hz
  exact ⟨1, rfl, Nat.zero_lt_one, Nat.le_refl _⟩

private theorem take_of_cut {encoding : Bytes} {n : Nat} (h : n < encoding.length) :
    take encoding.length (encoding.take n) = .error (.unexpectedEnd encoding.length n) := by
  have hlen : (encoding.take n).length = n := by
    rw [List.length_take]
    omega
  rw [take_eq_error_iff, hlen]
  exact ⟨h, rfl⟩

private theorem reportsCut_timestamp (t : Timestamp) :
    ReportsCut timestamp (LittleEndian.encodeSigned 8 t.micros) := by
  intro n hn
  have hcut := take_of_cut hn
  rw [LittleEndian.length_encodeSigned] at hcut hn ⊢
  exact ⟨8, timestamp_eq_error_iff.mpr (.inl hcut), hn, Nat.le_refl _⟩

private theorem ReportsCut.convert {α β : Type} {f : α → β}
    {reader : Bytes → Except FieldError (α × Bytes)}
    {encoding : Bytes} (h : ReportsCut reader encoding) :
    ReportsCut (fun bytes => Field.convert f (reader bytes)) encoding := by
  intro n hn
  obtain ⟨needed, hread, hbounds⟩ := h n hn
  refine ⟨needed, ?_, hbounds⟩
  dsimp only
  rw [hread]
  rfl

end Field

/-- A compact integer reports every cut: it needs its whole length, or one byte if the width byte is
missing. -/
private theorem Compact.reportsCut_decode {maxWidth n : Nat} (hmax : maxWidth < 256)
    (hn : byteWidth n ≤ maxWidth) : Field.ReportsCut (decode maxWidth) (encode n) := by
  intro m hm
  rw [length_encode] at hm ⊢
  unfold encodedLength at hm ⊢
  cases m with
  | zero => exact ⟨1, rfl, by omega, by omega⟩
  | succ m =>
    have hwidth : (UInt8.ofNat (byteWidth n)).toNat = byteWidth n := by
      rw [UInt8.toNat_ofNat']
      omega
    have hlen : ((LittleEndian.encode (byteWidth n) n).take m).length = m := by
      rw [List.length_take, LittleEndian.length_encode]
      omega
    refine ⟨1 + byteWidth n, ?_, by omega, Nat.le_refl _⟩
    unfold encode
    rw [List.take_succ_cons]
    simp only [decode, hwidth, hlen]
    rw [if_neg (by omega), if_pos (by omega), Nat.add_comm 1 m]

namespace Field

private theorem reportsCut_compact32 (v : UInt32) : ReportsCut compact32 (Compact.encode v.toNat) :=
  (Compact.reportsCut_decode (by decide) (Compact.byteWidth_word32 v)).convert

private theorem reportsCut_compact64 (v : UInt64) : ReportsCut compact64 (Compact.encode v.toNat) :=
  (Compact.reportsCut_decode (by decide) (Compact.byteWidth_word64 v)).convert

end Field

/-- The encoding of `value` starts at `position` among those of `values`. -/
def FieldValue.StandsAt (values : List FieldValue) (position : Nat) (value : FieldValue) : Prop :=
  ∃ before after, values = before ++ value :: after ∧ position = (before.flatMap encode).length

namespace FieldValue

variable {value : FieldValue} {values : List FieldValue} {position : Nat}

private theorem standsAt_head (value : FieldValue) (values : List FieldValue) :
    StandsAt (value :: values) 0 value :=
  ⟨[], values, rfl, rfl⟩

private theorem StandsAt.cons (h : StandsAt values position value) (first : FieldValue) :
    StandsAt (first :: values) (first.encode.length + position) value := by
  obtain ⟨before, after, rfl, rfl⟩ := h
  refine ⟨first :: before, after, rfl, ?_⟩
  rw [List.flatMap_cons, List.length_append]

/-- A value ends where the encodings do, or before. -/
theorem StandsAt.end_le (h : StandsAt values position value) :
    position + value.encode.length ≤ (values.flatMap encode).length := by
  obtain ⟨before, after, rfl, rfl⟩ := h
  rw [List.flatMap_append, List.flatMap_cons, List.length_append, List.length_append]
  omega

end FieldValue

namespace DecodedHeader

/-- The error is an unexpected end inside a header field that ends by `limit`. -/
def EndsInside {α : Type} (bytes : Bytes) (limit : Nat) (result : Except HeaderError α) : Prop :=
  ∃ position needed available,
    result = .error (.field position (.unexpectedEnd needed available)) ∧
      bytes.length < position + needed ∧ position + needed ≤ limit

/-- The error is an unexpected end inside one of `values`, encoded from `start` on. It reports the
start of that value, the bytes left there, and a need of more than those and at most its length. -/
def EndsInField {α : Type} (bytes : Bytes) (start : Nat) (values : List FieldValue)
    (result : Except HeaderError α) : Prop :=
  ∃ position value needed available, FieldValue.StandsAt values position value ∧
    result = .error (.field (start + position) (.unexpectedEnd needed available)) ∧
      start + position + available = bytes.length ∧ available < needed ∧
        needed ≤ value.encode.length

section

variable {α β : Type} {bytes unread : Bytes} {start n : Nat} {value : FieldValue}
  {values : List FieldValue} {result : Except HeaderError α}

private theorem EndsInField.cons
    (h : EndsInField bytes (start + value.encode.length) values result) :
    EndsInField bytes start (value :: values) result := by
  obtain ⟨position, cut, needed, available, hstands, hresult, hbytes, hneeded⟩ := h
  rw [Nat.add_assoc start] at hresult hbytes
  exact ⟨_, cut, needed, available, hstands.cons value, hresult, hbytes, hneeded⟩

private theorem EndsInField.endsInside (h : EndsInField bytes start values result) :
    EndsInside bytes (start + (values.flatMap FieldValue.encode).length) result := by
  obtain ⟨position, cut, needed, available, hstands, hresult, hbytes, hneeded⟩ := h
  have hend := hstands.end_le
  exact ⟨_, needed, available, hresult, by omega, by omega⟩

private theorem EndsInField.bind {first : Except HeaderError α}
    (h : EndsInField bytes start values first) (next : α → Except HeaderError β) :
    EndsInField bytes start values (first >>= next) := by
  obtain ⟨position, cut, needed, available, hstands, rfl, hbounds⟩ := h
  exact ⟨position, cut, needed, available, hstands, rfl, hbounds⟩

private theorem endsInField_bind {reader : Bytes → Except FieldError (α × Bytes)} {v : α}
    {next : α × Bytes → Except HeaderError β}
    (hread : ∀ rest, reader (value.encode ++ rest) = .ok (v, rest))
    (hcut : Field.ReportsCut reader value.encode) (hbytes : bytes.length = start + n)
    (hunread : unread = ((value :: values).flatMap FieldValue.encode).take n)
    (hnext : value.encode.length ≤ n →
      EndsInField bytes (start + value.encode.length) values
        (next (v, (values.flatMap FieldValue.encode).take (n - value.encode.length)))) :
    EndsInField bytes start (value :: values) (field bytes reader unread >>= next) := by
  rw [List.flatMap_cons] at hunread
  subst hunread
  by_cases hinside : n < value.encode.length
  · obtain ⟨needed, herror, hlo, hhi⟩ := hcut n hinside
    rw [List.take_append_of_le_length (by omega)]
    have hleft : bytes.length - (value.encode.take n).length = start := by
      rw [List.length_take]
      omega
    refine ⟨0, value, needed, n, FieldValue.standsAt_head value values, ?_, hbytes.symm, hlo, hhi⟩
    unfold field
    rw [hleft, herror]
    rfl
  · have htake : (value.encode ++ values.flatMap FieldValue.encode).take n =
        value.encode ++ (values.flatMap FieldValue.encode).take (n - value.encode.length) := by
      rw [List.take_append, List.take_of_length_le (by omega)]
    have hfield : field bytes reader ((value.encode ++ values.flatMap FieldValue.encode).take n) =
        .ok (v, (values.flatMap FieldValue.encode).take (n - value.encode.length)) := by
      rw [htake, field_eq_ok_iff, hread]
    rw [hfield]
    exact (hnext (by omega)).cons

end

private theorem endsInField_kind {kind : RecordKind} {bytes : Bytes} {start n : Nat}
    (hbytes : bytes.length = start + n)
    (hn : n < (kind.fields.flatMap FieldValue.encode).length) :
    EndsInField bytes start kind.fields (DecodedHeader.kind bytes kind.type
      ((kind.fields.flatMap FieldValue.encode).take n)) := by
  cases kind with
  | write targetOffset dataLength =>
    refine endsInField_bind (fun rest => Field.compact64_eq_ok_iff.mpr rfl)
      (Field.reportsCut_compact64 targetOffset) hbytes rfl fun hin => ?_
    refine endsInField_bind (fun rest => Field.compact32_eq_ok_iff.mpr rfl)
      (Field.reportsCut_compact32 dataLength) (by omega) rfl fun hin' => ?_
    -- No field is left that the end could fall into.
    simp only [RecordKind.fields, List.flatMap_cons, List.flatMap_nil, List.append_nil,
      List.length_append] at hn
    omega
  | length oldLength newLength =>
    refine endsInField_bind (fun rest => Field.compact64_eq_ok_iff.mpr rfl)
      (Field.reportsCut_compact64 oldLength) hbytes rfl fun hin => ?_
    refine endsInField_bind (fun rest => Field.compact64_eq_ok_iff.mpr rfl)
      (Field.reportsCut_compact64 newLength) (by omega) rfl fun hin' => ?_
    simp only [RecordKind.fields, List.flatMap_cons, List.flatMap_nil, List.append_nil,
      List.length_append] at hn
    omega

/-- A cut header ends inside the field that the cut falls into. -/
theorem endsInField_decode {r : Record} (hstored : r.timestamp.IsStored) (journalOffset : Nat)
    {n : Nat} (hn : n < r.headerLength) :
    EndsInField (r.header.take n) 0 r.headerFields (decode journalOffset (r.header.take n)) := by
  have hlen : (r.header.take n).length = n := by
    rw [List.length_take, Record.length_header]
    omega
  have htotal : r.headerLength =
      1 + (8 + (r.kind.fields.flatMap FieldValue.encode).length) := by
    rw [← Record.length_header, Record.header, Record.headerFields, List.flatMap_cons,
      List.flatMap_cons, List.length_append, List.length_append]
    simp only [FieldValue.encode, List.length_singleton, LittleEndian.length_encodeSigned]
  have hheader : r.header.take n = (r.headerFields.flatMap FieldValue.encode).take n := rfl
  generalize r.header.take n = bytes at hlen hheader ⊢
  unfold decode
  refine endsInField_bind (fun rest => Field.byte_eq_ok_iff.mpr rfl)
    (Field.reportsCut_byte r.type.tag) (show bytes.length = 0 + n by omega) hheader fun htag => ?_
  simp only [RecordType.ofTag?_tag, FieldValue.encode, List.length_singleton] at htag ⊢
  refine endsInField_bind (fun rest => Field.timestamp_eq_ok_iff.mpr ⟨hstored, rfl⟩)
    (Field.reportsCut_timestamp r.timestamp) (by omega) rfl fun htime => ?_
  simp only [FieldValue.encode, LittleEndian.length_encodeSigned] at htime ⊢
  have hkind : EndsInField bytes 9 r.kind.fields (DecodedHeader.kind bytes r.kind.type
      ((r.kind.fields.flatMap FieldValue.encode).take (n - 1 - 8))) :=
    endsInField_kind (by omega) (by omega)
  exact hkind.bind _

/-- A cut header ends inside a field. -/
theorem endsInside_decode {r : Record} (hstored : r.timestamp.IsStored) (journalOffset : Nat)
    {n : Nat} (hn : n < r.headerLength) :
    EndsInside (r.header.take n) r.headerLength (decode journalOffset (r.header.take n)) := by
  have hinside := (endsInField_decode hstored journalOffset hn).endsInside
  rw [Nat.zero_add, ← Record.header, Record.length_header] at hinside
  exact hinside

end DecodedHeader
end UndoLog
