import UndoLog.Field.Read

/-!
# Fields have one form

A field is read exactly from the bytes that it is written as. Each statement gives the value, the
bytes that were taken and the bytes that are left, so a read that succeeds does not depend on what
follows, and the fields of a sequence are read one after another as they were written.
-/

namespace UndoLog

/-- The timestamp is decoded from its own microseconds. -/
def Timestamp.IsStored (t : Timestamp) : Prop := Timestamp.ofMicros? t.micros = some t

instance (t : Timestamp) : Decidable t.IsStored := inferInstanceAs (Decidable (_ = _))

/-- The stored timestamps are those decoded from microseconds. -/
theorem Timestamp.ofMicros?_eq_some_iff {m : Int} {t : Timestamp} :
    Timestamp.ofMicros? m = some t ↔ t.IsStored ∧ m = t.micros := by
  constructor
  · intro h
    have hm := Timestamp.micros_of_ofMicros? h
    exact ⟨by rw [Timestamp.IsStored, hm, h], hm.symm⟩
  · rintro ⟨hs, rfl⟩
    exact hs

private theorem Timestamp.micros_mem_word (t : Timestamp) :
    -9223372036854775808 ≤ t.micros ∧ t.micros < 9223372036854775808 := by
  have hs := t.seconds_mem
  have hn := t.nanos_lt
  simp only [Timestamp.minSeconds, Timestamp.maxSeconds] at hs
  unfold Timestamp.micros
  omega

namespace Field

/-- A take succeeds iff there are enough bytes. -/
theorem take_eq_ok_iff {n : Nat} {bytes field rest : Bytes} :
    take n bytes = .ok (field, rest) ↔ field.length = n ∧ bytes = field ++ rest := by
  unfold take
  split
  · next h =>
    constructor
    · intro he
      cases he
    · rintro ⟨rfl, rfl⟩
      rw [List.length_append] at h
      omega
  · next h =>
    constructor
    · intro he
      cases he
      refine ⟨?_, (List.take_append_drop n bytes).symm⟩
      rw [List.length_take]
      omega
    · rintro ⟨rfl, rfl⟩
      simp

/-- A take fails iff there are too few bytes. -/
theorem take_eq_error_iff {n : Nat} {bytes : Bytes} {error : FieldError} :
    take n bytes = .error error ↔
      bytes.length < n ∧ error = .unexpectedEnd n bytes.length := by
  unfold take
  by_cases h : bytes.length < n
  · simp only [h, if_true, Except.error.injEq, true_and, eq_comm]
  · simp [h]

/-- A byte is read iff the bytes begin with it. -/
theorem byte_eq_ok_iff {bytes rest : Bytes} {v : UInt8} :
    byte bytes = .ok (v, rest) ↔ bytes = v :: rest := by
  cases bytes <;> simp [byte]

/-- A converted read succeeds iff the read does. -/
theorem convert_eq_ok_iff {α β : Type} {f : α → β} {read : Except FieldError (α × Bytes)} {v : β}
    {rest : Bytes} :
    convert f read = .ok (v, rest) ↔ ∃ a, read = .ok (a, rest) ∧ f a = v := by
  unfold convert
  cases read with
  | error e => simp [Except.map]
  | ok found =>
    obtain ⟨a, r⟩ := found
    simp only [Except.map, Prod.map, id, Except.ok.injEq, Prod.mk.injEq]
    constructor
    · rintro ⟨rfl, rfl⟩
      exact ⟨a, ⟨rfl, rfl⟩, rfl⟩
    · rintro ⟨_, ⟨rfl, rfl⟩, rfl⟩
      exact ⟨rfl, rfl⟩

/-- A word of 32 bits is read iff the bytes begin with its encoding. -/
theorem word32_eq_ok_iff {bytes rest : Bytes} {v : UInt32} :
    word32 bytes = .ok (v, rest) ↔ bytes = LittleEndian.encode 4 v.toNat ++ rest := by
  unfold word32
  rw [convert_eq_ok_iff]
  constructor
  · rintro ⟨field, ht, rfl⟩
    obtain ⟨hlen, rfl⟩ := take_eq_ok_iff.mp ht
    have hlt := LittleEndian.decode_lt field
    rw [hlen, LittleEndian.capacity_four] at hlt
    rw [UInt32.toNat_ofNat', Nat.mod_eq_of_lt hlt, ← hlen,
      LittleEndian.encode_decode]
  · rintro rfl
    have hv := v.toNat_lt
    refine ⟨LittleEndian.encode 4 v.toNat, take_eq_ok_iff.mpr ⟨by simp, rfl⟩, ?_⟩
    rw [LittleEndian.decode_encode (LittleEndian.capacity_four ▸ hv), UInt32.ofNat_toNat]

/-- A word of 64 bits is read iff the bytes begin with its encoding. -/
theorem word64_eq_ok_iff {bytes rest : Bytes} {v : UInt64} :
    word64 bytes = .ok (v, rest) ↔ bytes = LittleEndian.encode 8 v.toNat ++ rest := by
  unfold word64
  rw [convert_eq_ok_iff]
  constructor
  · rintro ⟨field, ht, rfl⟩
    obtain ⟨hlen, rfl⟩ := take_eq_ok_iff.mp ht
    have hlt := LittleEndian.decode_lt field
    rw [hlen, LittleEndian.capacity_eight] at hlt
    rw [UInt64.toNat_ofNat', Nat.mod_eq_of_lt hlt, ← hlen,
      LittleEndian.encode_decode]
  · rintro rfl
    have hv := v.toNat_lt
    refine ⟨LittleEndian.encode 8 v.toNat, take_eq_ok_iff.mpr ⟨by simp, rfl⟩, ?_⟩
    rw [LittleEndian.decode_encode (LittleEndian.capacity_eight ▸ hv), UInt64.ofNat_toNat]

/-- The microseconds of a timestamp decode to themselves. -/
theorem decodeSigned_encodeSigned_micros (t : Timestamp) :
    LittleEndian.decodeSigned (LittleEndian.encodeSigned 8 t.micros) = t.micros := by
  have hm := t.micros_mem_word
  apply LittleEndian.decodeSigned_encodeSigned <;> rw [LittleEndian.capacity_eight] <;> omega

private theorem timestamp_of_take {bytes field rest : Bytes} {t : Timestamp}
    (ht : take 8 bytes = .ok (field, rest))
    (hm : Timestamp.ofMicros? (LittleEndian.decodeSigned field) = some t) :
    timestamp bytes = .ok (t, rest) := by
  unfold timestamp
  rw [ht]
  simp only [hm]

/-- A timestamp is read iff it is stored and the bytes begin with its encoding. -/
theorem timestamp_eq_ok_iff {bytes rest : Bytes} {t : Timestamp} :
    timestamp bytes = .ok (t, rest) ↔
      t.IsStored ∧ bytes = LittleEndian.encodeSigned 8 t.micros ++ rest := by
  constructor
  · intro h
    unfold timestamp at h
    split at h
    · cases h
    · next field rest' ht =>
      obtain ⟨hlen, rfl⟩ := take_eq_ok_iff.mp ht
      split at h
      · next found hm =>
        cases h
        obtain ⟨hs, hmicros⟩ := Timestamp.ofMicros?_eq_some_iff.mp hm
        refine ⟨hs, ?_⟩
        rw [← hmicros, ← hlen, LittleEndian.encodeSigned_decodeSigned]
      · cases h
  · rintro ⟨hs, rfl⟩
    have ht : take 8 (LittleEndian.encodeSigned 8 t.micros ++ rest) =
        .ok (LittleEndian.encodeSigned 8 t.micros, rest) :=
      take_eq_ok_iff.mpr ⟨LittleEndian.length_encodeSigned 8 t.micros, rfl⟩
    refine timestamp_of_take ht ?_
    rw [decodeSigned_encodeSigned_micros]
    exact hs

/-- A timestamp is refused iff there are fewer than eight bytes, or their microseconds are out of
range. -/
theorem timestamp_eq_error_iff {bytes : Bytes} {error : FieldError} :
    timestamp bytes = .error error ↔
      take 8 bytes = .error error ∨
        ∃ field rest, take 8 bytes = .ok (field, rest) ∧
          Timestamp.ofMicros? (LittleEndian.decodeSigned field) = none ∧
          error = .timestampOutOfRange (LittleEndian.decodeSigned field) := by
  unfold timestamp
  cases take 8 bytes with
  | error e => simp
  | ok found =>
    obtain ⟨field, rest⟩ := found
    cases h : Timestamp.ofMicros? (LittleEndian.decodeSigned field) with
    | none => simp [h, eq_comm]
    | some t => simp [h]

/-- A compact integer below 2^32 is read iff the bytes begin with its encoding. -/
theorem compact32_eq_ok_iff {bytes rest : Bytes} {v : UInt32} :
    compact32 bytes = .ok (v, rest) ↔ bytes = Compact.encode v.toNat ++ rest := by
  unfold compact32
  rw [convert_eq_ok_iff]
  constructor
  · rintro ⟨n, hd, rfl⟩
    obtain ⟨hw, rfl⟩ := (Compact.decode_eq_ok_iff (by decide)).mp hd
    have hlt := Compact.byteWidth_le_iff.mp hw
    rw [LittleEndian.capacity_four] at hlt
    rw [UInt32.toNat_ofNat', Nat.mod_eq_of_lt hlt]
  · rintro rfl
    exact ⟨v.toNat, (Compact.decode_eq_ok_iff (by decide)).mpr
      ⟨Compact.byteWidth_word32 v, rfl⟩, UInt32.ofNat_toNat⟩

/-- A compact integer below 2^64 is read iff the bytes begin with its encoding. -/
theorem compact64_eq_ok_iff {bytes rest : Bytes} {v : UInt64} :
    compact64 bytes = .ok (v, rest) ↔ bytes = Compact.encode v.toNat ++ rest := by
  unfold compact64
  rw [convert_eq_ok_iff]
  constructor
  · rintro ⟨n, hd, rfl⟩
    obtain ⟨hw, rfl⟩ := (Compact.decode_eq_ok_iff (by decide)).mp hd
    have hlt := Compact.byteWidth_le_iff.mp hw
    rw [LittleEndian.capacity_eight] at hlt
    rw [UInt64.toNat_ofNat', Nat.mod_eq_of_lt hlt]
  · rintro rfl
    exact ⟨v.toNat, (Compact.decode_eq_ok_iff (by decide)).mpr
      ⟨Compact.byteWidth_word64 v, rfl⟩, UInt64.ofNat_toNat⟩

end Field

/-- The value is decoded from its own encoding. -/
def FieldValue.IsStored : FieldValue → Prop
  | .timestamp t => t.IsStored
  | _ => True

/-- A field is read iff its value is stored and the bytes begin with its encoding. -/
theorem FieldKind.read_eq_ok_iff {kind : FieldKind} {bytes rest : Bytes} {v : FieldValue} :
    kind.read bytes = .ok (v, rest) ↔
      v.kind = kind ∧ v.IsStored ∧ bytes = v.encode ++ rest := by
  cases kind <;> cases v <;>
    simp [FieldKind.read, Field.convert_eq_ok_iff, FieldValue.kind, FieldValue.IsStored,
      FieldValue.encode, Field.byte_eq_ok_iff, Field.word32_eq_ok_iff, Field.word64_eq_ok_iff,
      Field.timestamp_eq_ok_iff, Field.compact32_eq_ok_iff, Field.compact64_eq_ok_iff]

end UndoLog
