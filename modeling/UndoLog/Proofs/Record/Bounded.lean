import UndoLog.Proofs.Record.Stable

/-!
# Headers of bounded length

A field takes no more bytes than the widest of its form, and one that is cut short needs more than
are left and no more than that. The fields of a header come one after another, so a header that is
cut short ends past the bytes there are, and no later than the longest header.
-/

namespace UndoLog

namespace Field

variable {α β : Type} {bytes : Bytes} {width : Nat}

/-- A read takes at most `width` bytes, needs more than there are and at most `width`, or refuses
the bytes. -/
def EndsBy (bytes : Bytes) (width : Nat) : Except FieldError (α × Bytes) → Prop
  | .ok (_, rest) => bytes.length ≤ rest.length + width
  | .error error => ∀ needed, error.needed? = some needed → bytes.length < needed ∧ needed ≤ width

private theorem endsBy_byte (bytes : Bytes) : EndsBy bytes Layout.tagLength (byte bytes) := by
  cases bytes with
  | nil =>
    rintro needed ⟨⟩
    exact ⟨Nat.zero_lt_one, Nat.le_refl _⟩
  | cons b rest => exact Nat.le_refl _

private theorem endsBy_take (n : Nat) (bytes : Bytes) : EndsBy bytes n (take n bytes) := by
  unfold take
  split
  · next hshort =>
    rintro needed ⟨⟩
    exact ⟨hshort, Nat.le_refl _⟩
  · simp only [EndsBy, List.length_drop]
    omega

private theorem endsBy_timestamp (bytes : Bytes) :
    EndsBy bytes Layout.timestampLength (timestamp bytes) := by
  have h := endsBy_take 8 bytes
  unfold timestamp
  cases htake : take 8 bytes with
  | error error =>
    rw [htake] at h
    exact h
  | ok found =>
    rw [htake] at h
    dsimp only
    cases Timestamp.ofMicros? (LittleEndian.decodeSigned found.1) with
    | some t => exact h
    | none => exact fun needed hcut => by cases hcut

private theorem EndsBy.convert {read : Except FieldError (α × Bytes)} (h : EndsBy bytes width read)
    (f : α → β) : EndsBy bytes width (convert f read) := by
  cases read <;> exact h

private theorem endsBy_compact (maxWidth : Nat) (bytes : Bytes) :
    EndsBy bytes (1 + maxWidth) (Compact.decode maxWidth bytes) := by
  cases bytes with
  | nil =>
    rintro needed ⟨⟩
    exact ⟨Nat.zero_lt_one, Nat.le_add_right 1 maxWidth⟩
  | cons widthByte rest =>
    simp only [Compact.decode]
    split
    · exact fun needed hcut => by cases hcut
    · split
      · rintro needed ⟨⟩
        rw [List.length_cons]
        omega
      · split
        · exact fun needed hcut => by cases hcut
        · simp only [EndsBy, List.length_cons, List.length_drop]
          omega

private theorem endsBy_compact32 (bytes : Bytes) :
    EndsBy bytes Layout.maxCompact32Length (compact32 bytes) :=
  (endsBy_compact 4 bytes).convert UInt32.ofNat

private theorem endsBy_compact64 (bytes : Bytes) :
    EndsBy bytes Layout.maxCompact64Length (compact64 bytes) :=
  (endsBy_compact 8 bytes).convert UInt64.ofNat

end Field

namespace DecodedHeader

variable {α β : Type} {bytes : Bytes} {limit width : Nat}

/-- A read takes at most `limit` bytes, needs more than there are and at most `limit`, or refuses
the bytes. -/
def EndsBy (bytes : Bytes) (limit : Nat) : Except HeaderError (α × Bytes) → Prop
  | .ok (_, unread) => bytes.length ≤ unread.length + limit
  | .error error =>
    ∀ fieldEnd, error.fieldEnd? = some fieldEnd → bytes.length < fieldEnd ∧ fieldEnd ≤ limit

private theorem EndsBy.mono {later : Nat} {read : Except HeaderError (α × Bytes)}
    (h : EndsBy bytes limit read) (hle : limit ≤ later) : EndsBy bytes later read := by
  cases read with
  | ok found => exact Nat.le_trans h (Nat.add_le_add_left hle _)
  | error error => exact fun fieldEnd hcut => (h fieldEnd hcut).imp_right (Nat.le_trans · hle)

/-- A reader of header fields ends by `width` bytes past where it starts. -/
def IsBounded (width : Nat) (reader : (bytes unread : Bytes) → Except HeaderError (α × Bytes)) :
    Prop :=
  ∀ (bytes unread : Bytes) (limit : Nat), bytes.length ≤ unread.length + limit →
    EndsBy bytes (limit + width) (reader bytes unread)

private theorem isBounded_ok (v : α) : IsBounded 0 fun _ unread => .ok (v, unread) :=
  fun _ _ _ hstart => hstart

private theorem IsBounded.mono {wider : Nat}
    {reader : (bytes unread : Bytes) → Except HeaderError (α × Bytes)} (h : IsBounded width reader)
    (hle : width ≤ wider) : IsBounded wider reader :=
  fun bytes unread limit hstart => (h bytes unread limit hstart).mono (Nat.add_le_add_left hle _)

private theorem IsBounded.bind {first : (bytes unread : Bytes) → Except HeaderError (α × Bytes)}
    {next : α → (bytes unread : Bytes) → Except HeaderError (β × Bytes)} {more : Nat}
    (hfirst : IsBounded width first) (hnext : ∀ v, IsBounded more (next v)) :
    IsBounded (width + more) fun bytes unread =>
      first bytes unread >>= fun (v, unread) => next v bytes unread := by
  intro bytes unread limit hstart
  have h := hfirst bytes unread limit hstart
  rw [← Nat.add_assoc]
  dsimp only
  cases hread : first bytes unread with
  | ok found =>
    rw [hread] at h
    exact hnext found.1 bytes found.2 _ h
  | error error =>
    rw [hread] at h
    exact fun fieldEnd hcut =>
      (h fieldEnd hcut).imp_right (Nat.le_trans · (Nat.le_add_right _ more))

private theorem isBounded_field {reader : Bytes → Except FieldError (α × Bytes)}
    (h : ∀ bytes, Field.EndsBy bytes width (reader bytes)) :
    IsBounded width fun bytes unread => field bytes reader unread := by
  intro bytes unread limit hstart
  have hfield := h unread
  show EndsBy bytes (limit + width) (field bytes reader unread)
  unfold field
  cases hread : reader unread with
  | ok found =>
    rw [hread] at hfield
    simp only [Field.EndsBy] at hfield
    show bytes.length ≤ found.2.length + (limit + width)
    omega
  | error error =>
    rw [hread] at hfield
    intro fieldEnd hcut
    obtain ⟨needed, hneeded, rfl⟩ := Option.map_eq_some_iff.mp hcut
    obtain ⟨hlo, hhi⟩ := hfield needed hneeded
    omega

private theorem isBounded_kind (type : RecordType) :
    IsBounded (2 * Layout.maxCompact64Length) fun bytes unread => kind bytes type unread := by
  cases type with
  | write =>
    have h := (isBounded_field Field.endsBy_compact64).bind fun targetOffset =>
      (isBounded_field Field.endsBy_compact32).bind fun dataLength =>
        isBounded_ok (RecordKind.write targetOffset dataLength)
    exact h.mono (by decide)
  | length =>
    have h := (isBounded_field Field.endsBy_compact64).bind fun oldLength =>
      (isBounded_field Field.endsBy_compact64).bind fun newLength =>
        isBounded_ok (RecordKind.length oldLength newLength)
    exact h

private theorem isBounded_body (tag : UInt8) :
    IsBounded (Layout.timestampLength + 2 * Layout.maxCompact64Length) (body tag) := by
  unfold body
  cases RecordType.ofTag? tag with
  | none => exact fun _ _ _ _ fieldEnd hcut => by cases hcut
  | some type =>
    have h := (isBounded_field Field.endsBy_timestamp).bind fun timestamp =>
      (isBounded_kind type).bind fun kind => isBounded_ok (timestamp, kind)
    exact h

private theorem endsBy_fields (bytes : Bytes) :
    EndsBy bytes Layout.maxHeaderLength (fields bytes) := by
  have h := (isBounded_field Field.endsBy_byte).bind isBounded_body
  exact (h bytes bytes 0 (Nat.le_refl _)).mono (by decide)

/-- The cut field of a header ends past the bytes, and by the maximal header length. -/
theorem fieldEnd_of_decode {journalOffset fieldEnd : Nat} {error : HeaderError}
    (h : decode journalOffset bytes = .error error) (hcut : error.fieldEnd? = some fieldEnd) :
    bytes.length < fieldEnd ∧ fieldEnd ≤ Layout.maxHeaderLength := by
  have hends := endsBy_fields bytes
  rw [decode_eq_error_iff.mp h] at hends
  exact hends fieldEnd hcut

end DecodedHeader
end UndoLog
