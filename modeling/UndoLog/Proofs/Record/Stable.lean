import UndoLog.Proofs.Field.Stable
import UndoLog.Record.Canonical

/-!
# Headers that more bytes follow

A header is read one field after another, so it is read, or refused for what its bytes are, whatever
follows them. Of one that is cut short the end that is reported can only move on when more bytes
follow.
-/

namespace UndoLog

/-- The end of the cut field, if the header is cut short. -/
def HeaderError.fieldEnd? : HeaderError → Option Nat
  | .unknownTag _ => none
  | .field position error => error.needed?.map (position + ·)

namespace DecodedHeader

variable {α β : Type}

/-- A read passes at least `limit` of `bytes`, is cut in a field that ends at `limit` or later, or
refuses the bytes. -/
def Reaches (bytes : Bytes) (limit : Nat) : Except HeaderError (α × Bytes) → Prop
  | .ok (_, unread) => limit + unread.length ≤ bytes.length
  | .error error => ∀ fieldEnd, error.fieldEnd? = some fieldEnd → limit ≤ fieldEnd

/-- The read `later`, of the same bytes with `more` after them, follows from `read`: a value is read
again, a refusal not for the end stays, and where a field was cut `later` reaches its end. -/
def Foretells (bytes more : Bytes) (read later : Except HeaderError (α × Bytes)) : Prop :=
  match read with
  | .ok (v, unread) => unread.length ≤ bytes.length ∧ later = .ok (v, unread ++ more)
  | .error error =>
    (error.fieldEnd? = none → later = .error error) ∧
      ∀ fieldEnd, error.fieldEnd? = some fieldEnd →
        fieldEnd ≤ bytes.length + Layout.maxCompact64Length ∧
          Reaches (bytes ++ more) fieldEnd later

variable {bytes more unread : Bytes} {limit : Nat}

private theorem Reaches.bind {first : Except HeaderError (α × Bytes)}
    {next : α × Bytes → Except HeaderError (β × Bytes)} (h : Reaches bytes limit first)
    (hnext : ∀ v unread, limit + unread.length ≤ bytes.length →
      Reaches bytes limit (next (v, unread))) : Reaches bytes limit (first >>= next) := by
  cases first with
  | ok found => exact hnext found.1 found.2 h
  | error error => exact h

private theorem Foretells.bind {first later : Except HeaderError (α × Bytes)}
    {next laterNext : α × Bytes → Except HeaderError (β × Bytes)}
    (h : Foretells bytes more first later)
    (hnext : ∀ v unread, unread.length ≤ bytes.length →
      Foretells bytes more (next (v, unread)) (laterNext (v, unread ++ more)))
    (hreaches : ∀ limit v unread, limit + unread.length ≤ (bytes ++ more).length →
      Reaches (bytes ++ more) limit (laterNext (v, unread))) :
    Foretells bytes more (first >>= next) (later >>= laterNext) := by
  cases first with
  | ok found =>
    rw [h.2]
    exact hnext found.1 found.2 h.1
  | error error =>
    constructor
    · intro hrefused
      rw [h.1 hrefused]
      rfl
    · intro fieldEnd hcut
      obtain ⟨hbound, hlater⟩ := h.2 fieldEnd hcut
      exact ⟨hbound, hlater.bind (hreaches fieldEnd)⟩

/-- A reader of header fields reaches every place up to where it starts, and foretells the read of
the same bytes with `more` after them. -/
structure IsStable (reader : (bytes unread : Bytes) → Except HeaderError (α × Bytes)) : Prop where
  reaches {bytes unread : Bytes} {limit : Nat} (hin : limit + unread.length ≤ bytes.length) :
    Reaches bytes limit (reader bytes unread)
  foretells {bytes unread : Bytes} (more : Bytes) (hin : unread.length ≤ bytes.length) :
    Foretells bytes more (reader bytes unread) (reader (bytes ++ more) (unread ++ more))

private theorem isStable_ok (v : α) : IsStable fun _ unread => .ok (v, unread) where
  reaches hin := hin
  foretells _ hin := ⟨hin, rfl⟩

private theorem isStable_unknownTag (tag : UInt8) :
    IsStable (α := α) fun _ _ => .error (.unknownTag tag) where
  reaches _ _ hcut := by cases hcut
  foretells _ _ := ⟨fun _ => rfl, fun _ hcut => by cases hcut⟩

private theorem IsStable.bind {first : (bytes unread : Bytes) → Except HeaderError (α × Bytes)}
    {next : α → (bytes unread : Bytes) → Except HeaderError (β × Bytes)}
    (hfirst : IsStable first) (hnext : ∀ v, IsStable (next v)) :
    IsStable fun bytes unread =>
      first bytes unread >>= fun (v, unread) => next v bytes unread where
  reaches hin := (hfirst.reaches hin).bind fun v _ hin => (hnext v).reaches hin
  foretells more hin := (hfirst.foretells more hin).bind
    (fun v _ hin => (hnext v).foretells more hin) (fun _ v _ hin => (hnext v).reaches hin)

private theorem reaches_field {reader : Bytes → Except FieldError (α × Bytes)}
    (h : Field.Reaches unread limit (reader unread)) (hin : unread.length ≤ bytes.length) :
    Reaches bytes (bytes.length - unread.length + limit) (field bytes reader unread) := by
  unfold field
  cases hread : reader unread with
  | ok found =>
    rw [hread] at h
    simp only [Field.Reaches] at h
    show bytes.length - unread.length + limit + found.2.length ≤ bytes.length
    omega
  | error error =>
    rw [hread] at h
    intro fieldEnd hcut
    obtain ⟨needed, hneeded, rfl⟩ := Option.map_eq_some_iff.mp hcut
    exact Nat.add_le_add_left (h needed hneeded) _

private theorem Reaches.mono {before : Nat} {read : Except HeaderError (α × Bytes)}
    (h : Reaches bytes limit read) (hle : before ≤ limit) : Reaches bytes before read := by
  cases read with
  | ok found => exact Nat.le_trans (Nat.add_le_add_right hle _) h
  | error error => exact fun fieldEnd hcut => Nat.le_trans hle (h fieldEnd hcut)

private theorem isStable_field {reader : Bytes → Except FieldError (α × Bytes)}
    (h : Field.IsStable reader) : IsStable fun bytes unread => field bytes reader unread where
  reaches {bytes unread limit} hin := by
    have hstart : Field.Reaches unread 0 (reader unread) := by
      cases hread : reader unread with
      | ok found => exact Nat.le_trans (Nat.le_of_eq (Nat.zero_add _)) (h.length_le hread)
      | error error => exact fun needed _ => Nat.zero_le needed
    exact (reaches_field hstart (by omega)).mono (by omega)
  foretells {bytes unread} more hin := by
    have hposition : (bytes ++ more).length - (unread ++ more).length =
        bytes.length - unread.length := by
      rw [List.length_append, List.length_append]
      omega
    cases hread : reader unread with
    | ok found =>
      unfold field
      rw [hread, h.append_ok more hread]
      exact ⟨Nat.le_trans (h.length_le hread) hin, rfl⟩
    | error error =>
      rw [show field bytes reader unread = .error (.field (bytes.length - unread.length) error) by
        rw [field, hread]; rfl]
      constructor
      · intro hrefused
        rw [field, h.append_refused more hread (Option.map_eq_none_iff.mp hrefused), hposition]
        rfl
      · intro fieldEnd hcut
        obtain ⟨needed, hneeded, rfl⟩ := Option.map_eq_some_iff.mp hcut
        have hbound := h.needed_le hread hneeded
        have hin' : (unread ++ more).length ≤ (bytes ++ more).length := by
          rw [List.length_append, List.length_append]
          omega
        refine ⟨by omega, ?_⟩
        rw [← hposition]
        exact reaches_field (h.append_cut more hread hneeded) hin'

private theorem isStable_kind (type : RecordType) :
    IsStable fun bytes unread => kind bytes type unread := by
  cases type with
  | write =>
    have h := (isStable_field Field.isStable_compact64).bind fun targetOffset =>
      (isStable_field Field.isStable_compact32).bind fun dataLength =>
        isStable_ok (RecordKind.write targetOffset dataLength)
    exact h
  | length =>
    have h := (isStable_field Field.isStable_compact64).bind fun oldLength =>
      (isStable_field Field.isStable_compact64).bind fun newLength =>
        isStable_ok (RecordKind.length oldLength newLength)
    exact h

/-- The fields of a header after its tag. -/
def body (tag : UInt8) (bytes unread : Bytes) :
    Except HeaderError ((Timestamp × RecordKind) × Bytes) :=
  match RecordType.ofTag? tag with
  | none => .error (.unknownTag tag)
  | some type =>
    field bytes Field.timestamp unread >>= fun (timestamp, unread) =>
      kind bytes type unread >>= fun (kind, unread) => .ok ((timestamp, kind), unread)

private theorem isStable_body (tag : UInt8) : IsStable (body tag) := by
  unfold body
  cases RecordType.ofTag? tag with
  | none => exact isStable_unknownTag tag
  | some type =>
    have h := (isStable_field Field.isStable_timestamp).bind fun timestamp =>
      (isStable_kind type).bind fun kind => isStable_ok (timestamp, kind)
    exact h

/-- The fields of a header. -/
def fields (bytes : Bytes) : Except HeaderError ((Timestamp × RecordKind) × Bytes) :=
  field bytes Field.byte bytes >>= fun (tag, unread) => body tag bytes unread

private theorem foretells_fields (bytes more : Bytes) :
    Foretells bytes more (fields bytes) (fields (bytes ++ more)) :=
  ((isStable_field Field.isStable_byte).bind isStable_body).foretells more (Nat.le_refl _)

private theorem decode_eq_map_fields (journalOffset : Nat) (bytes : Bytes) :
    decode journalOffset bytes = (fields bytes).map fun ((timestamp, kind), unread) =>
      ⟨⟨journalOffset, timestamp, kind⟩, bytes.length - unread.length⟩ := by
  unfold decode fields body
  cases field bytes Field.byte bytes with
  | error error => rfl
  | ok found =>
    obtain ⟨tag, unread⟩ := found
    dsimp only [bind, Except.bind]
    cases RecordType.ofTag? tag with
    | none => rfl
    | some type =>
      dsimp only [bind, Except.bind]
      cases field bytes Field.timestamp unread with
      | error error => rfl
      | ok found =>
        obtain ⟨timestamp, unread⟩ := found
        dsimp only
        cases kind bytes type unread <;> rfl

/-- A header is refused iff its fields are. -/
theorem decode_eq_error_iff {journalOffset : Nat} {bytes : Bytes} {error : HeaderError} :
    decode journalOffset bytes = .error error ↔ fields bytes = .error error := by
  rw [decode_eq_map_fields]
  cases fields bytes <;> simp [Except.map]

/-- A header refused not for its end is refused the same way when more bytes follow. -/
theorem decode_append_of_refused {journalOffset : Nat} {error : HeaderError} (more : Bytes)
    (h : decode journalOffset bytes = .error error) (hrefused : error.fieldEnd? = none) :
    decode journalOffset (bytes ++ more) = .error error := by
  rw [decode_eq_error_iff] at h ⊢
  have hforetells := foretells_fields bytes more
  rw [h] at hforetells
  exact hforetells.1 hrefused

/-- A header cut in a field that ends at `fieldEnd` is, when more bytes follow, at least that long
or cut in a field that ends no earlier. -/
theorem decode_append_of_cut {journalOffset fieldEnd : Nat} {error : HeaderError} (more : Bytes)
    (h : decode journalOffset bytes = .error error) (hcut : error.fieldEnd? = some fieldEnd) :
    fieldEnd ≤ bytes.length + Layout.maxCompact64Length ∧
      (∀ decoded, decode journalOffset (bytes ++ more) = .ok decoded →
        fieldEnd ≤ decoded.length) ∧
      ∀ later laterEnd, decode journalOffset (bytes ++ more) = .error later →
        later.fieldEnd? = some laterEnd → fieldEnd ≤ laterEnd := by
  rw [decode_eq_error_iff] at h
  have hforetells := foretells_fields bytes more
  rw [h] at hforetells
  obtain ⟨hbound, hreaches⟩ := hforetells.2 fieldEnd hcut
  refine ⟨hbound, ?_, ?_⟩
  · intro decoded hdecoded
    rw [decode_eq_map_fields] at hdecoded
    cases hfields : fields (bytes ++ more) with
    | ok found =>
      rw [hfields] at hreaches hdecoded
      cases hdecoded
      simp only [Reaches] at hreaches
      dsimp only
      omega
    | error error =>
      rw [hfields] at hdecoded
      cases hdecoded
  · intro later laterEnd hlater hlaterCut
    rw [decode_eq_error_iff] at hlater
    rw [hlater] at hreaches
    exact hreaches laterEnd hlaterCut

end DecodedHeader
end UndoLog
