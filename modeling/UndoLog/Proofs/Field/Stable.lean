import UndoLog.Field.Canonical
import UndoLog.Layout

/-!
# Fields that more bytes follow

A reader that has read a field, or has refused its bytes for what they are, does the same whatever
follows them. One that needs more bytes than there are takes as many when they are there, or needs
more still. This holds of every reader of a field.
-/

namespace UndoLog

/-- The bytes needed by a field that is cut short. -/
def FieldError.needed? : FieldError → Option Nat
  | .unexpectedEnd needed _ => some needed
  | _ => none

namespace Field

variable {α β : Type}

/-- A read takes at least `limit` bytes, needs at least that many, or refuses the bytes. -/
def Reaches (bytes : Bytes) (limit : Nat) : Except FieldError (α × Bytes) → Prop
  | .ok (_, rest) => limit + rest.length ≤ bytes.length
  | .error error => ∀ needed, error.needed? = some needed → limit ≤ needed

private theorem Reaches.mono {bytes : Bytes} {limit before : Nat}
    {read : Except FieldError (α × Bytes)}
    (h : Reaches bytes limit read) (hle : before ≤ limit) : Reaches bytes before read := by
  cases read with
  | ok found => exact Nat.le_trans (Nat.add_le_add_right hle _) h
  | error error => exact fun needed hneeded => Nat.le_trans hle (h needed hneeded)

/-- What a reader says of some bytes determines what it says when `more` follow: a value is read
again, a refusal not for the end stays, and a read that needed bytes takes them or needs no
fewer. -/
structure IsStable (reader : Bytes → Except FieldError (α × Bytes)) : Prop where
  append_ok {bytes rest : Bytes} {v : α} (more : Bytes) (h : reader bytes = .ok (v, rest)) :
    reader (bytes ++ more) = .ok (v, rest ++ more)
  append_refused {bytes : Bytes} {error : FieldError} (more : Bytes)
    (h : reader bytes = .error error) (hrefused : error.needed? = none) :
    reader (bytes ++ more) = .error error
  append_cut {bytes : Bytes} {error : FieldError} {needed : Nat} (more : Bytes)
    (h : reader bytes = .error error) (hcut : error.needed? = some needed) :
    Reaches (bytes ++ more) needed (reader (bytes ++ more))
  length_le {bytes rest : Bytes} {v : α} (h : reader bytes = .ok (v, rest)) :
    rest.length ≤ bytes.length
  needed_le {bytes : Bytes} {error : FieldError} {needed : Nat}
    (h : reader bytes = .error error) (hcut : error.needed? = some needed) :
    needed ≤ Layout.maxCompact64Length

/-- A byte is read stably. -/
theorem isStable_byte : IsStable byte where
  append_ok more h := by
    rw [byte_eq_ok_iff] at h ⊢
    rw [h, List.cons_append]
  append_refused {bytes error} more h hrefused := by
    cases bytes with
    | nil =>
      cases h
      cases hrefused
    | cons b rest => cases h
  append_cut {bytes error needed} more h hcut := by
    cases bytes with
    | nil =>
      cases h
      cases more with
      | nil => exact fun later hlater => Nat.le_of_eq (Option.some.inj (hcut.symm.trans hlater))
      | cons b rest =>
        cases hcut
        exact Nat.le_of_eq (Nat.add_comm 1 rest.length)
    | cons b rest => cases h
  length_le h := by
    rw [byte_eq_ok_iff.mp h]
    exact Nat.le_succ _
  needed_le {bytes error needed} h hcut := by
    cases bytes with
    | nil =>
      cases h
      cases hcut
      decide
    | cons b rest => cases h

/-- A fixed number of bytes is read stably. -/
theorem isStable_take {n : Nat} (hn : n ≤ Layout.maxCompact64Length) : IsStable (take n) where
  append_ok more h := by
    rw [take_eq_ok_iff] at h ⊢
    obtain ⟨hlen, rfl⟩ := h
    exact ⟨hlen, List.append_assoc _ _ more⟩
  append_refused more h hrefused := by
    rw [(take_eq_error_iff.mp h).2] at hrefused
    cases hrefused
  append_cut {bytes error needed} more h hcut := by
    rw [(take_eq_error_iff.mp h).2] at hcut
    cases hcut
    cases hlater : take n (bytes ++ more) with
    | ok found =>
      obtain ⟨hlen, hbytes⟩ := take_eq_ok_iff.mp hlater
      rw [hbytes, ← hlen]
      exact Nat.le_of_eq List.length_append.symm
    | error later =>
      rw [(take_eq_error_iff.mp hlater).2]
      exact fun needed hneeded => Nat.le_of_eq (Option.some.inj hneeded)
  length_le h := by
    rw [(take_eq_ok_iff.mp h).2, List.length_append]
    exact Nat.le_add_left _ _
  needed_le h hcut := by
    rw [(take_eq_error_iff.mp h).2] at hcut
    cases hcut
    exact hn

private theorem reaches_timestamp {bytes : Bytes} {limit : Nat}
    (h : Reaches bytes limit (take 8 bytes)) :
    Reaches bytes limit (timestamp bytes) := by
  unfold timestamp
  cases htake : take 8 bytes with
  | error error =>
    rw [htake] at h
    exact h
  | ok found =>
    obtain ⟨field, rest⟩ := found
    rw [htake] at h
    dsimp only
    cases Timestamp.ofMicros? (LittleEndian.decodeSigned field) with
    | some t => exact h
    | none => exact fun needed hneeded => by cases hneeded

/-- A timestamp is read stably. -/
theorem isStable_timestamp : IsStable timestamp where
  append_ok more h := by
    rw [timestamp_eq_ok_iff] at h ⊢
    obtain ⟨hstored, rfl⟩ := h
    exact ⟨hstored, List.append_assoc _ _ more⟩
  append_refused more h hrefused := by
    rw [timestamp_eq_error_iff] at h ⊢
    obtain htake | ⟨field, rest, htake, hrange⟩ := h
    · exact .inl ((isStable_take (by decide)).append_refused more htake hrefused)
    · exact .inr ⟨field, _, (isStable_take (by decide)).append_ok more htake, hrange⟩
  append_cut more h hcut := by
    rw [timestamp_eq_error_iff] at h
    obtain htake | ⟨_, _, _, _, rfl⟩ := h
    · exact reaches_timestamp ((isStable_take (by decide)).append_cut more htake hcut)
    · cases hcut
  length_le h := by
    rw [(timestamp_eq_ok_iff.mp h).2, List.length_append]
    exact Nat.le_add_left _ _
  needed_le h hcut := by
    rw [timestamp_eq_error_iff] at h
    obtain htake | ⟨_, _, _, _, rfl⟩ := h
    · exact (isStable_take (by decide)).needed_le htake hcut
    · cases hcut

private theorem reaches_convert_iff {f : α → β} {bytes : Bytes} {limit : Nat}
    {read : Except FieldError (α × Bytes)} :
    Reaches bytes limit (convert f read) ↔ Reaches bytes limit read := by
  cases read <;> rfl

/-- Converting the value does not change the error. -/
theorem convert_eq_error_iff {f : α → β} {read : Except FieldError (α × Bytes)}
    {error : FieldError} : convert f read = .error error ↔ read = .error error := by
  cases read <;> simp [convert, Except.map]

/-- Converting the value keeps a reader stable. -/
theorem IsStable.convert {reader : Bytes → Except FieldError (α × Bytes)} (h : IsStable reader)
    (f : α → β) : IsStable (fun bytes => Field.convert f (reader bytes)) where
  append_ok more hread := by
    rw [convert_eq_ok_iff] at hread ⊢
    obtain ⟨v, hread, rfl⟩ := hread
    exact ⟨v, h.append_ok more hread, rfl⟩
  append_refused more hread hrefused := by
    rw [convert_eq_error_iff] at hread ⊢
    exact h.append_refused more hread hrefused
  append_cut more hread hcut := by
    rw [convert_eq_error_iff] at hread
    rw [reaches_convert_iff]
    exact h.append_cut more hread hcut
  length_le hread := by
    obtain ⟨v, hread, -⟩ := convert_eq_ok_iff.mp hread
    exact h.length_le hread
  needed_le hread hcut := h.needed_le (convert_eq_error_iff.mp hread) hcut

end Field

namespace Compact

private theorem reaches_decode_cons (maxWidth : Nat) (widthByte : UInt8) (rest : Bytes) :
    Field.Reaches (widthByte :: rest) (1 + widthByte.toNat)
      (decode maxWidth (widthByte :: rest)) := by
  simp only [decode]
  split
  · exact fun needed hneeded => by cases hneeded
  · split
    · exact fun needed hneeded => Nat.le_of_eq (Option.some.inj hneeded)
    · split
      · exact fun needed hneeded => by cases hneeded
      · simp only [Field.Reaches, List.length_drop, List.length_cons]
        omega

/-- A compact integer cut short after its width byte needs that byte and the bytes it counts, at
most its maximal width. -/
private theorem needed_of_decode_cons {maxWidth needed : Nat} {widthByte : UInt8} {rest : Bytes}
    {error : FieldError} (h : decode maxWidth (widthByte :: rest) = .error error)
    (hcut : error.needed? = some needed) :
    needed = 1 + widthByte.toNat ∧ widthByte.toNat ≤ maxWidth := by
  simp only [decode] at h
  split at h
  · cases h
    cases hcut
  · split at h
    · cases h
      cases hcut
      exact ⟨rfl, by omega⟩
    · split at h
      · cases h
        cases hcut
      · cases h

private theorem isStable_decode {maxWidth : Nat} (hmax : maxWidth < Layout.maxCompact64Length) :
    Field.IsStable (decode maxWidth) where
  append_ok more h := by
    have hbyte : maxWidth < 256 := Nat.lt_trans hmax (by decide)
    rw [decode_eq_ok_iff hbyte] at h ⊢
    obtain ⟨hwidth, rfl⟩ := h
    exact ⟨hwidth, List.append_assoc _ _ more⟩
  append_refused {bytes error} more h hrefused := by
    cases bytes with
    | nil =>
      cases h
      cases hrefused
    | cons widthByte rest =>
      rw [List.cons_append]
      simp only [decode] at h ⊢
      split at h
      · next hwide => rw [if_pos hwide, h]
      · next hwide =>
        split at h
        · cases h
          cases hrefused
        · next hlen =>
          rw [if_neg hwide, if_neg (by rw [List.length_append]; omega),
            List.take_append_of_le_length (by omega)]
          split at h
          · next hzero => rw [if_pos hzero, h]
          · cases h
  append_cut {bytes error needed} more h hcut := by
    cases bytes with
    | nil =>
      cases h
      cases more with
      | nil => exact fun later hlater => Nat.le_of_eq (Option.some.inj (hcut.symm.trans hlater))
      | cons widthByte rest =>
        cases hcut
        exact (reaches_decode_cons maxWidth widthByte rest).mono (Nat.le_add_right 1 _)
    | cons widthByte rest =>
      rw [(needed_of_decode_cons h hcut).1]
      exact reaches_decode_cons maxWidth widthByte (rest ++ more)
  length_le h := by
    have hbyte : maxWidth < 256 := Nat.lt_trans hmax (by decide)
    rw [((decode_eq_ok_iff hbyte).mp h).2, List.length_append]
    exact Nat.le_add_left _ _
  needed_le {bytes error needed} h hcut := by
    cases bytes with
    | nil =>
      cases h
      cases hcut
      decide
    | cons widthByte rest =>
      obtain ⟨rfl, hwidth⟩ := needed_of_decode_cons h hcut
      omega

end Compact

namespace Field

/-- A compact integer below 2^32 is read stably. -/
theorem isStable_compact32 : IsStable compact32 :=
  (Compact.isStable_decode (by decide)).convert UInt32.ofNat

/-- A compact integer below 2^64 is read stably. -/
theorem isStable_compact64 : IsStable compact64 :=
  (Compact.isStable_decode (by decide)).convert UInt64.ofNat

end Field
end UndoLog
