import Mathlib.Algebra.Ring.Nat
import Mathlib.Data.List.Forall2
import UndoLog.Field.Canonical
import UndoLog.Field.Decoder

/-!
# Sequences of fields

Fields are written one after another without anything between them. A decoder that reads the same
forms in the same order gives the values back and stops where the last of them ends, whatever
follows; and what it reads at any position of any bytes is written as the bytes that it has taken.
An integer has one form, a width byte and the fewest bytes that hold it.
-/

namespace UndoLog

private theorem Compact.encodedLength_le_iff {n width : Nat} :
    encodedLength n ≤ 1 + width ↔ n < 256 ^ width := by
  have hcapacity : LittleEndian.capacity width = 256 ^ width := by
    induction width with
    | zero => rfl
    | succ width ih => rw [LittleEndian.capacity, ih, Nat.pow_succ, Nat.mul_comm]
  unfold encodedLength
  rw [Nat.add_le_add_iff_left, byteWidth_le_iff, hcapacity]

namespace FieldValue

/-- The integer of a compact field, and its maximal width. -/
def compact? : FieldValue → Option (Nat × Nat)
  | .compact32 value => some (value.toNat, 4)
  | .compact64 value => some (value.toNat, 8)
  | _ => none

private theorem stored_eq_some {v s : FieldValue} (h : v.stored = some s) :
    s.IsStored ∧ s.kind = v.kind ∧ s.encode = v.encode := by
  cases v with
  | timestamp t =>
    obtain ⟨t', ht, rfl⟩ := Option.map_eq_some_iff.mp h
    obtain ⟨hstored, hmicros⟩ := Timestamp.ofMicros?_eq_some_iff.mp ht
    exact ⟨hstored, rfl, by simp only [encode, hmicros]⟩
  | _ =>
    cases h
    exact ⟨trivial, rfl, rfl⟩

private theorem stored_eq_some_of_forall₂ {values stored : List FieldValue}
    (h : List.Forall₂ (fun v s => v.stored = some s) values stored) :
    (∀ s ∈ stored, s.IsStored) ∧ stored.map kind = values.map kind ∧
      stored.flatMap encode = values.flatMap encode := by
  induction h with
  | nil => exact ⟨fun s hs => absurd hs List.not_mem_nil, rfl, rfl⟩
  | cons hv _ ih =>
    obtain ⟨hstored, hkind, hencode⟩ := stored_eq_some hv
    obtain ⟨hrest, hkinds, hencodes⟩ := ih
    exact ⟨List.forall_mem_cons.mpr ⟨hstored, hrest⟩, by rw [List.map_cons, hkind, hkinds]; rfl,
      by rw [List.flatMap_cons, hencode, hencodes]; rfl⟩

private theorem length_encode_of_compact? {v : FieldValue} {n maxWidth : Nat}
    (h : v.compact? = some (n, maxWidth)) :
    v.encode.length = Compact.encodedLength n ∧ Compact.encodedLength n ≤ 1 + maxWidth := by
  cases v with
  | compact32 v =>
    cases h
    exact ⟨Compact.length_encode _, Nat.add_le_add_left (Compact.byteWidth_word32 v) 1⟩
  | compact64 v =>
    cases h
    exact ⟨Compact.length_encode _, Nat.add_le_add_left (Compact.byteWidth_word64 v) 1⟩
  | _ => cases h

end FieldValue

namespace FieldDecoder

variable {d next : FieldDecoder}

/-- A read succeeds iff the unread bytes begin with the encoding of the value, and moves past it. -/
theorem read_eq_ok_iff {kind : FieldKind} {v : FieldValue} :
    d.read kind = (.ok v, next) ↔
      v.kind = kind ∧ v.IsStored ∧ d.unread = v.encode ++ next.unread ∧
        next.position = d.position + v.encode.length := by
  constructor
  · intro h
    unfold read step at h
    split at h
    · next value rest hvalue =>
      cases h
      obtain ⟨hkind, hstored, hunread⟩ := FieldKind.read_eq_ok_iff.mp hvalue
      refine ⟨hkind, hstored, hunread, ?_⟩
      rw [hunread, List.length_append, Nat.add_sub_cancel]
    · cases h
  · rintro ⟨hkind, hstored, hunread, hposition⟩
    have hvalue := FieldKind.read_eq_ok_iff.mpr ⟨hkind, hstored, hunread⟩
    unfold read step
    rw [hvalue, hunread, List.length_append]
    dsimp only
    rw [Nat.add_sub_cancel, ← hposition]

private theorem readEach_cons_eq_ok_iff {kind : FieldKind} {kinds : List FieldKind} {v : FieldValue}
    {values : List FieldValue} :
    d.readEach (kind :: kinds) = ((v :: values).map .ok, next) ↔
      ∃ middle, d.read kind = (.ok v, middle) ∧
        middle.readEach kinds = (values.map .ok, next) := by
  rw [readEach]
  rcases d.read kind with ⟨result, middle⟩
  simp only [List.map_cons, Prod.mk.injEq, List.cons.injEq]
  constructor
  · rintro ⟨⟨rfl, hresults⟩, hnext⟩
    exact ⟨middle, ⟨rfl, rfl⟩, Prod.ext hresults hnext⟩
  · rintro ⟨_, ⟨rfl, rfl⟩, hrest⟩
    exact ⟨⟨rfl, congrArg Prod.fst hrest⟩, congrArg Prod.snd hrest⟩

/-- Reads one after another succeed iff the unread bytes begin with the encodings of the values, and
stop where these end. -/
theorem readEach_eq_ok_iff {kinds : List FieldKind} {values : List FieldValue} :
    d.readEach kinds = (values.map .ok, next) ↔
      values.map FieldValue.kind = kinds ∧ (∀ v ∈ values, v.IsStored) ∧
        d.unread = values.flatMap FieldValue.encode ++ next.unread ∧
        next.position = d.position + (values.flatMap FieldValue.encode).length := by
  induction values generalizing kinds d with
  | nil =>
    obtain ⟨position, unread⟩ := d
    obtain ⟨position', unread'⟩ := next
    cases kinds with
    | nil => simp [readEach, eq_comm, and_comm]
    | cons kind kinds => simp [readEach]
  | cons v values ih =>
    cases kinds with
    | nil => simp [readEach]
    | cons kind kinds =>
      rw [readEach_cons_eq_ok_iff]
      simp only [read_eq_ok_iff, ih, List.map_cons, List.cons.injEq, List.forall_mem_cons,
        List.flatMap_cons, List.append_assoc, List.length_append]
      constructor
      · rintro ⟨middle, ⟨hkind, hv, hunread, hposition⟩, hkinds, hvalues, hrest, hend⟩
        exact ⟨⟨hkind, hkinds⟩, ⟨hv, hvalues⟩, by rw [hunread, hrest],
          by rw [hend, hposition, Nat.add_assoc]⟩
      · rintro ⟨⟨hkind, hkinds⟩, ⟨hv, hvalues⟩, hunread, hend⟩
        exact ⟨⟨d.position + v.encode.length, values.flatMap FieldValue.encode ++ next.unread⟩,
          ⟨hkind, hv, hunread, rfl⟩, hkinds, hvalues, rfl, by rw [hend, Nat.add_assoc]⟩

end FieldDecoder

/-- Fields written one after another are read back in order, whatever follows, and the decoder stops
where they end; a timestamp is read back as the microseconds stored of it. Conversely, the values
read at a position are encoded as exactly the bytes passed. So each integer has one form, a width
byte and the fewest bytes that hold it, at most four or eight. -/
theorem fields_have_one_form :
    (∀ (values stored : List FieldValue) (more : Bytes),
      List.Forall₂ (fun v s => v.stored = some s) values stored →
        let written := values.flatMap FieldValue.encode
        (FieldDecoder.ofBytes (written ++ more)).readEach (values.map FieldValue.kind) =
          (stored.map .ok, ⟨written.length, more⟩)) ∧
    ∀ (data : Bytes) (position : Nat) (kind : FieldKind) (v : FieldValue) (next : FieldDecoder),
      (FieldDecoder.ofPosition data position).read kind = (.ok v, next) →
        v.kind = kind ∧ next = .ofPosition data (position + v.encode.length) ∧
          data.window position v.encode.length = v.encode ∧
          ∀ n maxWidth, v.compact? = some (n, maxWidth) →
            v.encode.length = Compact.encodedLength n ∧
              Compact.encodedLength n ≤ 1 + maxWidth ∧
              ∀ width, n < 256 ^ width ↔ Compact.encodedLength n ≤ 1 + width := by
  constructor
  · intro values stored more h written
    obtain ⟨hstored, hkinds, hencode⟩ := FieldValue.stored_eq_some_of_forall₂ h
    refine FieldDecoder.readEach_eq_ok_iff.mpr ⟨hkinds, hstored, ?_, ?_⟩
    · rw [hencode]
      rfl
    · rw [hencode]
      exact (Nat.zero_add _).symm
  · intro data position kind v next h
    obtain ⟨hkind, -, hunread, hposition⟩ := FieldDecoder.read_eq_ok_iff.mp h
    obtain ⟨nextPosition, unread⟩ := next
    simp only [FieldDecoder.ofPosition] at hunread hposition
    have hrest : data.drop (position + v.encode.length) = unread := by
      rw [← List.drop_drop, hunread, List.drop_left]
    refine ⟨hkind, ?_, ?_, fun n maxWidth hn => ?_⟩
    · rw [FieldDecoder.ofPosition, hrest, hposition]
    · rw [Bytes.window, hunread, List.take_left]
    · obtain ⟨hlength, hmax⟩ := v.length_encode_of_compact? hn
      exact ⟨hlength, hmax, fun width => Compact.encodedLength_le_iff.symm⟩

/-- A timestamp between two microseconds, a wide integer and a byte. The timestamp is read back as
the earlier microsecond, and the integer from its three bytes. -/
theorem fields_have_one_form_of_three :
    let values : List FieldValue :=
      [.timestamp ⟨0, 1500, by decide, by decide⟩, .compact64 300, .byte 7]
    let stored : List FieldValue :=
      [.timestamp ⟨0, 1000, by decide, by decide⟩, .compact64 300, .byte 7]
    let written := values.flatMap FieldValue.encode
    List.Forall₂ (fun v s => v.stored = some s) values stored ∧
      (FieldDecoder.ofBytes (written ++ [9])).readEach [.timestamp, .compact64, .byte] =
        (stored.map .ok, ⟨12, [9]⟩) ∧
      (FieldDecoder.ofPosition written 8).read .compact64 =
        (.ok (.compact64 300), .ofPosition written 11) ∧
      Bytes.window written 8 3 = [2, 44, 1] := by
  intro values stored written
  have hstored : List.Forall₂ (fun v s => FieldValue.stored v = some s) values stored :=
    .cons rfl (.cons rfl (.cons rfl .nil))
  obtain ⟨hread, hback⟩ := fields_have_one_form
  have hinteger : (FieldDecoder.ofPosition written 8).read .compact64 =
      (.ok (.compact64 300), .ofPosition written 11) := rfl
  obtain ⟨-, -, hwindow, -⟩ := hback written 8 .compact64 (.compact64 300) _ hinteger
  exact ⟨hstored, hread values stored [9] hstored, hinteger, hwindow⟩

end UndoLog
