import UndoLog.Proofs.Scan.Forward
import UndoLog.Proofs.Simulation.Builder
import UndoLog.Simulation.Target

/-!
# What a change does to a target

A change replaces bytes inside the target, cuts it, or puts bytes at its end, under a record of a
write or of a length. `Effect` lists these four cases. In each the record fits the target before the
change, a builder can write it, it takes the target back to what it was, and it tells the length
after the change, unless it is that of bytes put at the end.
-/

namespace UndoLog

namespace Bytes

/-- An overwrite inside the data keeps the length. -/
theorem length_overwrite {data others : Bytes} {offset : Nat}
    (h : offset + others.length ≤ data.length) :
    (data.overwrite offset others).length = data.length := by
  rw [overwrite, List.length_append, List.length_append, List.length_take, List.length_drop]
  omega

private theorem overwrite_overwrite_window {data others : Bytes} {offset : Nat}
    (h : offset + others.length ≤ data.length) :
    (data.overwrite offset others).overwrite offset (data.window offset others.length) = data := by
  have hwindow : (data.window offset others.length).length = others.length := length_window h
  have htake : (data.take offset).length = offset := by
    rw [List.length_take]
    omega
  have hfront : (data.overwrite offset others).take offset = data.take offset := by
    rw [overwrite, List.append_assoc, List.take_append_of_le_length (by omega), List.take_take,
      Nat.min_self]
  have hback : (data.overwrite offset others).drop (offset + others.length) =
      data.drop (offset + others.length) := by
    rw [overwrite, List.drop_append, List.length_append, htake, Nat.sub_self, List.drop_zero,
      List.drop_of_length_le (Nat.le_of_eq (by rw [List.length_append, htake])), List.nil_append]
  calc (data.overwrite offset others).overwrite offset (data.window offset others.length)
    _ = (data.overwrite offset others).take offset ++ data.window offset others.length ++
          (data.overwrite offset others).drop
            (offset + (data.window offset others.length).length) := rfl
    _ = data.take offset ++ data.window offset others.length ++
          data.drop (offset + others.length) := by rw [hfront, hwindow, hback]
    _ = data := take_append_window_append_drop

private theorem resize_of_le (data : Bytes) (count : Nat) (filler : UInt8) :
    data.resize (data.length + count) filler = data ++ List.replicate count filler := by
  rw [resize, List.take_of_length_le (Nat.le_add_right _ _), Nat.add_sub_cancel_left]

end Bytes

/-- The record gives `after` as the length after its change, or it is an empty write at `before`,
which does not tell the greater length after it. -/
def Record.LeadsTo (r : Record) (before after : Nat) : Prop :=
  r.lengthAfter? before = some after ∨
    r.lengthAfter? before = none ∧ before < after ∧
      ∃ targetOffset, r.kind = .write targetOffset 0 ∧ targetOffset.toNat = before

namespace TargetChange

/-- The record written before a change of a target, and the target after the change. -/
inductive Effect (target : Bytes) : BuilderStep → Bytes → Prop
  | overwrite (offset : Nat) (bytes : Bytes) (pos : 0 < bytes.length)
      (chunk : bytes.length ≤ maxChunk) (inside : offset + bytes.length ≤ target.length) :
      Effect target (.write (UInt64.ofNat offset) (target.window offset bytes.length))
        (target.overwrite offset bytes)
  | truncate (kept : Nat) (inside : kept < target.length) :
      Effect target (.length (UInt64.ofNat target.length) (UInt64.ofNat kept) (target.drop kept))
        (target.take kept)
  | append (bytes : Bytes) (pos : 0 < bytes.length) (chunk : bytes.length ≤ maxChunk) :
      Effect target (.write (UInt64.ofNat target.length) []) (target ++ bytes)
  | grow (bytes : Bytes) (chunk : bytes.length ≤ maxChunk) :
      Effect target
        (.length (UInt64.ofNat target.length) (UInt64.ofNat (target.length + bytes.length)) [])
        (target ++ bytes)

/-- A change that no redirection gives acts on a target with bytes. -/
theorem length_pos_of_redirected {target : Bytes} {change redirected : TargetChange}
    (h : (if target.length = 0 then change.onEmpty else change) = redirected)
    (hnever : ∀ other : TargetChange, other.onEmpty ≠ redirected) : 0 < target.length := by
  by_cases hlen : target.length = 0
  · rw [if_pos hlen] at h
    exact absurd h (hnever change)
  · omega

/-- No redirected change is an overwrite. -/
theorem onEmpty_ne_overwrite (change : TargetChange) (offsetSeed lengthSeed : Nat) :
    change.onEmpty ≠ .overwrite offsetSeed lengthSeed := by
  cases change <;> exact TargetChange.noConfusion

/-- No redirected change is a truncation. -/
theorem onEmpty_ne_truncate (change : TargetChange) (lengthSeed : Nat) :
    change.onEmpty ≠ .truncate lengthSeed := by
  cases change <;> exact TargetChange.noConfusion

/-- Every change has one of the four effects. -/
theorem effect_apply (stamp : UInt8) (target : Bytes) (change : TargetChange) :
    Effect target (change.apply stamp target).1 (change.apply stamp target).2 := by
  have hchunk : maxChunk = 256 := rfl
  unfold apply
  dsimp only
  split
  · next offsetSeed lengthSeed h =>
    have hpos := length_pos_of_redirected h (fun _ => onEmpty_ne_overwrite _ _ _)
    let offset := offsetSeed % target.length
    let count := 1 + lengthSeed % min (target.length - offset) maxChunk
    have hoffset : offset < target.length := Nat.mod_lt _ hpos
    have hcount : lengthSeed % min (target.length - offset) maxChunk <
        min (target.length - offset) maxChunk := Nat.mod_lt _ (by omega)
    have heffect : Effect target _ _ := .overwrite offset (List.replicate count stamp)
      (by rw [List.length_replicate]; omega) (by rw [List.length_replicate]; omega)
      (by rw [List.length_replicate]; omega)
    rw [List.length_replicate] at heffect
    exact heffect
  · next lengthSeed h =>
    have hpos := length_pos_of_redirected h (fun _ => onEmpty_ne_truncate _ _)
    exact .truncate _ (Nat.mod_lt _ hpos)
  · next lengthSeed h =>
    have hcount : lengthSeed % maxChunk < maxChunk := Nat.mod_lt _ (by omega)
    rw [Bytes.resize_of_le]
    exact .append _ (by rw [List.length_replicate]; omega) (by rw [List.length_replicate]; omega)
  · next lengthSeed h =>
    have hcount : lengthSeed % (maxChunk + 1) < maxChunk + 1 := Nat.mod_lt _ (by omega)
    have heffect : Effect target _ _ :=
      .grow (List.replicate (lengthSeed % (maxChunk + 1)) 0) (by rw [List.length_replicate]; omega)
    rw [List.length_replicate] at heffect
    rw [Bytes.resize_of_le]
    exact heffect

namespace Effect

variable {target after : Bytes} {step : BuilderStep}

private theorem toNat_offset {n : Nat} (hn : n ≤ target.length + maxChunk)
    (hsmall : target.length + maxChunk < Layout.offsetLimit) : (UInt64.ofNat n).toNat = n :=
  UInt64.toNat_ofNat_of_lt' (Nat.lt_of_le_of_lt hn hsmall)

private theorem toNat_chunk {n : Nat} (hn : n ≤ maxChunk) : (UInt32.ofNat n).toNat = n :=
  UInt32.toNat_ofNat_of_lt' (Nat.lt_of_le_of_lt hn (by decide))

private theorem chunk_ne_zero {n : Nat} (hpos : 0 < n) (hn : n ≤ maxChunk) :
    UInt32.ofNat n ≠ 0 := by
  intro hzero
  have hlength := toNat_chunk hn
  rw [hzero, UInt32.toNat_zero] at hlength
  omega

/-- A change adds at most a chunk to target and payload together. -/
theorem length_le (h : Effect target step after) :
    after.length + step.payload.length ≤ target.length + maxChunk := by
  cases h with
  | overwrite offset bytes pos chunk inside =>
    rw [Bytes.length_overwrite inside]
    show target.length + (target.window offset bytes.length).length ≤ _
    rw [Bytes.length_window inside]
    omega
  | truncate kept inside =>
    show (target.take kept).length + (target.drop kept).length ≤ _
    rw [List.length_take, List.length_drop]
    omega
  | append bytes pos chunk =>
    show (target ++ bytes).length + 0 ≤ _
    rw [List.length_append]
    omega
  | grow bytes chunk =>
    show (target ++ bytes).length + 0 ≤ _
    rw [List.length_append]
    omega

/-- The record of a change fits the target before it. -/
theorem fitsTarget (h : Effect target step after)
    (hsmall : target.length + maxChunk < Layout.offsetLimit) :
    step.kind.FitsTarget target.length := by
  have hhere := toNat_offset (Nat.le_add_right _ _) hsmall
  cases h with
  | overwrite offset bytes pos chunk inside =>
    have hoffset := toNat_offset (show offset ≤ target.length + maxChunk by omega) hsmall
    have hwindow : (target.window offset bytes.length).length = bytes.length :=
      Bytes.length_window inside
    simp only [BuilderStep.kind, RecordKind.FitsTarget, hwindow]
    rw [if_neg (chunk_ne_zero pos chunk), hoffset, toNat_chunk chunk]
    omega
  | truncate kept inside => exact Nat.le_of_eq hhere.symm
  | append bytes pos chunk => exact Nat.le_of_eq hhere.symm
  | grow bytes chunk => exact Nat.le_of_eq hhere.symm

/-- The record of a change is writable. -/
theorem isWritable (h : Effect target step after)
    (hsmall : target.length + maxChunk < Layout.offsetLimit) : step.IsWritable where
  fitsOffsets := (h.fitsTarget hsmall).fitsOffsets (by omega)
  length_payload := by
    have hhere := toNat_offset (Nat.le_add_right _ _) hsmall
    cases h with
    | overwrite offset bytes pos chunk inside =>
      have hwindow : (target.window offset bytes.length).length = bytes.length :=
        Bytes.length_window inside
      simp only [BuilderStep.kind, BuilderStep.payload, RecordKind.dataLength, hwindow]
      exact (toNat_chunk chunk).symm
    | truncate kept inside =>
      have hkept := toNat_offset (show kept ≤ target.length + maxChunk by omega) hsmall
      simp only [BuilderStep.kind, BuilderStep.payload, RecordKind.dataLength, hhere, hkept,
        List.length_drop]
    | append bytes pos chunk => rfl
    | grow bytes chunk =>
      have hafter := toNat_offset (show target.length + bytes.length ≤ _ by omega) hsmall
      simp only [BuilderStep.kind, BuilderStep.payload, RecordKind.dataLength, hhere, hafter,
        List.length_nil]
      omega

/-- The record of a change and its payload undo the change. -/
theorem undo?_eq (h : Effect target step after)
    (hsmall : target.length + maxChunk < Layout.offsetLimit) {r : Record}
    (hr : r.kind = step.kind) : r.undo? step.payload after = some target := by
  have hhere := toNat_offset (Nat.le_add_right _ _) hsmall
  unfold Record.undo?
  rw [hr]
  cases h with
  | overwrite offset bytes pos chunk inside =>
    have hoffset := toNat_offset (show offset ≤ target.length + maxChunk by omega) hsmall
    have hwindow : (target.window offset bytes.length).length = bytes.length :=
      Bytes.length_window inside
    have hfits : offset + bytes.length ≤ (target.overwrite offset bytes).length := by
      rw [Bytes.length_overwrite inside]
      exact inside
    simp only [BuilderStep.kind, BuilderStep.payload, hwindow, hoffset]
    rw [if_neg (chunk_ne_zero pos chunk), if_pos hfits, Bytes.overwrite_overwrite_window inside]
  | truncate kept inside =>
    have hkept := toNat_offset (show kept ≤ target.length + maxChunk by omega) hsmall
    have hlt : UInt64.ofNat kept < UInt64.ofNat target.length := by
      rw [UInt64.lt_iff_toNat_lt, hkept, hhere]
      exact inside
    simp only [BuilderStep.kind, BuilderStep.payload, hkept]
    rw [if_pos hlt, List.take_take, Nat.min_self, List.take_append_drop]
  | append bytes pos chunk =>
    show some ((target ++ bytes).take (UInt64.ofNat target.length).toNat) = some target
    rw [hhere, List.take_left]
  | grow bytes chunk =>
    have hafter := toNat_offset (show target.length + bytes.length ≤ _ by omega) hsmall
    have hge : ¬ UInt64.ofNat (target.length + bytes.length) < UInt64.ofNat target.length := by
      rw [UInt64.lt_iff_toNat_lt, hafter, hhere]
      omega
    simp only [BuilderStep.kind, hhere]
    rw [if_neg hge, List.take_left]

/-- The record of a change leads from the old length of the target to the new one. -/
theorem leadsTo (h : Effect target step after)
    (hsmall : target.length + maxChunk < Layout.offsetLimit) {r : Record}
    (hr : r.kind = step.kind) : r.LeadsTo target.length after.length := by
  have hhere := toNat_offset (Nat.le_add_right _ _) hsmall
  cases h with
  | overwrite offset bytes pos chunk inside =>
    have hwindow : (target.window offset bytes.length).length = bytes.length :=
      Bytes.length_window inside
    left
    unfold Record.lengthAfter?
    simp only [hr, BuilderStep.kind, hwindow]
    rw [if_neg (chunk_ne_zero pos chunk), Bytes.length_overwrite inside]
  | truncate kept inside =>
    have hkept := toNat_offset (show kept ≤ target.length + maxChunk by omega) hsmall
    left
    unfold Record.lengthAfter?
    simp only [hr, BuilderStep.kind, hkept, List.length_take]
    rw [Nat.min_eq_left (Nat.le_of_lt inside)]
  | append bytes pos chunk =>
    right
    refine ⟨?_, ?_, _, hr, hhere⟩
    · unfold Record.lengthAfter?
      rw [hr]
      rfl
    · rw [List.length_append]
      omega
  | grow bytes chunk =>
    have hafter := toNat_offset (show target.length + bytes.length ≤ _ by omega) hsmall
    left
    unfold Record.lengthAfter?
    simp only [hr, BuilderStep.kind, hafter, List.length_append]

end Effect
end TargetChange
end UndoLog
