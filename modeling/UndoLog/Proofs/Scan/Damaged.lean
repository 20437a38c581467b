import UndoLog.Proofs.Checksum
import UndoLog.Proofs.Scan.Backward
import UndoLog.Proofs.Scan.Forward

/-!
# Damaged records

Bytes that differ from others in no more than four places in a row have another checksum. So a
record whose header or payload was changed like that is refused backward, because its trailer, which
says where it starts and how long it is, is as it was. Where the header too is as it was the record
is refused forward, whatever became of payload or trailer.
-/

namespace UndoLog

/-- Byte strings of one length that differ, and only at positions `i` with `first ≤ i < stop`. -/
structure Bytes.DamagedWithin (data damaged : Bytes) (first stop : Nat) : Prop where
  length_eq : damaged.length = data.length
  ne : damaged ≠ data
  getElem?_eq : ∀ i, i < first ∨ stop ≤ i → damaged[i]? = data[i]?

namespace Bytes.DamagedWithin

variable {data damaged : Bytes} {first stop start length : Nat}

private theorem window_eq (h : data.DamagedWithin damaged first stop)
    (houtside : start + length ≤ first ∨ stop ≤ start) :
    damaged.window start length = data.window start length := by
  apply List.ext_getElem?
  intro i
  simp only [window, List.getElem?_take, List.getElem?_drop]
  split
  · exact h.getElem?_eq (start + i) (by omega)
  · rfl

private theorem window_ne (h : data.DamagedWithin damaged first stop) (hfirst : start ≤ first)
    (hstop : stop ≤ start + length) : damaged.window start length ≠ data.window start length := by
  intro hwindow
  apply h.ne
  apply List.ext_getElem?
  intro i
  by_cases hi : start ≤ i ∧ i < start + length
  · have hget := congrArg (·[i - start]?) hwindow
    simp only [window, List.getElem?_take, List.getElem?_drop] at hget
    rw [if_pos (by omega), if_pos (by omega), Nat.add_sub_cancel' hi.1] at hget
    exact hget
  · exact h.getElem?_eq i (by omega)

private theorem of_set {i : Nat} {byte : UInt8} (hi : i < data.length)
    (hne : data[i]? ≠ some byte) :
    data.DamagedWithin (data.set i byte) i (i + 1) where
  length_eq := List.length_set
  ne := by
    intro h
    apply hne
    rw [← h, List.getElem?_set_self hi]
  getElem?_eq j hj := List.getElem?_set_ne (by omega)

private theorem widen {a b : Nat} (h : data.DamagedWithin damaged first stop) (ha : a ≤ first)
    (hb : stop ≤ b) : data.DamagedWithin damaged a b where
  length_eq := h.length_eq
  ne := h.ne
  getElem?_eq i hi := h.getElem?_eq i (by omega)

private theorem inter {a b : Nat} (h : data.DamagedWithin damaged first stop)
    (ho : data.DamagedWithin damaged a b) :
    data.DamagedWithin damaged (max first a) (min stop b) where
  length_eq := h.length_eq
  ne := h.ne
  getElem?_eq i hi := by
    by_cases hout : i < first ∨ stop ≤ i
    · exact h.getElem?_eq i hout
    · exact ho.getElem?_eq i (by omega)

private theorem first_lt_stop (h : data.DamagedWithin damaged first stop) : first < stop := by
  by_contra hempty
  apply h.ne
  apply List.ext_getElem?
  intro i
  exact h.getElem?_eq i (by omega)

private theorem value_update_ne (h : data.DamagedWithin damaged first stop)
    (hshort : stop ≤ first + 4) (hfirst : start ≤ first) (hstop : stop ≤ start + length)
    (c : Checksum) :
    (c.update (damaged.window start length)).value ≠
      (c.update (data.window start length)).value := by
  have hlt := h.first_lt_stop
  -- a window that holds the damage is what stands before it, the damage, and what follows it
  have hsplit (bytes : Bytes) : bytes.window start length =
      bytes.window start (first - start) ++
        (bytes.window first (stop - first) ++ bytes.window stop (start + length - stop)) := by
    have hlength : length = (first - start) + ((stop - first) + (start + length - stop)) := by
      omega
    calc bytes.window start length
      _ = bytes.window start ((first - start) + ((stop - first) + (start + length - stop))) := by
        rw [← hlength]
      _ = _ := by
        rw [Bytes.window_add, Bytes.window_add, Nat.add_sub_cancel' hfirst,
          Nat.add_sub_cancel' (Nat.le_of_lt hlt)]
  have hbefore : damaged.window start (first - start) = data.window start (first - start) :=
    h.window_eq (by omega)
  have hafter : damaged.window stop (start + length - stop) =
      data.window stop (start + length - stop) := h.window_eq (by omega)
  have hchanged : damaged.window first (stop - first) ≠ data.window first (stop - first) :=
    h.window_ne (Nat.le_refl _) (by omega)
  intro hsum
  rw [hsplit damaged, hsplit data, hbefore, hafter, Checksum.update_append,
    Checksum.update_append c] at hsum
  apply hchanged
  apply Checksum.eq_of_value_update _ _ hsum
  · rw [Bytes.length_window_eq_min, Bytes.length_window_eq_min, h.length_eq]
  · rw [Bytes.length_window_eq_min]
    omega

end Bytes.DamagedWithin

namespace Record

variable {r other : Record} {t : Trailer} {journal damaged : Bytes} {first stop : Nat}

/-- Two records framed by one trailer in one place, each with its checksum in the trailer, do not
differ within four bytes before the trailer only. -/
private theorem FramedBy.not_damagedWithin (h : r.FramedBy t journal)
    (ho : other.FramedBy t damaged) (hend : other.endOffset = r.endOffset)
    (hsum : r.checksumIn journal = t.checksum) (hother : other.checksumIn damaged = t.checksum)
    (hshort : stop ≤ first + 4) (hfirst : r.journalOffset ≤ first)
    (hstop : stop ≤ r.endOffset - Layout.trailerLength) :
    ¬ journal.DamagedWithin damaged first stop := by
  intro hdamage
  obtain ⟨hheader, hdata⟩ := h.lengths_eq
  obtain ⟨hotherHeader, hotherData⟩ := ho.lengths_eq
  rw [hheader] at hotherHeader
  rw [hdata] at hotherData
  have htotal := r.endOffset_eq
  have hothertotal := other.endOffset_eq
  have hoffset : other.journalOffset = r.journalOffset := by omega
  have hchanged := hdamage.value_update_ne hshort hfirst
    (show stop ≤ r.journalOffset + (r.headerLength + r.dataLength) by omega)
    (Checksum.start.update (LittleEndian.encode 8 r.journalOffset))
  apply hchanged
  rw [← h.checksumIn_eq, hsum, ← hother, ho.checksumIn_eq, hoffset, hotherHeader, hotherData]

namespace StandsIn

variable {payload : Bytes}

private theorem windows_of_damagedWithin (h : r.StandsIn payload journal)
    (hdamage : journal.DamagedWithin damaged first stop) :
    (r.payloadOffset ≤ first →
        damaged.window r.journalOffset r.headerLength = r.header) ∧
      (stop ≤ r.endOffset - Layout.trailerLength →
        damaged.window (r.endOffset - Layout.trailerLength) Layout.trailerLength =
          (r.trailer payload).encode) := by
  constructor
  · intro hfirst
    rw [hdamage.window_eq (.inl hfirst), h.windows.1]
  · intro hstop
    rw [hdamage.window_eq (.inr hstop), h.windows.2.2]

/-- A record damaged within four bytes of header and payload is corrupt backward. -/
theorem resultOn_backward_of_damagedWithin (h : r.StandsIn payload journal)
    (hdamage : journal.DamagedWithin damaged first stop) (hshort : stop ≤ first + 4)
    (hfirst : r.journalOffset ≤ first) (hstop : stop ≤ r.endOffset - Layout.trailerLength) :
    ∃ error, (ScanTask.backward r.endOffset).resultOn damaged = .error error ∧
      error.isCorruption := by
  have hin := h.endOffset_le
  have hstart := h.start_le
  have hlonger := r.trailerLength_lt_encodedLength
  have hlt : Layout.journalStart < r.endOffset := by
    unfold endOffset
    omega
  rw [← hdamage.length_eq] at hin
  obtain ⟨other, otherPayload, -, hend, hother⟩ | hcorrupt := ScanTask.found_or_corrupt hlt hin
  · -- the trailer is as it was, so what is found has the place and the checksum of the record
    exfalso
    have hencode := hother.windows.2.2
    rw [hend, (h.windows_of_damagedWithin hdamage).2 hstop] at hencode
    have htrailer := Trailer.eq_of_encode hencode
    have hframed := hother.framedBy
    have hsum := hother.checksumIn_eq
    rw [← htrailer] at hframed hsum
    exact h.framedBy.not_damagedWithin hframed hend h.checksumIn_eq hsum hshort hfirst hstop hdamage
  · exact hcorrupt

/-- A record with an intact header, damaged within four bytes of the payload or in the trailer only,
is corrupt forward for every target length. -/
theorem resultOn_forward_of_damagedWithin (h : r.StandsIn payload journal)
    (hlimit : r.endOffset < Layout.offsetLimit)
    (hdamage : journal.DamagedWithin damaged first stop) (hfirst : r.payloadOffset ≤ first)
    (hstop : stop ≤ first + 4 ∧ stop ≤ r.endOffset - Layout.trailerLength ∨
      r.endOffset - Layout.trailerLength ≤ first ∧ stop ≤ r.endOffset)
    (targetLength : Nat) :
    ∃ damage, (ScanTask.forward r.journalOffset targetLength true).resultOn damaged =
      .error (.corruptRecord r.journalOffset damage) := by
  have hin := h.endOffset_le
  rw [← hdamage.length_eq] at hin
  have hheader := (h.windows_of_damagedWithin hdamage).1 hfirst
  obtain ⟨t, hframed, hsum⟩ | hcorrupt :=
    ScanTask.framedBy_or_corrupt h.start_le h.stored hheader hin hlimit targetLength
  · exfalso
    obtain ⟨hshort, hbody⟩ | ⟨htrailer, hend⟩ := hstop
    · have hencode := hframed.trailer_eq
      rw [(h.windows_of_damagedWithin hdamage).2 hbody] at hencode
      have hsame := Trailer.eq_of_encode hencode
      rw [← hsame] at hframed hsum
      have hoffset : r.journalOffset ≤ first :=
        Nat.le_trans (Nat.le_add_right _ _) hfirst
      exact h.framedBy.not_damagedWithin hframed rfl h.checksumIn_eq hsum hshort hoffset hbody
        hdamage
    · -- only the trailer of the record agrees with its header and has its checksum
      have hafter := r.payloadOffset_add_dataLength
      have hlonger := r.trailerLength_lt_encodedLength
      have hpayload : damaged.window r.payloadOffset r.dataLength = payload := by
        rw [hdamage.window_eq (.inl (by omega)), h.window_payload]
      have hsame : t = r.trailer payload := by
        apply r.eq_trailer_of_checkHeader payload hframed.agrees
        rw [← hpayload]
        exact hsum
      have hchanged : damaged.window (r.endOffset - Layout.trailerLength) Layout.trailerLength ≠
          journal.window (r.endOffset - Layout.trailerLength) Layout.trailerLength :=
        hdamage.window_ne htrailer (by unfold endOffset at hend ⊢; omega)
      rw [hframed.trailer_eq, h.windows.2.2, hsame] at hchanged
      exact hchanged rfl
  · exact hcorrupt

end StandsIn
end Record

/-- Damage to a record that a backward scan finds is detected. Within four bytes of header and
payload, the backward scan fails with corruption; within four bytes of the payload, or anywhere in
the trailer, a verifying forward scan reports the record as corrupt for every target length. -/
theorem local_damage_is_detected {journal damaged : Bytes}
    (hlen : journal.length < Layout.offsetLimit) {cursor start : Nat} {record : Record}
    (hfound : (ScanTask.backward cursor).resultOn journal = .ok (some ⟨record, start⟩)) :
    (∀ first stop, stop ≤ first + 4 → start ≤ first → stop ≤ cursor - Layout.trailerLength →
      journal.DamagedWithin damaged first stop →
        (∃ error, (ScanTask.backward cursor).resultOn damaged = .error error ∧
          error.isCorruption) ∧
        (journal.DamagedWithin damaged record.payloadOffset (cursor - Layout.trailerLength) →
          ∀ targetLength, ∃ damage,
            (ScanTask.forward start targetLength true).resultOn damaged =
              .error (.corruptRecord start damage))) ∧
    (journal.DamagedWithin damaged (cursor - Layout.trailerLength) cursor →
      ∀ targetLength, ∃ damage,
        (ScanTask.forward start targetLength true).resultOn damaged =
          .error (.corruptRecord start damage)) := by
  obtain ⟨rfl, rfl, payload, hstands⟩ := ScanTask.resultOn_backward_eq_some_iff.mp hfound
  have hlimit := Nat.lt_of_le_of_lt hstands.endOffset_le hlen
  have hafter := record.payloadOffset_add_dataLength
  constructor
  · intro first stop hshort hfirst hstop hdamage
    constructor
    · exact hstands.resultOn_backward_of_damagedWithin hdamage hshort hfirst hstop
    · intro hpayload
      exact hstands.resultOn_forward_of_damagedWithin hlimit (hdamage.inter hpayload)
        (Nat.le_max_right _ _) (.inl ⟨by omega, by omega⟩)
  · intro hdamage
    exact hstands.resultOn_forward_of_damagedWithin hlimit hdamage (by omega)
      (.inr ⟨Nat.le_refl _, Nat.le_refl _⟩)

/-- A write of two bytes with its first byte, or the tag of its trailer, replaced. -/
theorem local_damage_is_detected_of_byte :
    let record : Record := ⟨8, ⟨0, 0, by decide, by decide⟩, .write 3 2⟩
    let journal := Layout.magic ++ record.image [1, 2]
    (ScanTask.backward 37).resultOn journal = .ok (some ⟨record, 8⟩) ∧
      journal.DamagedWithin (journal.set 21 9) 21 22 ∧
      journal.DamagedWithin (journal.set 36 1) 36 37 ∧
      (∃ error, (ScanTask.backward 37).resultOn (journal.set 21 9) = .error error ∧
        error.isCorruption) ∧
      (∃ damage, (ScanTask.forward 8 9 true).resultOn (journal.set 21 9) =
        .error (.corruptRecord 8 damage)) ∧
      ∃ damage, (ScanTask.forward 8 9 true).resultOn (journal.set 36 1) =
        .error (.corruptRecord 8 damage) := by
  intro record journal
  have hstands : record.StandsIn [1, 2] journal := by
    have h : record.StandsIn [1, 2] (Layout.magic ++ record.image [1, 2] ++ []) :=
      .of_append (by decide) (by decide) (by decide) rfl rfl
    rw [List.append_nil] at h
    exact h
  have hlength : journal.length = 37 := by
    have himage : (record.image [1, 2]).length = 29 := Record.length_image rfl
    rw [List.length_append, himage, Layout.length_magic]
    rfl
  have hfound : (ScanTask.backward 37).resultOn journal = .ok (some ⟨record, 8⟩) :=
    ScanTask.resultOn_backward_eq_some_iff.mpr ⟨by decide, rfl, _, hstands⟩
  have hbytes : journal[21]? = some 1 ∧ journal[36]? = some 0 := by decide +kernel
  have hpayload : journal.DamagedWithin (journal.set 21 9) 21 22 :=
    .of_set (by omega) (by rw [hbytes.1]; decide)
  have htrailer : journal.DamagedWithin (journal.set 36 1) 36 37 :=
    .of_set (by omega) (by rw [hbytes.2]; decide)
  have hlimit : journal.length < Layout.offsetLimit := by
    rw [hlength]
    decide
  obtain ⟨hbackward, hforward⟩ := (local_damage_is_detected hlimit hfound).1 21 22 (by decide)
    (by decide) (by decide) hpayload
  have hend := (local_damage_is_detected hlimit hfound).2 (htrailer.widen (by decide) (by decide))
  exact ⟨hfound, hpayload, htrailer, hbackward,
    hforward (hpayload.widen (by decide) (by decide)) 9, hend 9⟩

end UndoLog
