import Mathlib.Algebra.Ring.Nat
import UndoLog.Checksum
import UndoLog.LittleEndian

/-!
# What a checksum tells apart

A step of the register is linear in exclusive or and loses nothing. Up to four bytes move the
register as the number they hold does that is added at once. Two strings of bytes that differ in one
place of at most four bytes therefore have different checksums, whatever stands before and after.
-/

namespace UndoLog.Checksum

/-! ### The register moved by bits -/

private theorem and_one_eq_one_iff (r : UInt32) : r &&& 1 = 1 ↔ r.toBitVec.getLsbD 0 = true := by
  have h : (r &&& 1).toBitVec = BitVec.setWidth 32 (BitVec.ofBool (r.toBitVec.getLsbD 0)) :=
    BitVec.and_one_eq_setWidth_ofBool_getLsbD
  rw [← UInt32.toBitVec_inj, h]
  cases r.toBitVec.getLsbD 0 <;> decide

private theorem bitStep_xor (a b : UInt32) : bitStep (a ^^^ b) = bitStep a ^^^ bitStep b := by
  unfold bitStep
  simp only [and_one_eq_one_iff, UInt32.toBitVec_xor, BitVec.getLsbD_xor, UInt32.shiftRight_xor]
  cases a.toBitVec.getLsbD 0 <;> cases b.toBitVec.getLsbD 0
  · rfl
  · exact UInt32.xor_assoc _ _ _
  · simp [UInt32.xor_assoc, UInt32.xor_comm polynomial]
  · -- both steps add the polynomial, and it cancels
    simp only [Bool.xor_self, Bool.false_eq_true, if_false, if_true]
    rw [UInt32.xor_comm (b >>> 1), UInt32.xor_assoc, ← UInt32.xor_assoc polynomial,
      UInt32.xor_self, UInt32.zero_xor]

private theorem eq_zero_of_bitStep {r : UInt32} (h : bitStep r = 0) : r = 0 := by
  have hshift : (r >>> 1).toNat = r.toNat / 2 := by
    rw [UInt32.toNat_shiftRight]
    rfl
  have hlt := r.toNat_lt
  unfold bitStep at h
  split at h
  · -- the polynomial has the highest bit, which no shifted register has
    rw [UInt32.xor_eq_zero_iff] at h
    have hpoly : (r >>> 1).toNat = 3988292384 := congrArg UInt32.toNat h
    omega
  · next heven =>
    have hhalf : (r >>> 1).toNat = 0 := congrArg UInt32.toNat h
    by_cases hone : r.toNat = 1
    · exact absurd (UInt32.toNat_inj.mp (by rw [UInt32.toNat_and, hone]; rfl)) heven
    · exact UInt32.toNat_inj.mp (by rw [UInt32.toNat_zero]; omega)

/-- One bit step is injective. -/
theorem bitStep_injective : Function.Injective bitStep := by
  intro a b h
  have hzero : bitStep (a ^^^ b) = 0 := by rw [bitStep_xor, h, UInt32.xor_self]
  exact UInt32.xor_eq_zero_iff.mp (eq_zero_of_bitStep hzero)

private theorem repeat_bitStep_xor (n : Nat) (a b : UInt32) :
    Nat.repeat bitStep n (a ^^^ b) = Nat.repeat bitStep n a ^^^ Nat.repeat bitStep n b := by
  induction n with
  | zero => rfl
  | succ n ih => simp only [Nat.repeat, ih, bitStep_xor]

private theorem repeat_bitStep_injective (n : Nat) : Function.Injective (Nat.repeat bitStep n) := by
  induction n with
  | zero => exact fun a b h => h
  | succ n ih => exact fun a b h => ih (bitStep_injective h)

private theorem bitStep_ofNat {n : Nat} (h : 2 * n < UInt32.size) :
    bitStep (UInt32.ofNat (2 * n)) = UInt32.ofNat n := by
  have hn : (UInt32.ofNat (2 * n)).toNat = 2 * n := UInt32.toNat_ofNat_of_lt' h
  have heven : ¬ UInt32.ofNat (2 * n) &&& 1 = 1 := by
    intro hodd
    have hand := congrArg UInt32.toNat hodd
    rw [UInt32.toNat_and, hn, UInt32.toNat_one, Nat.and_one_is_mod] at hand
    omega
  unfold bitStep
  rw [if_neg heven, ← UInt32.toNat_inj, UInt32.toNat_shiftRight, hn,
    UInt32.toNat_ofNat_of_lt' (by omega)]
  show 2 * n / 2 = n
  omega

private theorem repeat_bitStep_add (m n : Nat) (r : UInt32) :
    Nat.repeat bitStep (m + n) r = Nat.repeat bitStep m (Nat.repeat bitStep n r) := by
  induction m with
  | zero => rw [Nat.zero_add]; rfl
  | succ m ih => rw [Nat.succ_add]; exact congrArg bitStep ih

private theorem repeat_bitStep_ofNat (k : Nat) {n : Nat} (h : 2 ^ k * n < UInt32.size) :
    Nat.repeat bitStep k (UInt32.ofNat (2 ^ k * n)) = UInt32.ofNat n := by
  induction k generalizing n with
  | zero => rw [Nat.pow_zero, Nat.one_mul]; rfl
  | succ k ih =>
    have hsplit : 2 ^ (k + 1) * n = 2 ^ k * (2 * n) := by
      rw [Nat.pow_succ, Nat.mul_assoc]
    have hlt : 2 * n < UInt32.size := by
      have hpos := Nat.two_pow_pos k
      rw [hsplit] at h
      exact Nat.lt_of_le_of_lt (Nat.le_mul_of_pos_left _ hpos) h
    rw [hsplit] at h ⊢
    show bitStep (Nat.repeat bitStep k _) = _
    rw [ih h, bitStep_ofNat hlt]

/-! ### The register moved by bytes -/

private theorem toUInt32_xor_ofNat (b : UInt8) {n : Nat} (h : 256 * n < UInt32.size) :
    b.toUInt32 ^^^ UInt32.ofNat (256 * n) = UInt32.ofNat (b.toNat + 256 * n) := by
  have hb := b.toNat_lt
  have hxor : b.toNat ^^^ 2 ^ 8 * n = b.toNat + 2 ^ 8 * n := by
    apply Nat.eq_of_testBit_eq
    intro i
    rw [Nat.add_comm, Nat.testBit_two_pow_mul_add n hb, Nat.testBit_xor, Nat.testBit_two_pow_mul]
    by_cases hi : i < 8
    · simp [hi, Nat.not_le.mpr hi]
    · have hle : 8 ≤ i := Nat.le_of_not_lt hi
      have hlow : b.toNat.testBit i = false :=
        Nat.testBit_lt_two_pow (Nat.lt_of_lt_of_le hb (Nat.pow_le_pow_right (by decide) hle))
      simp [hi, hle, hlow]
  have hsum : b.toNat + 256 * n < UInt32.size := by
    have hsize : UInt32.size = 4294967296 := rfl
    omega
  rw [← UInt32.toNat_inj, UInt32.toNat_xor, UInt8.toNat_toUInt32,
    UInt32.toNat_ofNat_of_lt' h, UInt32.toNat_ofNat_of_lt' hsum]
  exact hxor

private theorem foldl_byteStep {bytes : Bytes} (h : bytes.length ≤ 4) (r : UInt32) :
    bytes.foldl byteStep r =
      Nat.repeat bitStep (8 * bytes.length) (r ^^^ UInt32.ofNat (LittleEndian.decode bytes)) := by
  induction bytes generalizing r with
  | nil => exact UInt32.xor_zero.symm
  | cons b rest ih =>
    rw [List.length_cons] at h
    have hfits : 256 * LittleEndian.decode rest < UInt32.size := by
      have hlt := LittleEndian.decode_lt rest
      have hle := LittleEndian.capacity_le_of_le h
      rw [LittleEndian.capacity_four] at hle
      have hsize : UInt32.size = 4294967296 := rfl
      simp only [LittleEndian.capacity] at hle
      omega
    have hbyte : byteStep r b ^^^ UInt32.ofNat (LittleEndian.decode rest) =
        Nat.repeat bitStep 8 (r ^^^ UInt32.ofNat (LittleEndian.decode (b :: rest))) := by
      have hshift : Nat.repeat bitStep 8 (UInt32.ofNat (256 * LittleEndian.decode rest)) =
          UInt32.ofNat (LittleEndian.decode rest) := repeat_bitStep_ofNat 8 hfits
      rw [← hshift, byteStep, ← repeat_bitStep_xor, UInt32.xor_assoc, toUInt32_xor_ofNat b hfits]
      rfl
    rw [List.foldl_cons, ih (by omega), hbyte, ← repeat_bitStep_add, List.length_cons, Nat.mul_succ]

/-- Folding data is injective in the register. -/
theorem foldl_byteStep_injective (data : Bytes) :
    Function.Injective fun r => data.foldl byteStep r := by
  induction data with
  | nil => exact fun a b h => h
  | cons d rest ih =>
    intro a b h
    have hstep : byteStep a d = byteStep b d := ih h
    exact (UInt32.xor_left_inj _).mp (repeat_bitStep_injective 8 hstep)

/-- The checksum separates data that differ within four bytes, with any common bytes before and
after. -/
theorem eq_of_value_update {c : Checksum} {data other after : Bytes}
    (hlen : data.length = other.length) (hshort : data.length ≤ 4)
    (h : (c.update (data ++ after)).value = (c.update (other ++ after)).value) : data = other := by
  have hregister : (c.update (data ++ after)).register = (c.update (other ++ after)).register :=
    (UInt32.xor_left_inj _).mp h
  simp only [update, List.foldl_append] at hregister
  have hdata : data.foldl byteStep c.register = other.foldl byteStep c.register :=
    foldl_byteStep_injective after hregister
  rw [foldl_byteStep hshort, foldl_byteStep (hlen ▸ hshort), hlen] at hdata
  have hnumber := (UInt32.xor_right_inj _).mp (repeat_bitStep_injective _ hdata)
  have hfits (bytes : Bytes) (h : bytes.length ≤ 4) :
      (UInt32.ofNat (LittleEndian.decode bytes)).toNat = LittleEndian.decode bytes :=
    UInt32.toNat_ofNat_of_lt'
      (Nat.lt_of_lt_of_le (LittleEndian.decode_lt bytes) (LittleEndian.capacity_le_of_le h))
  have hdecode : LittleEndian.decode data = LittleEndian.decode other := by
    rw [← hfits data hshort, ← hfits other (hlen ▸ hshort), hnumber]
  rw [← LittleEndian.encode_decode data, hdecode, hlen, LittleEndian.encode_decode]

end UndoLog.Checksum
