import UndoLog.Bytes

/-!
# Numbers in little-endian bytes

A number of fixed width is written least significant byte first. Writing and reading are inverse
on numbers that fit the width, and on byte strings of that width. Signed numbers are written in
two's complement.
-/

namespace UndoLog.LittleEndian

/-- The number of values of `width` bytes. -/
def capacity : (width : Nat) → Nat
  | 0 => 1
  | width + 1 => 256 * capacity width

/-- The lowest `width` bytes of a number, least significant first. -/
def encode : (width n : Nat) → Bytes
  | 0, _ => []
  | width + 1, n => UInt8.ofNat n :: encode width (n / 256)

/-- The number that bytes hold, least significant first. -/
def decode : Bytes → Nat
  | [] => 0
  | b :: rest => b.toNat + 256 * decode rest

/-- A signed number in two's complement. -/
def encodeSigned (width : Nat) (i : Int) : Bytes := encode width (i % capacity width).toNat

/-- The signed number that bytes hold in two's complement. -/
def decodeSigned (bytes : Bytes) : Int := Int.bmod (decode bytes) (capacity bytes.length)

/-- Every width has a value. -/
theorem capacity_pos (width : Nat) : 0 < capacity width := by
  induction width with
  | zero => decide
  | succ width ih =>
    simp only [capacity]
    omega

/-- The capacity is monotone. -/
theorem capacity_le_of_le {a b : Nat} (h : a ≤ b) : capacity a ≤ capacity b := by
  induction h with
  | refl => exact Nat.le_refl _
  | step _ ih =>
    simp only [capacity]
    omega

/-- Four bytes hold the numbers below 2^32. -/
theorem capacity_four : capacity 4 = 4294967296 := rfl

/-- Eight bytes hold the numbers below 2^64. -/
theorem capacity_eight : capacity 8 = 18446744073709551616 := rfl

/-- An encoding has the width asked for. -/
@[simp] theorem length_encode (width n : Nat) : (encode width n).length = width := by
  induction width generalizing n with
  | zero => rfl
  | succ width ih => simp [encode, ih]

/-- A signed encoding has the width asked for. -/
@[simp] theorem length_encodeSigned (width : Nat) (i : Int) :
    (encodeSigned width i).length = width := length_encode _ _

/-- A decoded number is below the capacity of its bytes. -/
theorem decode_lt (bytes : Bytes) : decode bytes < capacity bytes.length := by
  induction bytes with
  | nil => decide
  | cons b rest ih =>
    have hb := b.toNat_lt
    simp only [decode, List.length_cons, capacity]
    omega

/-- A number below the capacity decodes to itself. -/
theorem decode_encode {width n : Nat} (h : n < capacity width) : decode (encode width n) = n := by
  induction width generalizing n with
  | zero =>
    simp only [capacity] at h
    simp only [encode, decode]
    omega
  | succ width ih =>
    simp only [capacity] at h
    simp only [encode, decode, ih (Nat.div_lt_of_lt_mul h), UInt8.toNat_ofNat']
    omega

/-- Bytes are the encoding of their number. -/
theorem encode_decode (bytes : Bytes) : encode bytes.length (decode bytes) = bytes := by
  induction bytes with
  | nil => rfl
  | cons b rest ih =>
    have hb := b.toNat_lt
    have hq : (b.toNat + 256 * decode rest) / 256 = decode rest := by omega
    have hr : UInt8.ofNat (b.toNat + 256 * decode rest) = b := by
      rw [← UInt8.toNat_inj, UInt8.toNat_ofNat']
      omega
    simp only [List.length_cons, decode, encode, hq, hr, ih]

/-- With a most significant byte other than zero, a number needs all of its bytes. -/
theorem capacity_le_decode_concat (bytes : Bytes) {last : UInt8} (h : last ≠ 0) :
    capacity bytes.length ≤ decode (bytes ++ [last]) := by
  induction bytes with
  | nil =>
    have hlast : last.toNat ≠ 0 := fun h0 => h (UInt8.toNat_inj.mp h0)
    simp only [List.nil_append, decode, List.length_nil, capacity]
    omega
  | cons b rest ih =>
    simp only [List.cons_append, decode, List.length_cons, capacity]
    omega

/-- A most significant zero byte does not change the number. -/
theorem decode_concat_zero (bytes : Bytes) : decode (bytes ++ [0]) = decode bytes := by
  induction bytes with
  | nil => rfl
  | cons b rest ih => simp [decode, ih]

/-- A signed number in range decodes to itself. -/
theorem decodeSigned_encodeSigned {width : Nat} {i : Int} (lo : -((capacity width : Int) / 2) ≤ i)
    (hi : i < ((capacity width : Int) + 1) / 2) : decodeSigned (encodeSigned width i) = i := by
  have hpos : 0 < (capacity width : Int) := Int.natCast_pos.mpr (capacity_pos width)
  have hnn := Int.emod_nonneg i (Int.ne_of_gt hpos)
  have hlt : (i % (capacity width : Int)).toNat < capacity width := by
    have := Int.emod_lt_of_pos i hpos
    omega
  unfold decodeSigned
  rw [length_encodeSigned]
  unfold encodeSigned
  rw [decode_encode hlt, Int.toNat_of_nonneg hnn, Int.emod_bmod]
  exact Int.bmod_eq_of_le lo hi

/-- Bytes are the encoding of their signed number. -/
theorem encodeSigned_decodeSigned (bytes : Bytes) :
    encodeSigned bytes.length (decodeSigned bytes) = bytes := by
  have hlt := decode_lt bytes
  unfold encodeSigned decodeSigned
  rw [Int.bmod_emod, Int.emod_eq_of_lt (by omega) (by omega), Int.toNat_natCast, encode_decode]

end UndoLog.LittleEndian
