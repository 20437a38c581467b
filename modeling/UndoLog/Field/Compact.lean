import UndoLog.LittleEndian

/-!
# Compact integers

An integer is written as a byte that counts its significant bytes, and then those bytes, least
significant first. Zero has no significant byte. Reading accepts this shortest form only: a width
above the field's limit or a zero in the most significant place is refused, and what is read back
writes as the bytes it was read from.

The bytes of a field may end inside it, or be no value of it. Only the first kind of error may be
mended by more bytes.

UndoJournal specification: sections 4 and 5.1.
-/

namespace UndoLog

/-- A reason to refuse the bytes of a field. At an unexpected end the field takes `needed` bytes and
`available` are left. -/
inductive FieldError
  | unexpectedEnd (needed available : Nat)
  | invalidWidth (width max : Nat)
  | nonCanonical (width : Nat)
  | timestampOutOfRange (micros : Int)
  deriving DecidableEq, Repr

namespace FieldError

/-- More bytes could have been enough. -/
def isEnd : FieldError → Bool
  | .unexpectedEnd .. => true
  | _ => false

/-- The text of the error. -/
def message : FieldError → String
  | .unexpectedEnd needed available =>
    s!"unexpected end of input: needed {needed} bytes, {available} available"
  | .invalidWidth width max => s!"invalid integer width {width} (maximum {max})"
  | .nonCanonical width => s!"non-canonical integer encoding of width {width}"
  | .timestampOutOfRange micros => s!"timestamp out of range: {micros} microseconds"

end FieldError
end UndoLog

namespace UndoLog.Compact

/-- The number of significant bytes, none for zero. -/
def byteWidth (n : Nat) : Nat := if n = 0 then 0 else n.log2 / 8 + 1

/-- A width byte and the significant bytes. -/
def encode (n : Nat) : Bytes :=
  UInt8.ofNat (byteWidth n) :: LittleEndian.encode (byteWidth n) n

/-- The length of an encoding. -/
def encodedLength (n : Nat) : Nat := 1 + byteWidth n

/-- The compact integer of at most `maxWidth` significant bytes at the start, and the bytes after
it. A cut integer reports its whole length, the width byte counted. -/
def decode (maxWidth : Nat) : Bytes → Except FieldError (Nat × Bytes)
  | [] => .error (.unexpectedEnd 1 0)
  | widthByte :: rest =>
    let width := widthByte.toNat
    let significant := rest.take width
    if maxWidth < width then .error (.invalidWidth width maxWidth)
    else if rest.length < width then .error (.unexpectedEnd (1 + width) (1 + rest.length))
    else if significant.getLast? = some 0 then .error (.nonCanonical width)
    else .ok (LittleEndian.decode significant, rest.drop width)

/-- A number has at most `width` significant bytes iff it is below the capacity of `width` bytes. -/
theorem byteWidth_le_iff {n width : Nat} :
    byteWidth n ≤ width ↔ n < LittleEndian.capacity width := by
  have hcap : LittleEndian.capacity width = 2 ^ (8 * width) := by
    induction width with
    | zero => rfl
    | succ width ih =>
      rw [LittleEndian.capacity, ih, Nat.mul_succ, Nat.pow_add, Nat.mul_comm]
  unfold byteWidth
  split
  · next h =>
    have := LittleEndian.capacity_pos width
    omega
  · next h =>
    rw [hcap, ← Nat.log2_lt h]
    omega

private theorem lt_capacity_byteWidth (n : Nat) : n < LittleEndian.capacity (byteWidth n) :=
  byteWidth_le_iff.mp (Nat.le_refl _)

/-- A word of 32 bits has at most four significant bytes. -/
theorem byteWidth_word32 (v : UInt32) : byteWidth v.toNat ≤ 4 :=
  byteWidth_le_iff.mpr (LittleEndian.capacity_four ▸ v.toNat_lt)

/-- A word of 64 bits has at most eight significant bytes. -/
theorem byteWidth_word64 (v : UInt64) : byteWidth v.toNat ≤ 8 :=
  byteWidth_le_iff.mpr (LittleEndian.capacity_eight ▸ v.toNat_lt)

/-- An encoding has the computed length. -/
@[simp] theorem length_encode (n : Nat) : (encode n).length = encodedLength n := by
  simp [encode, encodedLength, Nat.add_comm]

/-- An encoding is not empty. -/
theorem encodedLength_pos (n : Nat) : 0 < encodedLength n := by
  unfold encodedLength
  omega

private theorem byteWidth_decode {bytes : Bytes} (h : bytes.getLast? ≠ some 0) :
    byteWidth (LittleEndian.decode bytes) = bytes.length := by
  apply Nat.le_antisymm
  · exact byteWidth_le_iff.mpr (LittleEndian.decode_lt bytes)
  · cases hb : bytes.reverse with
    | nil => simp_all
    | cons last front =>
      have hbytes : bytes = front.reverse ++ [last] := by
        have := congrArg List.reverse hb
        simpa using this
      subst hbytes
      have hlast : last ≠ 0 := by simpa using h
      have hpow := LittleEndian.capacity_le_decode_concat front.reverse hlast
      apply Nat.le_of_not_lt
      intro hlt
      have hle : byteWidth (LittleEndian.decode (front.reverse ++ [last])) ≤
          front.reverse.length := by
        simp only [List.length_append, List.length_singleton] at hlt
        omega
      have := byteWidth_le_iff.mp hle
      omega

/-- The significant bytes do not end in zero. -/
theorem getLast?_encode_ne (n : Nat) :
    (LittleEndian.encode (byteWidth n) n).getLast? ≠ some 0 := by
  intro h
  obtain ⟨front, hfront⟩ := List.getLast?_eq_some_iff.mp h
  have hn : LittleEndian.decode (front ++ [0]) = n := by
    rw [← hfront, LittleEndian.decode_encode (lt_capacity_byteWidth n)]
  rw [LittleEndian.decode_concat_zero] at hn
  have hlen := congrArg List.length hfront
  have := byteWidth_le_iff.mpr (hn ▸ LittleEndian.decode_lt front)
  simp at hlen
  omega

/-- A number is decoded iff the bytes begin with its encoding and it fits the maximal width. -/
theorem decode_eq_ok_iff {maxWidth n : Nat} {bytes rest : Bytes} (hmax : maxWidth < 256) :
    decode maxWidth bytes = .ok (n, rest) ↔ byteWidth n ≤ maxWidth ∧ bytes = encode n ++ rest := by
  constructor
  · intro h
    cases bytes with
    | nil => simp [decode] at h
    | cons w tail =>
      simp only [decode] at h
      split at h
      · cases h
      · split at h
        · cases h
        · split at h
          · cases h
          · next hw hlen hlast =>
            cases h
            have hwidth := byteWidth_decode hlast
            have htake : (tail.take w.toNat).length = w.toNat := by simp; omega
            rw [htake] at hwidth
            refine ⟨by omega, ?_⟩
            unfold encode
            rw [hwidth]
            have henc := LittleEndian.encode_decode (tail.take w.toNat)
            rw [htake] at henc
            rw [henc]
            simp
  · rintro ⟨hw, rfl⟩
    have hb : (UInt8.ofNat (byteWidth n)).toNat = byteWidth n := by
      simp; omega
    simp only [encode, List.cons_append, decode, hb]
    rw [if_neg (by omega), if_neg (by simp)]
    have htake : (LittleEndian.encode (byteWidth n) n ++ rest).take (byteWidth n) =
        LittleEndian.encode (byteWidth n) n := by
      rw [List.take_append_of_le_length (by simp), List.take_of_length_le (by simp)]
    rw [htake, if_neg (getLast?_encode_ne n), LittleEndian.decode_encode (lt_capacity_byteWidth n)]
    simp

end UndoLog.Compact
