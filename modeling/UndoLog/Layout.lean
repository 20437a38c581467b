import UndoLog.Bytes

/-!
# The layout of a journal

A journal opens with eight reserved bytes. Records follow without a gap, each a header, a payload
and a trailer of fixed length. Offsets are words of 64 bits.

UndoJournal specification: sections 3 and 4.
-/

namespace UndoLog.Layout

/-- The least number that is no offset. -/
def offsetLimit : Nat := UInt64.size

/-- The sum of an offset and a length, if it is an offset. -/
def addOffset? (offset length : Nat) : Option Nat :=
  if offset + length < offsetLimit then some (offset + length) else none

/-- The offset of the first record. -/
def journalStart : Nat := 8

/-- The reserved bytes of a new journal. -/
def magic : Bytes := [0x55, 0x4E, 0x44, 0x4F, 0x4A, 0x52, 0x4E, 0x31]

/-- The length of a record's tag. -/
def tagLength : Nat := 1

/-- The length of a timestamp. -/
def timestampLength : Nat := 8

/-- The greatest length of a compact integer below 2^32. -/
def maxCompact32Length : Nat := 5

/-- The greatest length of a compact integer below 2^64. -/
def maxCompact64Length : Nat := 9

/-- The length of every trailer: a checksum of four bytes, a header length of one, a payload length
of eight and a tag. -/
def trailerLength : Nat := 14

/-- The least length of a header: a tag, a timestamp and two zeros. -/
def minHeaderLength : Nat := tagLength + timestampLength + 2

/-- The greatest length of the header of a write. -/
def maxWriteHeaderLength : Nat :=
  tagLength + timestampLength + maxCompact64Length + maxCompact32Length

/-- The greatest length of any header, that of a length change. -/
def maxHeaderLength : Nat := tagLength + timestampLength + 2 * maxCompact64Length

/-- The most bytes a scan asks for at once. -/
def chunkLength : Nat := 512

/-- A checked sum is the sum. -/
theorem eq_of_addOffset? {offset length sum : Nat} (h : addOffset? offset length = some sum) :
    sum = offset + length := by
  unfold addOffset? at h
  split at h <;> cases h
  rfl

/-- A checked sum fails iff it reaches the limit. -/
theorem addOffset?_eq_none_iff {offset length : Nat} :
    addOffset? offset length = none ↔ offsetLimit ≤ offset + length := by
  unfold addOffset?
  split
  · next h => exact ⟨nofun, fun hlimit => absurd h (Nat.not_lt.mpr hlimit)⟩
  · next h => exact ⟨fun _ => Nat.not_lt.mp h, fun _ => rfl⟩

/-- The reserved bytes end at the first record. -/
theorem length_magic : magic.length = journalStart := rfl

end UndoLog.Layout
