import UndoLog.Bytes

/-!
# The checksum of a record

A 32-bit cyclic redundancy check over the reflected polynomial 0xEDB88320, with a register that
starts with every bit set and is complemented at the end. The register is moved on byte by byte, so
data may be added in pieces of any size.

UndoJournal specification: section 4.
-/

namespace UndoLog

/-- The register of a checksum under way. -/
structure Checksum where
  register : UInt32
  deriving DecidableEq, Repr

namespace Checksum

/-- The reflected polynomial, without its highest power. -/
def polynomial : UInt32 := 0xEDB88320

/-- One bit step of the register. -/
def bitStep (r : UInt32) : UInt32 :=
  if r &&& 1 = 1 then (r >>> 1) ^^^ polynomial else r >>> 1

/-- One byte step of the register. -/
def byteStep (r : UInt32) (b : UInt8) : UInt32 :=
  Nat.repeat bitStep 8 (r ^^^ b.toUInt32)

/-- The register before any data. -/
def start : Checksum := ⟨0xFFFFFFFF⟩

/-- The register after `data`. -/
def update (c : Checksum) (data : Bytes) : Checksum := ⟨data.foldl byteStep c.register⟩

/-- The checksum of the data so far. -/
def value (c : Checksum) : UInt32 := c.register ^^^ 0xFFFFFFFF

/-- The checksum of `data`. -/
def ofBytes (data : Bytes) : UInt32 := (start.update data).value

/-- Updates compose. -/
theorem update_append (c : Checksum) (a b : Bytes) :
    c.update (a ++ b) = (c.update a).update b := by
  simp [update, List.foldl_append]

end Checksum
end UndoLog
