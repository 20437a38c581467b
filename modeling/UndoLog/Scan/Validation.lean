import UndoLog.Record.Trailer
import UndoLog.Error

/-!
# What a record must agree with

A header is checked against its target when it is read forward, against the greatest offset when it
is read backward, and in both directions against the trailer and its checksum.

UndoJournal specification: sections 5.3 and 5.4.
-/

namespace UndoLog

namespace RecordKind

/-- The record may have been written over a target of `targetLength` bytes: saved bytes lie inside
it, an empty write starts at its end or past it, and the old length of a change is no less
(specification, section 5.3, steps 4 and 5). -/
def FitsTarget (targetLength : Nat) : RecordKind → Prop
  | .write targetOffset dataLength =>
    if dataLength = 0 then targetLength ≤ targetOffset.toNat
    else targetOffset.toNat < targetLength ∧ targetOffset.toNat + dataLength.toNat ≤ targetLength
  | .length oldLength _ => targetLength ≤ oldLength.toNat

instance (targetLength : Nat) : DecidablePred (FitsTarget targetLength)
  | .write _ dataLength => inferInstanceAs (Decidable (if dataLength = 0 then _ ≤ _ else _ ∧ _))
  | .length _ _ => inferInstanceAs (Decidable (_ ≤ _))

/-- Refuses a record that does not fit a target of less than 2^64 bytes. -/
def checkTarget (targetLength : Nat) : RecordKind → Except Damage Unit
  | .write targetOffset dataLength =>
    if dataLength = 0 then
      if targetOffset.toNat < targetLength then
        .error (.emptyWriteInside targetOffset.toNat targetLength)
      else .ok ()
    else if targetLength ≤ targetOffset.toNat then
      .error (.writePastTarget targetOffset.toNat targetLength)
    else if targetOffset.toNat + dataLength.toNat ≤ targetLength then .ok ()
    else .error (.preImagePastTarget targetOffset.toNat dataLength.toNat targetLength)
  | .length oldLength _ =>
    if oldLength.toNat < targetLength then
      .error (.oldLengthBelowTarget oldLength.toNat targetLength)
    else .ok ()

/-- Refuses a write that saves bytes past the offset limit. -/
def checkOffsets : RecordKind → Except Damage Unit
  | .write targetOffset dataLength =>
    if targetOffset.toNat + dataLength.toNat < Layout.offsetLimit then .ok ()
    else .error (.preImageOverflow targetOffset.toNat dataLength.toNat)
  | .length .. => .ok ()

/-- The check succeeds iff the record fits the target. -/
theorem checkTarget_eq_ok_iff {targetLength : Nat} {kind : RecordKind} :
    kind.checkTarget targetLength = .ok () ↔ kind.FitsTarget targetLength := by
  cases kind with
  | write targetOffset dataLength =>
    simp only [checkTarget, FitsTarget]
    split
    · split <;> simp <;> omega
    · split
      · simp
        omega
      · split <;> simp <;> omega
  | length oldLength newLength =>
    simp only [checkTarget, FitsTarget]
    split <;> simp <;> omega

/-- The check succeeds iff the saved bytes lie below the offset limit. -/
theorem checkOffsets_eq_ok_iff {kind : RecordKind} :
    kind.checkOffsets = .ok () ↔ kind.FitsOffsets := by
  cases kind <;> simp [checkOffsets, FitsOffsets]

end RecordKind

namespace Trailer

/-- Refuses a trailer that does not agree with the header of a record. -/
def checkHeader (t : Trailer) (record : Record) (headerLength : Nat) : Except Damage Unit :=
  if t.tag ≠ record.type.tag then .error (.trailerTag t.tag record.type)
  else if t.headerLength.toNat ≠ headerLength then
    .error (.trailerHeaderLength t.headerLength.toNat headerLength)
  else if t.dataLength.toNat ≠ record.dataLength then
    .error (.trailerDataLength t.dataLength.toNat record.dataLength)
  else .ok ()

/-- Refuses a trailer without the computed checksum. -/
def checkSum (t : Trailer) (computed : UInt32) : Except Damage Unit :=
  if computed = t.checksum then .ok () else .error (.checksumMismatch t.checksum computed)

/-- The check succeeds iff the three shared fields are equal. -/
theorem checkHeader_eq_ok_iff {t : Trailer} {record : Record} {headerLength : Nat} :
    t.checkHeader record headerLength = .ok () ↔
      t.tag = record.type.tag ∧ t.headerLength.toNat = headerLength ∧
        t.dataLength.toNat = record.dataLength := by
  unfold checkHeader
  repeat' split
  all_goals simp_all

/-- The check succeeds iff the checksum is the computed one. -/
theorem checkSum_eq_ok_iff {t : Trailer} {computed : UInt32} :
    t.checkSum computed = .ok () ↔ computed = t.checksum := by
  unfold checkSum
  split <;> simp_all

/-- A wrong checksum is reported with the computed one. -/
theorem checkSum_of_ne {t : Trailer} {computed : UInt32} (h : computed ≠ t.checksum) :
    t.checkSum computed = .error (.checksumMismatch t.checksum computed) := if_neg h

end Trailer
end UndoLog
