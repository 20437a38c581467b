import UndoLog.Simulation.Target

/-!
# Changing a target with every step checked

A change takes remainders, differences and ranges, and makes the target and the journal longer.
Checked, it stops at a remainder by zero, a difference below zero, a range that does not lie inside
the target, and more bytes than memory can hold.
-/

namespace UndoLog

/-- The bytes that a byte string in memory stays below, 2^63. -/
def memoryLimit : Nat := 0x8000000000000000

namespace Checked

/-- The remainder, unless the divisor is zero. -/
def remainder? (n divisor : Nat) : Option Nat := if divisor = 0 then none else some (n % divisor)

/-- The difference, unless it is negative. -/
def difference? (n m : Nat) : Option Nat := if m ≤ n then some (n - m) else none

/-- The sum, if it is below the memory limit. -/
def sum? (n m : Nat) : Option Nat := if n + m < memoryLimit then some (n + m) else none

/-- The bytes from `start` to `stop`, if these are positions of the data in this order. -/
def slice? (data : Bytes) (start stop : Nat) : Option Bytes :=
  if start ≤ stop ∧ stop ≤ data.length then some (data.window start (stop - start)) else none

end Checked

open Checked

/-- `TargetChange.apply` with every remainder, difference, range and sum checked. -/
def TargetChange.applyChecked? (stamp : UInt8) (target : Bytes) (change : TargetChange) :
    Option (BuilderStep × Bytes) :=
  let length := target.length
  let here := UInt64.ofNat length
  match if length = 0 then change.onEmpty else change with
  | .overwrite offsetSeed lengthSeed => do
    let offset ← remainder? offsetSeed length
    let room ← difference? length offset
    let others ← remainder? lengthSeed (min room maxChunk)
    let count ← sum? 1 others
    let stop ← sum? offset count
    let saved ← slice? target offset stop
    return (.write (UInt64.ofNat offset) saved,
      target.overwrite offset (List.replicate count stamp))
  | .truncate lengthSeed => do
    let kept ← remainder? lengthSeed length
    let tail ← slice? target kept length
    return (.length here (UInt64.ofNat kept) tail, target.take kept)
  | .append lengthSeed => do
    let others ← remainder? lengthSeed maxChunk
    let count ← sum? 1 others
    let after ← sum? length count
    return (.write here [], target.resize after stamp)
  | .grow lengthSeed => do
    let growth ← remainder? lengthSeed (maxChunk + 1)
    let after ← sum? length growth
    return (.length here (UInt64.ofNat after) [], target.resize after 0)

namespace Simulation

/-- `Simulation.step` with every check, and with the journal kept below the memory limit. -/
def stepChecked? (first : UInt8) (s : Simulation) (change : TargetChange) : Option Simulation := do
  let (undo, target) ← change.applyChecked? (stamp first s.newestLengths.length) s.target
  let builder ← s.builder.add undo
  if builder.writer.storage.data.length < memoryLimit then
    return ⟨target, builder, s.target.length :: s.newestLengths⟩
  else none

/-- The simulated journal of a run. -/
def finish (s : Simulation) (initialTarget : Bytes) : SimulatedJournal where
  journal := s.builder.finish
  lengthsBefore := s.newestLengths.reverse
  initialTarget := initialTarget
  finalTarget := s.target

end Simulation

/-- `simulate?` with every check. -/
def simulateChecked? (initialLength : Nat) (first : UInt8) (changes : List TargetChange) :
    Option SimulatedJournal :=
  let initialTarget := Simulation.initialTarget initialLength first
  (changes.foldlM (Simulation.stepChecked? first) ⟨initialTarget, .empty, []⟩).map
    (·.finish initialTarget)

end UndoLog
