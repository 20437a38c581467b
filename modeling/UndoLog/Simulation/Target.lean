import UndoLog.Reader
import UndoLog.Simulation.Builder

/-!
# Changing a target while a journal is kept

A target is a byte string that is overwritten, extended and cut. Before each change the record that
undoes it is written. Seeds choose where and how much, within what the target has.

A record and its payload take a target back to what it was before the change. The record of a write
past the end does not tell how much was written, so from it alone the length after the change is not
known.

UndoJournal specification: section 11.
-/

namespace UndoLog

/-- A change of the target: bytes inside it are overwritten, bytes are appended, its end is cut off,
or zeros are appended. -/
inductive TargetChange
  | overwrite (offsetSeed lengthSeed : Nat)
  | append (lengthSeed : Nat)
  | truncate (lengthSeed : Nat)
  | grow (lengthSeed : Nat)
  deriving DecidableEq, Repr

/-- The most bytes a change writes. -/
def maxChunk : Nat := 256

/-- The data cut or extended with `filler` to `length`. -/
def Bytes.resize (data : Bytes) (length : Nat) (filler : UInt8) : Bytes :=
  data.take length ++ List.replicate (length - data.length) filler

/-- The data with `others` in place of the bytes from `offset` on. -/
def Bytes.overwrite (data : Bytes) (offset : Nat) (others : Bytes) : Bytes :=
  data.take offset ++ others ++ data.drop (offset + others.length)

namespace TargetChange

/-- The change made of one to an empty target: an overwrite appends, and a truncation grows. -/
def onEmpty : TargetChange → TargetChange
  | .overwrite _ lengthSeed => .append lengthSeed
  | .truncate lengthSeed => .grow lengthSeed
  | change => change

/-- The record written before a change, and the target after it. Bytes written have the value
`stamp`. -/
def apply (stamp : UInt8) (target : Bytes) (change : TargetChange) : BuilderStep × Bytes :=
  let length := target.length
  let here := UInt64.ofNat length
  match if length = 0 then change.onEmpty else change with
  | .overwrite offsetSeed lengthSeed =>
    let offset := offsetSeed % length
    let count := 1 + lengthSeed % min (length - offset) maxChunk
    (.write (UInt64.ofNat offset) (target.window offset count),
      target.overwrite offset (List.replicate count stamp))
  | .truncate lengthSeed =>
    let kept := lengthSeed % length
    (.length here (UInt64.ofNat kept) (target.drop kept), target.take kept)
  | .append lengthSeed =>
    let count := 1 + lengthSeed % maxChunk
    (.write here [], target.resize (length + count) stamp)
  | .grow lengthSeed =>
    let growth := lengthSeed % (maxChunk + 1)
    (.length here (UInt64.ofNat (length + growth)) [], target.resize (length + growth) 0)

end TargetChange

/-- A target and its journal under way, with the length of the target before each change, newest
first. -/
structure Simulation where
  target : Bytes
  builder : JournalBuilder
  newestLengths : List Nat
  deriving DecidableEq, Repr

/-- A target and its journal after some changes, with the length of the target before each
change. -/
structure SimulatedJournal where
  journal : BuiltJournal
  lengthsBefore : List Nat
  initialTarget : Bytes
  finalTarget : Bytes
  deriving DecidableEq, Repr

namespace Simulation

/-- The bytes of a new target, counting up from `first`. -/
def initialTarget (length : Nat) (first : UInt8) : Bytes :=
  (List.range length).map fun i => first + UInt8.ofNat i

/-- The value of the bytes that a change writes. -/
def stamp (first : UInt8) (step : Nat) : UInt8 := (first + UInt8.ofNat step) * 31

/-- Carries out a change, unless its record cannot be written. -/
def step (first : UInt8) (s : Simulation) (change : TargetChange) : Option Simulation :=
  let (undo, target) := change.apply (stamp first s.newestLengths.length) s.target
  (s.builder.add undo).map fun builder =>
    ⟨target, builder, s.target.length :: s.newestLengths⟩

end Simulation

/-- Carries out changes one after another on a new target. -/
def simulate? (initialLength : Nat) (first : UInt8) (changes : List TargetChange) :
    Option SimulatedJournal :=
  let initialTarget := Simulation.initialTarget initialLength first
  (changes.foldlM (Simulation.step first) ⟨initialTarget, .empty, []⟩).map fun s =>
    { journal := s.builder.finish
      lengthsBefore := s.newestLengths.reverse
      initialTarget
      finalTarget := s.target }

namespace Record

/-- The target before the change of a record. There is none if the payload does not lie inside the
target. -/
def undo? (r : Record) (payload target : Bytes) : Option Bytes :=
  match r.kind with
  | .write targetOffset dataLength =>
    if dataLength = 0 then some (target.take targetOffset.toNat)
    else if targetOffset.toNat + payload.length ≤ target.length then
      some (target.overwrite targetOffset.toNat payload)
    else none
  | .length oldLength newLength =>
    if newLength < oldLength then some (target.take newLength.toNat ++ payload)
    else some (target.take oldLength.toNat)

/-- The targets before changes that are undone one after another. -/
def undoAll? : (undos : List (Record × Bytes)) → (target : Bytes) → Option (List Bytes)
  | [], _ => some []
  | (record, payload) :: rest, target =>
    match record.undo? payload target with
    | none => none
    | some earlier => (undoAll? rest earlier).map (earlier :: ·)

/-- The length of the target after the change, unless it is an append, which does not record it. -/
def lengthAfter? (r : Record) (lengthBefore : Nat) : Option Nat :=
  match r.kind with
  | .write _ dataLength => if dataLength = 0 then none else some lengthBefore
  | .length _ newLength => some newLength.toNat

end Record

/-- The records with their payloads, newest first. -/
def BuiltJournal.undos (j : BuiltJournal) : List (Record × Bytes) :=
  (j.records.zip j.payloads).reverse

/-- The target before the changes of records, newest first, with the payloads that the reader
reads. -/
def Reader.undoRecords? {σ : Type} [Storage σ] : Reader σ → List Record → Bytes → Option Bytes
  | _, [], target => some target
  | r, record :: rest, target =>
    match r.readPayload record with
    | (.error _, _) => none
    | (.ok payload, r) => (record.undo? payload target).bind (r.undoRecords? rest)

/-- The number of cases of a check by samples, and of attempts to find a smaller failing one. -/
structure SamplingPreset where
  cases : Nat
  maxShrinkIterations : Nat
  deriving DecidableEq, Repr

namespace SamplingPreset

/-- For everyday checks. -/
def standard : SamplingPreset := ⟨256, 1000⟩

/-- For a first look. -/
def quick : SamplingPreset := ⟨32, 100⟩

/-- For a long search. -/
def thorough : SamplingPreset := ⟨1024, 10000⟩

end SamplingPreset

end UndoLog
