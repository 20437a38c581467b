import UndoLog.Proofs.Simulation.Run
import UndoLog.Simulation.Checked

/-!
# A simulation with every step checked

A simulation never stops at a check: the guards for a target with no bytes keep the divisors from
being zero, every range is cut to what the target has, and all that is written fits as long as the
clock has time.
-/

namespace UndoLog

open Journal

namespace Checked

variable {n m : Nat} {data : Bytes}

private theorem remainder?_eq (h : 0 < m) : remainder? n m = some (n % m) :=
  if_neg (Nat.pos_iff_ne_zero.mp h)

private theorem difference?_eq (h : m ≤ n) : difference? n m = some (n - m) := if_pos h

private theorem sum?_eq (h : n + m < memoryLimit) : sum? n m = some (n + m) := if_pos h

private theorem slice?_add_eq (h : n + m ≤ data.length) :
    slice? data n (n + m) = some (data.window n m) := by
  unfold slice?
  rw [if_pos ⟨Nat.le_add_right n m, h⟩, Nat.add_sub_cancel_left]

private theorem slice?_length_eq (h : n ≤ data.length) :
    slice? data n data.length = some (data.drop n) := by
  unfold slice? Bytes.window
  rw [if_pos ⟨h, Nat.le_refl _⟩, List.take_of_length_le (Nat.le_of_eq List.length_drop)]

end Checked

open Checked

namespace TargetChange

private theorem applyChecked?_eq {target : Bytes} (hroom : target.length + maxChunk < memoryLimit)
    (stamp : UInt8) (change : TargetChange) :
    change.applyChecked? stamp target = some (change.apply stamp target) := by
  have hchunk : maxChunk = 256 := rfl
  have hlimit : memoryLimit = 9223372036854775808 := rfl
  unfold applyChecked? apply
  dsimp only
  generalize h : (if target.length = 0 then change.onEmpty else change) = redirected
  cases redirected with
  | overwrite offsetSeed lengthSeed =>
    have hpos := length_pos_of_redirected h (fun _ => onEmpty_ne_overwrite _ _ _)
    have hoffset : offsetSeed % target.length < target.length := Nat.mod_lt _ hpos
    have hroomPos : 0 < min (target.length - offsetSeed % target.length) maxChunk := by omega
    have hothers := Nat.mod_lt lengthSeed hroomPos
    simp only [Option.bind_eq_bind, Option.pure_def, remainder?_eq hpos, Option.bind_some,
      difference?_eq (Nat.le_of_lt hoffset), remainder?_eq hroomPos]
    rw [sum?_eq (by omega), Option.bind_some, sum?_eq (by omega), Option.bind_some,
      slice?_add_eq (by omega), Option.bind_some]
  | truncate lengthSeed =>
    have hpos := length_pos_of_redirected h (fun _ => onEmpty_ne_truncate _ _)
    have hkept : lengthSeed % target.length < target.length := Nat.mod_lt _ hpos
    simp only [Option.bind_eq_bind, Option.pure_def, remainder?_eq hpos, Option.bind_some,
      slice?_length_eq (Nat.le_of_lt hkept)]
  | append lengthSeed =>
    have hchunkPos : 0 < maxChunk := by omega
    have hothers := Nat.mod_lt lengthSeed hchunkPos
    simp only [Option.bind_eq_bind, Option.pure_def, remainder?_eq hchunkPos, Option.bind_some]
    rw [sum?_eq (by omega), Option.bind_some, sum?_eq (by omega), Option.bind_some]
  | grow lengthSeed =>
    have hgrowth := Nat.mod_lt lengthSeed (Nat.succ_pos maxChunk)
    simp only [Option.bind_eq_bind, Option.pure_def, remainder?_eq (Nat.succ_pos maxChunk),
      Option.bind_some]
    rw [sum?_eq (by omega), Option.bind_some]

end TargetChange

namespace Simulation

variable {s : Simulation} {initial : Bytes} {entries : List Entry}

/-- Journal, target and one more chunk stay below the memory limit while the clock has time. -/
theorem Holds.add_maxChunk_lt (h : s.Holds initial entries)
    (hinitial : initial.length < maxInitialLength)
    (hcount : entries.length ≤ JournalBuilder.capacity) :
    (ofEntries entries).length + s.target.length + maxChunk < memoryLimit := by
  have hle := h.length_le
  have hgrowth : growth = 297 := rfl
  simp only [maxInitialLength, JournalBuilder.capacity, Layout.journalStart, maxChunk,
    memoryLimit, hgrowth] at *
  omega

private theorem Holds.stepChecked?_eq (h : s.Holds initial entries)
    (hinitial : initial.length < maxInitialLength)
    (hcount : entries.length < JournalBuilder.capacity) (first : UInt8) (change : TargetChange) :
    s.stepChecked? first change = s.step first change := by
  obtain ⟨after, e, hafter, hholds, -⟩ := h.step hinitial hcount first change
  have hroom := h.add_maxChunk_lt hinitial (Nat.le_of_lt hcount)
  have hheld : after.builder.writer.storage.data.length < memoryLimit := by
    have hafterRoom := hholds.add_maxChunk_lt hinitial (by
      rw [List.length_append, List.length_singleton]
      omega)
    rw [hholds.builder.data_eq]
    omega
  rw [hafter]
  unfold Simulation.step at hafter
  unfold stepChecked?
  rw [TargetChange.applyChecked?_eq (by omega), Option.bind_eq_bind, Option.bind_some]
  dsimp only at hafter ⊢
  cases hadd : s.builder.add (change.apply (stamp first s.newestLengths.length) s.target).1 with
  | none =>
    rw [hadd] at hafter
    cases hafter
  | some builder =>
    rw [hadd] at hafter
    cases hafter
    rw [Option.bind_eq_bind, Option.bind_some, if_pos hheld]
    rfl

/-- No check of a run fails while the clock has time. -/
theorem Holds.runChecked?_eq (h : s.Holds initial entries)
    (hinitial : initial.length < maxInitialLength) (changes : List TargetChange)
    (hcount : entries.length + changes.length ≤ JournalBuilder.capacity) (first : UInt8) :
    changes.foldlM (stepChecked? first) s = changes.foldlM (Simulation.step first) s := by
  induction changes generalizing s entries with
  | nil => rfl
  | cons change rest ih =>
    obtain ⟨hfirst, hrest⟩ := room_of_cons hcount
    obtain ⟨next, e, hnext, hholds, -⟩ := h.step hinitial hfirst first change
    rw [List.foldlM_cons, List.foldlM_cons, h.stepChecked?_eq hinitial hfirst, hnext]
    exact ih hholds (hrest e)

end Simulation

/-- A simulation finishes its run. -/
theorem simulate?_eq (length : Nat) (first : UInt8) (changes : List TargetChange) :
    simulate? length first changes =
      (changes.foldlM (Simulation.step first)
        ⟨Simulation.initialTarget length first, .empty, []⟩).map
          (·.finish (Simulation.initialTarget length first)) := rfl

/-- No check of a simulation fails while the clock has time. -/
theorem simulateChecked?_eq {length : Nat} {changes : List TargetChange}
    (hlength : length < Simulation.maxInitialLength)
    (hcount : changes.length ≤ JournalBuilder.capacity) (first : UInt8) :
    simulateChecked? length first changes = simulate? length first changes := by
  have hinitial : (Simulation.initialTarget length first).length < Simulation.maxInitialLength :=
    Nat.lt_of_le_of_lt (Nat.le_of_eq (Simulation.length_initialTarget length first)) hlength
  have hrun := (Simulation.holds_start (Simulation.initialTarget length first)).runChecked?_eq
    hinitial changes (by rwa [List.length_nil, Nat.zero_add]) first
  rw [simulateChecked?, simulate?_eq, hrun]

end UndoLog
