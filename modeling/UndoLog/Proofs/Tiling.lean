/-!
# Ranges that tile

Ranges of positions tile a range if they follow one another from its start to its end, without gap
or overlap, and none of them is empty. Ranges that tile two neighbours tile both together.
-/

namespace UndoLog

/-- The positions `i` with `start ≤ i < stop`. -/
structure Span where
  start : Nat
  stop : Nat
  deriving DecidableEq, Repr

/-- The spans follow one another from `start` to `stop` without gap or overlap. -/
def Tiles : (start : Nat) → List Span → (stop : Nat) → Prop
  | start, [], stop => start = stop
  | start, span :: rest, stop =>
    span.start = start ∧ span.start < span.stop ∧ Tiles span.stop rest stop

/-- A tiling splits between any two of its spans. -/
theorem tiles_append_iff {start stop : Nat} {spans more : List Span} :
    Tiles start (spans ++ more) stop ↔
      ∃ middle, Tiles start spans middle ∧ Tiles middle more stop := by
  induction spans generalizing start with
  | nil => simp [Tiles]
  | cons span rest ih => simp [Tiles, ih, and_assoc]

/-- A tiling extends by a span that starts where it stops. -/
theorem Tiles.concat {start middle stop : Nat} {spans : List Span} (h : Tiles start spans middle)
    (hlt : middle < stop) : Tiles start (spans ++ [⟨middle, stop⟩]) stop :=
  tiles_append_iff.mpr ⟨middle, h, rfl, hlt, rfl⟩

private theorem Tiles.le {start stop : Nat} {spans : List Span} (h : Tiles start spans stop) :
    start ≤ stop := by
  induction spans generalizing start with
  | nil => exact Nat.le_of_eq h
  | cons span rest ih =>
    obtain ⟨rfl, hlt, hrest⟩ := h
    exact Nat.le_trans (Nat.le_of_lt hlt) (ih hrest)

/-- Every span of a tiling lies inside it and is not empty. -/
theorem Tiles.bounds_of_mem {start stop : Nat} {spans : List Span} (h : Tiles start spans stop)
    {span : Span} (hspan : span ∈ spans) :
    start ≤ span.start ∧ span.start < span.stop ∧ span.stop ≤ stop := by
  obtain ⟨before, after, rfl⟩ := List.append_of_mem hspan
  obtain ⟨middle, hbefore, rfl, hlt, hafter⟩ := tiles_append_iff.mp h
  exact ⟨hbefore.le, hlt, hafter.le⟩

end UndoLog
