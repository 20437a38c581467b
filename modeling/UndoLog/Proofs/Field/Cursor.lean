import UndoLog.Field.Cursor
import UndoLog.Proofs.Field.Sequence

/-!
# A cursor moves past whole fields

A read of a cursor moves it past what a reader of the whole field takes, or not at all.
-/

namespace UndoLog.FieldCursor

/-- The bytes still to be read. -/
def unread (c : FieldCursor) : Bytes := c.data.drop c.position

/-- The result of a reader of the unread bytes, with the cursor past what it took. -/
def past {α : Type} (c : FieldCursor) :
    Except FieldError (α × Bytes) → Except FieldError α × FieldCursor
  | .error error => (.error error, c)
  | .ok (value, rest) => (.ok value, c.moveTo (c.position + (c.unread.length - rest.length)))

variable {α β : Type} {read : FieldCursor → Except FieldError α × FieldCursor}
  {reader : Bytes → Except FieldError (α × Bytes)} {c : FieldCursor}

/-- `read` gives the result of `reader` on the unread bytes and moves past what it took, or
stays. -/
def Moves (read : FieldCursor → Except FieldError α × FieldCursor)
    (reader : Bytes → Except FieldError (α × Bytes)) : Prop :=
  ∀ c : FieldCursor, read c = c.past (reader c.unread)

private theorem length_unread (c : FieldCursor) : c.unread.length = c.remaining := List.length_drop

private theorem unread_moveTo (c : FieldCursor) (n : Nat) :
    (c.moveTo (c.position + n)).unread = c.unread.drop n := List.drop_drop.symm

private theorem past_drop {n : Nat} (hn : n ≤ c.remaining) (value : α) :
    c.past (.ok (value, c.unread.drop n)) = (.ok value, c.moveTo (c.position + n)) := by
  have hlength := c.length_unread
  have htaken : c.unread.length - (c.unread.drop n).length = n := by
    rw [List.length_drop]
    omega
  rw [past, htaken]

/-- Taking `n` bytes is `Field.take n`. -/
theorem moves_take (n : Nat) : Moves (take n) (Field.take n) := by
  intro c
  unfold take Field.take
  rw [length_unread]
  by_cases hshort : c.remaining < n
  · rw [if_pos hshort, if_pos hshort]
    rfl
  · rw [if_neg hshort, if_neg hshort, past_drop (by omega)]
    rfl

/-- Converting the value does not change the movement. -/
theorem Moves.convert (h : Moves read reader) (f : α → β) :
    Moves (fun c => convert f (read c)) (fun bytes => Field.convert f (reader bytes)) := by
  intro c
  dsimp only
  rw [h c]
  cases reader c.unread <;> rfl

/-- Reading a byte is `Field.byte`. -/
theorem moves_byte : Moves byte Field.byte := by
  intro c
  have htake : Field.byte c.unread = Field.convert (·.headD 0) (Field.take 1 c.unread) := by
    cases c.unread <;> rfl
  rw [htake]
  exact (moves_take 1).convert _ c

private theorem moves_timestamp : Moves timestamp Field.timestamp := by
  intro c
  unfold timestamp Field.timestamp
  rw [moves_take 8 c]
  cases Field.take 8 c.unread with
  | error error => rfl
  | ok found =>
    simp only [past]
    cases Timestamp.ofMicros? (LittleEndian.decodeSigned found.1) with
    | some t => rfl
    | none => rfl

variable {b : UInt8} {rest : Bytes} {n : Nat}

private theorem remaining_of_cons (h : c.unread = b :: rest) : c.remaining = 1 + rest.length := by
  rw [← length_unread, h, List.length_cons, Nat.add_comm]

private theorem unread_behind (h : c.unread = b :: rest) :
    (c.moveTo (c.position + 1)).unread = rest := by
  rw [unread_moveTo, h, List.drop_one, List.tail_cons]

private theorem past_drop_of_cons (h : c.unread = b :: rest) (hn : n ≤ rest.length) (value : α) :
    c.past (.ok (value, rest.drop n)) = (.ok value, c.moveTo (c.position + 1 + n)) := by
  have hremaining := remaining_of_cons h
  have hdrop : rest.drop n = c.unread.drop (1 + n) := by
    rw [← unread_behind h, unread_moveTo, List.drop_drop]
  rw [hdrop, past_drop (by omega), Nat.add_assoc]

private theorem past_drop_behind (h : c.unread = b :: rest) (hn : n ≤ rest.length) (value : α) :
    (c.moveTo (c.position + 1)).past (.ok (value, rest.drop n)) =
      (.ok value, c.moveTo (c.position + 1 + n)) := by
  have hremaining : (c.moveTo (c.position + 1)).remaining = rest.length := by
    rw [← length_unread, unread_behind h]
  rw [← unread_behind h, past_drop (by omega)]
  rfl

private theorem moves_compact (maxWidth : Nat) :
    Moves (compact maxWidth) (Compact.decode maxWidth) := by
  intro c
  unfold compact
  rw [moves_byte c]
  cases hunread : c.unread with
  | nil => rfl
  | cons widthByte rest =>
    have hbyte : c.past (Field.byte (widthByte :: rest)) =
        (.ok widthByte, c.moveTo (c.position + 1)) :=
      past_drop_of_cons hunread (Nat.zero_le _) widthByte
    rw [hbyte, Compact.decode]
    dsimp only
    by_cases hzero : widthByte.toNat = 0
    · rw [if_pos hzero, hzero, if_neg (Nat.not_lt_zero _), if_neg (Nat.not_lt_zero _),
        List.take_zero, if_neg (by simp), past_drop_of_cons hunread (Nat.zero_le _)]
      rfl
    · rw [if_neg hzero]
      by_cases hwide : maxWidth < widthByte.toNat
      · rw [if_pos hwide, if_pos hwide]
        rfl
      · rw [if_neg hwide, if_neg hwide, moves_take, unread_behind hunread, Field.take]
        by_cases hshort : rest.length < widthByte.toNat
        · rw [if_pos hshort, if_pos hshort, ← remaining_of_cons hunread]
          rfl
        · rw [if_neg hshort, if_neg hshort, past_drop_behind hunread (by omega)]
          dsimp only
          by_cases hlast : (rest.take widthByte.toNat).getLast? = some 0
          · rw [if_pos hlast, if_pos hlast]
            rfl
          · rw [if_neg hlast, if_neg hlast, past_drop_of_cons hunread (by omega)]

/-- Reading a field of any form is `FieldKind.read`. -/
theorem moves_read (kind : FieldKind) : Moves (FieldCursor.read kind) kind.read := by
  cases kind with
  | byte => exact moves_byte.convert _
  | word32 => exact ((moves_take 4).convert _).convert _
  | word64 => exact ((moves_take 8).convert _).convert _
  | timestamp => exact moves_timestamp.convert _
  | compact32 => exact ((moves_compact 4).convert _).convert _
  | compact64 => exact ((moves_compact 8).convert _).convert _

end UndoLog.FieldCursor
