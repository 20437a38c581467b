/-!
# Byte strings

Journals, payloads and fields are plain lists of bytes, the form in which their laws are stated.
A window is cut in `Nat`, so a position past the end gives fewer bytes and never wraps.
-/

namespace UndoLog

/-- A byte string. -/
abbrev Bytes := List UInt8

namespace Bytes

/-- The bytes from `start` on, at most `length` of them. -/
def window (data : Bytes) (start length : Nat) : Bytes := (data.drop start).take length

/-- A window inside the data has the given length. -/
theorem length_window {data : Bytes} {start length : Nat} (h : start + length ≤ data.length) :
    (data.window start length).length = length := by
  simp only [window, List.length_take, List.length_drop]
  omega

/-- A window inside the data is kept by an append. -/
theorem window_append_left {data : Bytes} {start length : Nat} (h : start + length ≤ data.length)
    (more : Bytes) : Bytes.window (data ++ more) start length = data.window start length := by
  unfold window
  rw [List.drop_append_of_le_length (by omega),
    List.take_append_of_le_length (by rw [List.length_drop]; omega)]

/-- A window past the end has the bytes that are left. -/
theorem length_window_eq_min (data : Bytes) (start length : Nat) :
    (data.window start length).length = min length (data.length - start) := by
  rw [window, List.length_take, List.length_drop]

/-- A nonempty window of the given length lies inside the data. -/
theorem add_le_length_of_window {data : Bytes} {start length : Nat} (hpos : 0 < length)
    (h : (data.window start length).length = length) : start + length ≤ data.length := by
  rw [length_window_eq_min] at h
  omega

/-- The window of the data's length is the data. -/
theorem window_length (data : Bytes) : data.window 0 data.length = data := by
  rw [window, List.drop_zero, List.take_length]

/-- Adjacent windows append. -/
theorem window_add (data : Bytes) (start a b : Nat) :
    data.window start (a + b) = data.window start a ++ data.window (start + a) b := by
  unfold window
  rw [List.take_add, List.drop_drop]

/-- A prefix of a window is a window. -/
theorem take_window (data : Bytes) (start length n : Nat) :
    (data.window start length).take n = data.window start (min n length) := by
  unfold window
  rw [List.take_take]

/-- A window inside a prefix is a window of the data. -/
theorem window_take {data : Bytes} {start length kept : Nat} (h : start + length ≤ kept) :
    Bytes.window (data.take kept) start length = data.window start length := by
  unfold window
  rw [List.drop_take, List.take_take, Nat.min_eq_left (by omega)]

/-- A window behind `before` is one of the rest. -/
theorem window_append_right (before data : Bytes) (start length : Nat) :
    Bytes.window (before ++ data) (before.length + start) length = data.window start length := by
  unfold window
  rw [List.drop_append, List.drop_of_length_le (by omega), List.nil_append,
    Nat.add_sub_cancel_left]

/-- The window in the place of `middle` is `middle`. -/
theorem window_append_append (before data after : Bytes) :
    Bytes.window (before ++ data ++ after) before.length data.length = data := by
  rw [List.append_assoc]
  calc Bytes.window (before ++ (data ++ after)) before.length data.length
    _ = Bytes.window (data ++ after) 0 data.length := window_append_right before _ 0 _
    _ = data.window 0 data.length := window_append_left (by omega) after
    _ = data := data.window_length

/-- A window inside the data splits it. -/
theorem take_append_window_append_drop {data : Bytes} {start length : Nat} :
    data.take start ++ data.window start length ++ data.drop (start + length) = data := by
  unfold window
  rw [List.append_assoc, ← List.drop_drop, List.take_append_drop, List.take_append_drop]

end Bytes
end UndoLog
