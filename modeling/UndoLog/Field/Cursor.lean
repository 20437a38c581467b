import UndoLog.Field.Decoder

/-!
# A position that moves inside a field

A cursor keeps the data and a position in them. A field that is made of parts moves it past one part
after another, and where a later part is refused it is put back to where the field starts.

UndoJournal specification: section 5.1.
-/

namespace UndoLog

/-- A byte string and the number of bytes read so far. -/
structure FieldCursor where
  data : Bytes
  position : Nat
  deriving DecidableEq, Repr

namespace FieldCursor

/-- The number of bytes still to be read. -/
def remaining (c : FieldCursor) : Nat := c.data.length - c.position

/-- Goes to a position. -/
def moveTo (c : FieldCursor) (position : Nat) : FieldCursor := { c with position }

/-- The next bytes, as many as asked for. -/
def take (n : Nat) (c : FieldCursor) : Except FieldError Bytes × FieldCursor :=
  if c.remaining < n then (.error (.unexpectedEnd n c.remaining), c)
  else (.ok (c.data.window c.position n), c.moveTo (c.position + n))

/-- A read with its value converted. -/
def convert {α β : Type} (f : α → β) (read : Except FieldError α × FieldCursor) :
    Except FieldError β × FieldCursor :=
  (read.1.map f, read.2)

/-- Reads a byte. -/
def byte (c : FieldCursor) : Except FieldError UInt8 × FieldCursor :=
  convert (·.headD 0) (c.take 1)

/-- Reads a word of four bytes. -/
def word32 (c : FieldCursor) : Except FieldError UInt32 × FieldCursor :=
  convert (fun field => UInt32.ofNat (LittleEndian.decode field)) (c.take 4)

/-- Reads a word of eight bytes. -/
def word64 (c : FieldCursor) : Except FieldError UInt64 × FieldCursor :=
  convert (fun field => UInt64.ofNat (LittleEndian.decode field)) (c.take 8)

/-- Reads a timestamp. The bytes are passed first, and the position put back if they are out of
range. -/
def timestamp (c : FieldCursor) : Except FieldError Timestamp × FieldCursor :=
  let start := c.position
  match c.take 8 with
  | (.error error, c) => (.error error, c)
  | (.ok field, c) =>
    match Timestamp.ofMicros? (LittleEndian.decodeSigned field) with
    | some t => (.ok t, c)
    | none => (.error (.timestampOutOfRange (LittleEndian.decodeSigned field)), c.moveTo start)

/-- Reads a compact integer: the width byte, and then the bytes it counts. The position is put back
on failure. -/
def compact (maxWidth : Nat) (c : FieldCursor) : Except FieldError Nat × FieldCursor :=
  let start := c.position
  match c.byte with
  | (.error error, c) => (.error error, c)
  | (.ok widthByte, c) =>
    let width := widthByte.toNat
    if width = 0 then (.ok 0, c)
    else if maxWidth < width then (.error (.invalidWidth width maxWidth), c.moveTo start)
    else
      match c.take width with
      | (.error _, c) =>
        (.error (.unexpectedEnd (1 + width) (c.moveTo start).remaining), c.moveTo start)
      | (.ok significant, c) =>
        if significant.getLast? = some 0 then (.error (.nonCanonical width), c.moveTo start)
        else (.ok (LittleEndian.decode significant), c)

/-- Reads a field of a given form. -/
def read (kind : FieldKind) (c : FieldCursor) : Except FieldError FieldValue × FieldCursor :=
  match kind with
  | .byte => convert .byte c.byte
  | .word32 => convert .word32 c.word32
  | .word64 => convert .word64 c.word64
  | .timestamp => convert .timestamp c.timestamp
  | .compact32 => convert .compact32 (convert UInt32.ofNat (c.compact 4))
  | .compact64 => convert .compact64 (convert UInt64.ofNat (c.compact 8))

/-- Answers a request. -/
def answer (c : FieldCursor) : FieldRequest → Except FieldError FieldReply × FieldCursor
  | .tag => convert (fun tag => .tag (some tag)) c.byte
  | .tagOrEnd =>
    if c.data.length ≤ c.position then (.ok (.tag none), c)
    else convert (fun tag => .tag (some tag)) c.byte
  | .field kind => convert .field (c.read kind)

/-- Answers requests one after another, with the cursor after each. -/
def history : (requests : List FieldRequest) → (c : FieldCursor) →
    List (Except FieldError FieldReply × FieldCursor)
  | [], _ => []
  | request :: rest, c => c.answer request :: (c.answer request).2.history rest

end FieldCursor
end UndoLog
