import UndoLog.Field.Read

/-!
# Reading fields one after another

A decoder holds the bytes not yet read and counts those that were. A read that fails leaves it as
it was, so the same field can be tried again.

UndoJournal specification: section 5.1.
-/

namespace UndoLog

/-- The number of bytes read so far, and the bytes still to be read. -/
structure FieldDecoder where
  position : Nat
  unread : Bytes
  deriving DecidableEq, Repr

/-- What a decoder may be asked for: a tag, a tag if there is a byte left, or a field of a given
form. -/
inductive FieldRequest
  | tag
  | tagOrEnd
  | field (kind : FieldKind)
  deriving DecidableEq, Repr

/-- What a decoder answers. `tag none` means that there are no more bytes. -/
inductive FieldReply
  | tag (tag? : Option UInt8)
  | field (value : FieldValue)
  deriving DecidableEq, Repr

namespace FieldDecoder

/-- A decoder before the first byte. -/
def ofBytes (data : Bytes) : FieldDecoder := ⟨0, data⟩

/-- A decoder at a position of some bytes. -/
def ofPosition (data : Bytes) (position : Nat) : FieldDecoder := ⟨position, data.drop position⟩

/-- The number of bytes still to be read. -/
def remaining (d : FieldDecoder) : Nat := d.unread.length

/-- Whether every byte was read. -/
def isEmpty (d : FieldDecoder) : Bool := d.unread.isEmpty

/-- Runs a reader on the unread bytes and moves past what it took; an error leaves the decoder. -/
def step {α : Type} (reader : Bytes → Except FieldError (α × Bytes)) (d : FieldDecoder) :
    Except FieldError α × FieldDecoder :=
  match reader d.unread with
  | .ok (value, rest) => (.ok value, ⟨d.position + (d.unread.length - rest.length), rest⟩)
  | .error error => (.error error, d)

/-- Reads a field of a given form. -/
def read (kind : FieldKind) : FieldDecoder → Except FieldError FieldValue × FieldDecoder :=
  step kind.read

/-- Reads the tag that opens a record. -/
def readTag : FieldDecoder → Except FieldError UInt8 × FieldDecoder := step Field.byte

/-- Reads the tag that opens a record, or nothing at the end. -/
def readTagOrEnd (d : FieldDecoder) : Except FieldError (Option UInt8) × FieldDecoder :=
  if d.isEmpty then (.ok none, d)
  else
    let (tag, d) := d.readTag
    (tag.map some, d)

/-- Reads fields one after another, past those that fail. -/
def readEach : (kinds : List FieldKind) → (d : FieldDecoder) →
    List (Except FieldError FieldValue) × FieldDecoder
  | [], d => ([], d)
  | kind :: rest, d =>
    let (result, d) := d.read kind
    let (results, d) := d.readEach rest
    (result :: results, d)

/-- Answers a request. -/
def answer (d : FieldDecoder) : FieldRequest → Except FieldError FieldReply × FieldDecoder
  | .tag =>
    let (result, d) := d.readTag
    (result.map fun tag => .tag (some tag), d)
  | .tagOrEnd =>
    let (result, d) := d.readTagOrEnd
    (result.map .tag, d)
  | .field kind =>
    let (result, d) := d.read kind
    (result.map .field, d)

end FieldDecoder
end UndoLog
