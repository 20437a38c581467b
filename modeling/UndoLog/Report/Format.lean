import UndoLog.Report.Listing

/-!
# The two forms of a listing

A listing is shown as a heading and a line for each record, or as a JSON array of objects, indented
by two blanks a level. The numbers and names in it need no escapes.

UndoJournal specification: section 10.
-/

namespace UndoLog.ListedRecord

/-- Text with blanks after it up to a width. -/
def padRight (width : Nat) (s : String) : String :=
  s ++ String.ofList (List.replicate (width - s.length) ' ')

/-- The line of a record. -/
def line (r : ListedRecord) : String :=
  let targetOffset :=
    match r.targetOffset? with
    | some offset => s!" target_offset={offset}"
    | none => ""
  let lengths :=
    match r.lengths? with
    | some (oldLength, newLength) => s!" length={oldLength}->{newLength}"
    | none => ""
  "[" ++ Decimal.padded 8 r.offset ++ "] " ++ padRight 6 r.type.name ++ " " ++ r.timestamp ++
    targetOffset ++ lengths ++ s!" data={r.dataLength} bytes\n"

/-- A listing as lines of text. -/
def textOf (records : List ListedRecord) : String :=
  s!"Undo Records ({records.length} total)\n================\n\n" ++
    String.join (records.map line)

/-- The members of a record's JSON object in their order, each a name and the text of a value. -/
def members (r : ListedRecord) : List (String × String) :=
  [("offset", toString r.offset), ("end_offset", toString r.endOffset),
    ("record_type", "\"" ++ r.type.name ++ "\""), ("timestamp", "\"" ++ r.timestamp ++ "\"")] ++
  (match r.targetOffset? with
    | some offset => [("target_offset", toString offset)]
    | none => []) ++
  (match r.lengths? with
    | some (oldLength, newLength) =>
      [("old_length", toString oldLength), ("new_length", toString newLength)]
    | none => []) ++
  [("data_length", toString r.dataLength)]

/-- The JSON object of a record, inside an array. -/
def object (r : ListedRecord) : String :=
  let member : String × String → String := fun (name, value) => s!"    \"{name}\": {value}"
  "  \x7b\n" ++ ",\n".intercalate (r.members.map member) ++ "\n  \x7d"

/-- A listing as a JSON array. -/
def jsonOf (records : List ListedRecord) : String :=
  match records with
  | [] => "[]"
  | _ => "[\n" ++ ",\n".intercalate (records.map object) ++ "\n]"

end UndoLog.ListedRecord
