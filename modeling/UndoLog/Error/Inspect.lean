import UndoLog.Error
import UndoLog.Text.Quoted

/-!
# Errors shown with their fields

An error can be shown as the name of its case and the fields of that case, for a reader who looks
for the cause in the journal. Texts in the fields are quoted.
-/

namespace UndoLog

/-- A case with named fields. -/
def inspectFields (name : String) (fields : List (String × String)) : String :=
  name ++ " \x7b " ++ ", ".intercalate (fields.map fun (key, value) => key ++ ": " ++ value) ++
    " \x7d"

/-- A case with one field that needs no name. -/
def inspectWrapped (name inner : String) : String := name ++ "(" ++ inner ++ ")"

namespace IoFault

/-- A failure of the system with its number, class and words, and any other with its words. -/
def inspect (fault : IoFault) : String :=
  match fault.system? with
  | some (number, kind, words) =>
    inspectFields "Os"
      [("code", toString number), ("kind", kind), ("message", Quoted.encode words)]
  | none =>
    match fault with
    | .injected =>
      inspectFields "Custom" [("kind", "Other"), ("error", Quoted.encode fault.message)]
    | _ =>
      inspectFields "Error"
        [("kind", "UnexpectedEof"), ("message", Quoted.encode fault.message)]

end IoFault

namespace StorageError

/-- The error as its case and fields. -/
def inspect : StorageError → String
  | .io fault => inspectWrapped "Io" fault.inspect
  | .readPastEnd offset length size =>
    inspectFields "ReadPastEnd"
      [("offset", toString offset), ("len", toString length), ("size", toString size)]
  | .closed => "Closed"

end StorageError

namespace JournalError

/-- The error as its case and fields. -/
def inspect : JournalError → String
  | .storage error => inspectWrapped "Storage" error.inspect
  | .invalidCursor cursor journalLength =>
    inspectFields "InvalidCursor"
      [("cursor", toString cursor), ("journal_len", toString journalLength)]
  | .corruptRecord offset damage =>
    inspectFields "CorruptRecord"
      [("offset", toString offset), ("message", Quoted.encode damage.message)]
  | .truncatedJournal offset recordEnd journalLength =>
    inspectFields "TruncatedJournal"
      [("offset", toString offset), ("record_end", toString recordEnd),
        ("journal_len", toString journalLength)]
  | .unrecognizedType tag offset =>
    inspectFields "UnrecognizedRecordType"
      [("tag", toString tag), ("offset", toString offset)]
  | .invalidArgument refusal =>
    inspectFields "InvalidArgument" [("message", Quoted.encode refusal.message)]

end JournalError
end UndoLog
