/-!
# Errors of storage

A storage refuses a read past its end, or the system below it fails.

UndoJournal specification: section 7.
-/

namespace UndoLog

/-- A failure of the system below a storage. A file that ends inside a read is `shortRead` if the
read blocks and `earlyEnd` if it suspends; `injected` is a failure on demand. -/
inductive IoFault
  | badDescriptor
  | notFound
  | isDirectory
  | shortRead
  | earlyEnd
  | injected
  deriving DecidableEq, Repr

namespace IoFault

/-- What the system says of a failure that comes from there: a number, a class and words. -/
def system? : IoFault → Option (Nat × String × String)
  | .badDescriptor => some (9, "Uncategorized", "Bad file descriptor")
  | .notFound => some (2, "NotFound", "No such file or directory")
  | .isDirectory => some (21, "IsADirectory", "Is a directory")
  | .shortRead | .earlyEnd | .injected => none

/-- The failure in words; the system's number stands after its own words. -/
def message (fault : IoFault) : String :=
  match fault.system?, fault with
  | some (number, _, words), _ => s!"{words} (os error {number})"
  | none, .earlyEnd => "early eof"
  | none, .injected => "injected"
  | none, _ => "failed to fill whole buffer"

end IoFault

/-- A reason for a storage operation to fail. -/
inductive StorageError
  | io (fault : IoFault)
  | readPastEnd (offset length size : Nat)
  | closed
  deriving DecidableEq, Repr

namespace StorageError

/-- The reason in words. -/
def message : StorageError → String
  | .io fault => s!"I/O error: {fault.message}"
  | .readPastEnd offset length size =>
    s!"read beyond end of storage: offset {offset}, len {length}, size {size}"
  | .closed => "storage is closed"

end StorageError
end UndoLog
