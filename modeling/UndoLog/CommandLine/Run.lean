import UndoLog.CommandLine.Arguments
import UndoLog.Error.Inspect
import UndoLog.Report.Format
import UndoLog.Report.Verification
import UndoLog.Storage.File

/-!
# Running a command

A command prints its result and says with its exit code how it ended: with zero if all is well, with
one if the journal cannot be read or is not sound, and with two if the arguments are not understood.
A failure is told in one line of its own.

The journal is looked up by its path in a directory that holds files and nothing else. A path into
it may go through the directory itself, but through no file.

UndoJournal specification: section 10.
-/

namespace UndoLog

/-- What a path leads to. -/
inductive DirectoryEntry
  | file (content : Bytes)
  | directory
  deriving DecidableEq, Repr

/-- A directory of files, in which a program runs. -/
structure Directory where
  files : List (String × Bytes)
  deriving DecidableEq, Repr

namespace Directory

/-- What a path leads to that is seen from inside the directory. A path that leaves the directory
leads to a directory if it only goes up. -/
def lookup? (d : Directory) (path : String) : Option DirectoryEntry :=
  let steps := (path.splitOn "/").filter fun step => step ≠ "" && step ≠ "."
  let plain := !(path.endsWith "/" || path.endsWith "/.")
  match steps with
  | [] => if path.isEmpty then none else some .directory
  | [name] =>
    if name = ".." then some .directory
    else if path.startsWith "/" || !plain then none
    else (d.files.lookup name).map .file
  | steps => if steps.all (· = "..") then some .directory else none

end Directory

/-- The version of the program. -/
def programVersion : String := "0.3.0"

/-- What a program leaves behind. -/
structure ProgramOutput where
  exitCode : Nat
  printed : String
  failure? : Option String := none
  deriving DecidableEq, Repr

namespace ProgramOutput

/-- The line that tells a failure. -/
def failureLine (failure : String) : String := "Error: " ++ failure

/-- A program that ends well. -/
def ofPrinted (printed : String) : ProgramOutput := ⟨0, printed, none⟩

/-- A program that fails after it has printed something. -/
def failed (printed failure : String) : ProgramOutput := ⟨1, printed, some failure⟩

end ProgramOutput

/-- A directory opened for reading. It can be opened and has a size, but gives no bytes. -/
structure DirectoryStorage where
  size : Nat := 4096
  deriving DecidableEq, Repr

instance : Storage DirectoryStorage where
  size d := (.ok d.size, d)
  readAt d _ _ := (.error (.io .isDirectory), d)
  append d _ := (.error (.io .badDescriptor), d)
  flush d := (.ok (), d)
  length_readAt _ _ _ _ h := by cases h

/-- The words of an error before the journal was read to its end. -/
def VerificationError.inspect : VerificationError → String
  | .storage error => error.inspect
  | .journal error => error.inspect

/-- What the listing of a storage prints. -/
def dumpStorage {σ : Type} [Storage σ] (reverse : Bool) (limit? : Option Nat) (format : String)
    (storage : σ) : ProgramOutput :=
  match (listRecords (if reverse then .newestFirst else .oldestFirst) limit? storage).1 with
  | .error error => .failed "" error.inspect
  | .ok records =>
    if format = "json" then .ofPrinted (ListedRecord.jsonOf records ++ "\n")
    else .ofPrinted (ListedRecord.textOf records)

/-- What the verification of a storage prints after a heading. -/
def verifyStorage {σ : Type} [Storage σ] (heading : String) (storage : σ) : ProgramOutput :=
  match (verifyJournal storage).1 with
  | .error error => .failed heading error.inspect
  | .ok result =>
    let counts :=
      s!"  Journal size: {result.journalLength} bytes\n" ++
      s!"  Valid records: {result.validRecords}\n" ++
      s!"  Pre-image bytes: {result.payloadBytes}\n"
    match result.defect? with
    | none => .ofPrinted (heading ++ counts ++ "\n✓ Journal verification passed\n")
    | some defect =>
      .failed
        (heading ++ counts ++ s!"  Error: {defect.message}\n\n✗ Journal verification failed\n")
        (Quoted.encode "Verification failed")

/-- What a command prints before it looks for the journal. -/
def JournalCommand.heading (path : String) : JournalCommand → String
  | .dump .. => ""
  | .verify => s!"Verifying journal at {Quoted.encode path}\n\n"

/-- What a command prints of a storage after its heading. -/
def JournalCommand.runOn {σ : Type} [Storage σ] (heading : String) (storage : σ) :
    JournalCommand → ProgramOutput
  | .dump reverse limit? format => dumpStorage reverse limit? format storage
  | .verify => verifyStorage heading storage

/-- Carries out a command on what its path leads to. -/
def JournalCommand.run (command : JournalCommand) (path : String)
    (target? : Option DirectoryEntry) : ProgramOutput :=
  let heading := command.heading path
  match target? with
  | none => .failed heading (Quoted.encode "Journal file not found")
  | some .directory => command.runOn heading ({} : DirectoryStorage)
  | some (.file content) =>
    match FileStorage.openReadOnly .blocking (some content) with
    | .error error => .failed heading error.inspect
    | .ok storage => command.runOn heading storage

/-- The name of a command in messages. -/
def JournalCommand.name : JournalCommand → String
  | .dump .. => "dump"
  | .verify => "verify"

/-- Does what the arguments ask for, with a way to look up a path. -/
def Invocation.run (lookup? : String → Option DirectoryEntry) : Invocation → ProgramOutput
  | .version =>
    .ofPrinted (s!"UndoJournal CLI v{programVersion}\n" ++ s!"UndoJournal Core v{programVersion}\n")
  | .onJournal command none =>
    .failed "" (Quoted.encode s!"Journal path required for {command.name}")
  | .onJournal command (some path) => command.run path (lookup? path)

/-- What is printed when help is asked for. -/
def helpText : String :=
  "UndoJournal command-line tools\n\n" ++
  "Usage: undojournal [OPTIONS] <COMMAND>\n\n" ++
  "Commands:\n" ++
  "  dump     Print journal records, oldest first\n" ++
  "  verify   Verify that every record scans back to the journal start\n" ++
  "  version  Show version information\n" ++
  "  help     Print this message or the help of the given subcommand(s)\n\n" ++
  "Options:\n" ++
  "  -p, --path <PATH>  Path to the journal file\n" ++
  "  -v, --verbose      Enable verbose output\n" ++
  "  -h, --help         Print help\n" ++
  "  -V, --version      Print version\n"

/-- Runs the program on its arguments. What is not understood is answered by the exit code alone. -/
def runProgram (arguments : List String) (lookup? : String → Option DirectoryEntry) :
    ProgramOutput :=
  match readArguments arguments with
  | .ok invocation => invocation.run lookup?
  | .error .help => .ofPrinted helpText
  | .error .version => .ofPrinted s!"undojournal {programVersion}\n"
  | .error .misuse => ⟨2, "", none⟩

end UndoLog
