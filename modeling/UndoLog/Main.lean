import UndoLog.CommandLine.Run

/-!
# The program

Reads the journal that the arguments name, prints what the command has to say, and ends with its
exit code.
-/

/-- What a path of the system leads to. -/
def UndoLog.lookupPath (path : String) : IO (Option UndoLog.DirectoryEntry) := do
  try
    let content ← IO.FS.readBinFile path
    return some (.file content.toList)
  catch
    | .noFileOrDirectory .. => return none
    | _ => return some .directory

/-- Runs the program. -/
def main (arguments : List String) : IO UInt32 := do
  let target? ←
    match UndoLog.readArguments arguments with
    | .ok (.onJournal _ (some path)) => UndoLog.lookupPath path
    | _ => pure none
  let output := UndoLog.runProgram arguments fun _ => target?
  IO.print output.printed
  if let some failure := output.failure? then
    IO.eprintln (UndoLog.ProgramOutput.failureLine failure)
  return output.exitCode.toUInt32
