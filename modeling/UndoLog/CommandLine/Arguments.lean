import UndoLog.Text.Digits

/-!
# The arguments of the command line

Arguments are read from left to right. Options that stand before the command belong to the program,
and those after it to the command; the path and the verbose flag may stand in either place. An
option is given at most once in each place. A value follows its option as the next argument, after
an equals sign, or, for an option of one letter, at once. Flags of one letter may be put together.

UndoJournal specification: section 10.
-/

namespace UndoLog

/-- The name of an option or a flag. -/
inductive Switch
  | path
  | limit
  | format
  | verbose
  | reverse
  | help
  | version
  deriving DecidableEq, Repr

namespace Switch

/-- The long name, after two hyphens. -/
def long : Switch → String
  | .path => "path"
  | .limit => "limit"
  | .format => "format"
  | .verbose => "verbose"
  | .reverse => "reverse"
  | .help => "help"
  | .version => "version"

/-- The letter after one hyphen. -/
def letter : Switch → Char
  | .path => 'p'
  | .limit => 'l'
  | .format => 'f'
  | .verbose => 'v'
  | .reverse => 'r'
  | .help => 'h'
  | .version => 'V'

/-- Whether a value follows. -/
def takesValue : Switch → Bool
  | .path | .limit | .format => true
  | .verbose | .reverse | .help | .version => false

end Switch

/-- The names of the commands. -/
inductive CommandName
  | dump
  | verify
  | version
  | help
  deriving DecidableEq, Repr

namespace CommandName

/-- The command with a given name. -/
def ofString? : String → Option CommandName
  | "dump" => some .dump
  | "verify" => some .verify
  | "version" => some .version
  | "help" => some .help
  | _ => none

/-- The options and flags that may follow a command. -/
def switches : CommandName → List Switch
  | .dump => [.path, .verbose, .reverse, .limit, .format, .help]
  | .verify | .version => [.path, .verbose, .help]
  | .help => []

end CommandName

/-- The options and flags that may stand before the command. -/
def programSwitches : List Switch := [.path, .verbose, .help, .version]

/-- Why the arguments do not lead to a command. -/
inductive EarlyExit
  | help
  | version
  | misuse
  deriving DecidableEq, Repr

/-- The options and flags found in one place. -/
structure GivenSwitches where
  path? : Option String := none
  limit? : Option Nat := none
  format? : Option String := none
  verbose : Bool := false
  reverse : Bool := false
  deriving DecidableEq, Repr

/-- The number that an argument gives as a limit: decimal digits, perhaps after a plus sign, below
2^64. -/
def limitOfString? (s : String) : Option Nat :=
  let digits :=
    match s.toList with
    | '+' :: rest => rest
    | cs => cs
  (Decimal.value? digits).filter (· < UInt64.size)

namespace GivenSwitches

/-- Notes a flag. -/
def flag (g : GivenSwitches) : Switch → Except EarlyExit GivenSwitches
  | .verbose => if g.verbose then .error .misuse else .ok { g with verbose := true }
  | .reverse => if g.reverse then .error .misuse else .ok { g with reverse := true }
  | .help => .error .help
  | .version => .error .version
  | .path | .limit | .format => .error .misuse

/-- Notes a value. A path is not empty, and a limit is a number. -/
def value (g : GivenSwitches) (s : Switch) (text : String) : Except EarlyExit GivenSwitches :=
  match s with
  | .path =>
    if g.path?.isSome || text.isEmpty then .error .misuse
    else .ok { g with path? := some text }
  | .format =>
    if g.format?.isSome then .error .misuse else .ok { g with format? := some text }
  | .limit =>
    match g.limit?, limitOfString? text with
    | none, some limit => .ok { g with limit? := some limit }
    | _, _ => .error .misuse
  | .verbose | .reverse | .help | .version => .error .misuse

end GivenSwitches

/-- Reads an argument of a long name, perhaps with a value after an equals sign. It tells the option
that still waits for its value, if there is one. -/
def readLong (allowed : List Switch) (g : GivenSwitches) (name : List Char) :
    Except EarlyExit (GivenSwitches × Option Switch) :=
  let key := String.ofList (name.takeWhile (· ≠ '='))
  let attached? := (name.dropWhile (· ≠ '=')).tail?
  match allowed.find? (·.long = key), attached? with
  | none, _ => .error .misuse
  | some s, none =>
    if s.takesValue then .ok (g, some s) else (g.flag s).map fun g => (g, none)
  | some s, some text => (g.value s (String.ofList text)).map fun g => (g, none)

/-- Reads the letters after one hyphen. The first option that takes a value takes the letters that
follow it, or else still waits for its value. -/
def readLetters (allowed : List Switch) :
    List Char → GivenSwitches → Except EarlyExit (GivenSwitches × Option Switch)
  | [], g => .ok (g, none)
  | c :: rest, g =>
    match allowed.find? (·.letter = c) with
    | none => .error .misuse
    | some s =>
      if s.takesValue then
        match rest with
        | [] => .ok (g, some s)
        | '=' :: text => (g.value s (String.ofList text)).map fun g => (g, none)
        | text => (g.value s (String.ofList text)).map fun g => (g, none)
      else
        match g.flag s with
        | .error exit => .error exit
        | .ok g => readLetters allowed rest g

/-- Reads the options and flags of one place. They end with the arguments, or with the first one
that is a command, which is given with what follows it. After two hyphens nothing may follow. -/
def readSwitches (allowed : List Switch) (command? : String → Option CommandName) :
    List String → Option Switch → GivenSwitches →
    Except EarlyExit (GivenSwitches × Option (CommandName × List String))
  | [], none, g => .ok (g, none)
  | [], some _, _ => .error .misuse
  | argument :: rest, waiting?, g =>
    match waiting?, argument.toList with
    | none, ['-', '-'] => if rest.isEmpty then .ok (g, none) else .error .misuse
    | none, '-' :: '-' :: name =>
      match readLong allowed g name with
      | .error exit => .error exit
      | .ok (g, waiting?) => readSwitches allowed command? rest waiting? g
    | none, '-' :: c :: letters =>
      match readLetters allowed (c :: letters) g with
      | .error exit => .error exit
      | .ok (g, waiting?) => readSwitches allowed command? rest waiting? g
    | none, _ =>
      match command? argument with
      | some command => .ok (g, some (command, rest))
      | none => .error .misuse
    | some _, '-' :: _ :: _ => .error .misuse
    | some s, _ =>
      match g.value s argument with
      | .error exit => .error exit
      | .ok g => readSwitches allowed command? rest none g

/-- A command that reads a journal. -/
inductive JournalCommand
  | dump (reverse : Bool) (limit? : Option Nat) (format : String)
  | verify
  deriving DecidableEq, Repr

/-- What the program is to do. -/
inductive Invocation
  | version
  | onJournal (command : JournalCommand) (path? : Option String)
  deriving DecidableEq, Repr

/-- Whether help can be given on some arguments: none, or one command. -/
def helpOn (arguments : List String) : EarlyExit :=
  match arguments with
  | [] => .help
  | [name] => if (CommandName.ofString? name).isSome then .help else .misuse
  | _ => .misuse

/-- Reads the arguments. A path after the command is taken before one in front of it. -/
def readArguments (arguments : List String) : Except EarlyExit Invocation := do
  let (program, rest?) ← readSwitches programSwitches CommandName.ofString? arguments none {}
  match rest? with
  | none => throw .misuse
  | some (.help, rest) => throw (helpOn rest)
  | some (name, rest) =>
    let (given, _) ← readSwitches name.switches (fun _ => none) rest none {}
    let path? := given.path? <|> program.path?
    match name with
    | .dump =>
      let format := given.format?.getD "text"
      return .onJournal (.dump given.reverse given.limit? format) path?
    | .verify => return .onJournal .verify path?
    | .version | .help => return .version

end UndoLog
