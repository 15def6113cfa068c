/-
PackageOrder.Main — the command.

The arguments are the options of a run, and the first line of standard input is
a snapshot of the files to run on (`FileTree.ofSnapshot?`). Messages of the
chosen level and above are written as they would be to a console: those of level
info to standard output, all others to standard error. The last line of standard
output is the snapshot of the changes.

The command ends with 0 if every task was processed, with 1 if something failed,
and with 2 if it does not take the arguments.
-/
import PackageOrder.CommandLine
import PackageOrder.FileTree.Snapshot
import PackageOrder.Processing

namespace PackageOrder.Command

open PackageOrder.Text

/-! ## Texts -/

/-- How a flag is written in the list of flags. -/
def flagLine (flag : Flag) : String :=
  let letter := (flag.letter?.map fun c => "-" ++ String.singleton c ++ ", ").getD "    "
  let value := if flag.takesMany then " <VALUE>..." else if flag.takesValue then " <VALUE>" else ""
  "  " ++ letter ++ "--" ++ flag.name ++ value

/-- The list of flags. -/
def usage : String :=
  intercalate "\n" ("Options:" :: Flag.all.map flagLine)

/-- What is said about arguments that are not taken. -/
def usageFault : UsageError → String
  | .unknownArgument => "unexpected argument"
  | .missingValue => "a value is required"
  | .unwantedValue => "unexpected value"
  | .repeatedFlag => "an argument cannot be used multiple times"
  | .helpWanted => usage
  | .versionWanted => versionText

/-- A message as a console of a level shows it, if it does. -/
def consoleLine? (console : LogLevel) (entry : LogLevel × String) : Option String :=
  if console.shows entry.1 then
    some (((entry.1.label? false).map (· ++ " ")).getD "" ++ entry.2)
  else none

/-- What is said at the end of a run, and whether it went well. -/
def closing : Except Failure Summary → Log × Bool
  | .error failure => ([(.error, failure.message)], false)
  | .ok summary =>
    let failed := summary.failed.length
    let counts := toString summary.processed.length ++ " tasks processed, " ++ toString failed
      ++ " failed, " ++ toString summary.skipped.length ++ " entry-points skipped."
    if failed = 0 then ([(.debug, counts)], true)
    else
      ([(.debug, counts), (.error, toString failed ++ " entry-point format(s) failed to compile.")],
        false)

/-! ## Running -/

/-- The messages of a run on a tree, the tree after it, and whether it went
well. -/
def execute (options : Options) (machineWorkers : Nat) (tree : FileTree) : Log × FileTree × Bool :=
  let (result, session) := (processPackages options machineWorkers markTask).run { tree }
  let (last, wentWell) := closing result
  (session.log ++ last, session.tree, wentWell)

/-- The number of cores that is reckoned with. -/
def assumedCores : Nat := 2

/-- Writes a message to the console. -/
def write (console : LogLevel) (entry : LogLevel × String) : IO Unit := do
  match consoleLine? console entry with
  | none => return
  | some line => if entry.1 = .info then IO.println line else IO.eprintln line

/-- The command with flags that were taken. -/
def run (given : Given) : IO UInt32 := do
  match given.logLevel with
  | .error message =>
    IO.eprintln ("Error: " ++ message)
    return 1
  | .ok level =>
    write level (.debug, versionText)
    match given.options with
    | .error message =>
      write level (.error, message)
      return 1
    | .ok options =>
      match FileTree.ofSnapshot? (← (← IO.getStdin).getLine) with
      | none =>
        write level (.error, "standard input holds no snapshot of files")
        return 1
      | some tree =>
        let workers := defaultWorkers (← IO.getEnv "NGCC_MAX_WORKERS") assumedCores
        let (log, changed, wentWell) := execute options workers tree
        log.forM (write level)
        IO.println (tree.changesSnapshot changed).compact
        return if wentWell then 0 else 1

end PackageOrder.Command

/-- The command. -/
def main (arguments : List String) : IO UInt32 := do
  match PackageOrder.readArguments [] none arguments with
  | .ok given => PackageOrder.Command.run given
  | .error fault =>
    let text := PackageOrder.Command.usageFault fault
    if fault = .helpWanted ∨ fault = .versionWanted then
      IO.println text
      return 0
    else
      IO.eprintln ("error: " ++ text)
      return 2
