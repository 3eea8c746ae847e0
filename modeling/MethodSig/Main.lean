import MethodSig.CommandLine.Run
import MethodSig.Method.Adapter
import MethodSig.Source.Grammar

/-!
# The program

Reads the files that the command line names and runs it on them. If a directory of sources is
given, the names of its files are read from the standard input, one a line. The sources are expected
to be well formed.
-/

namespace MethodSig.Program

def usage : List String :=
  ["Usage: methodsig [-v] parse FILE --target TYPE [--source DIRECTORY] [--json]",
    "       methodsig [-v] resolve TYPE [--source DIRECTORY]",
    "The names of the files in DIRECTORY are read from the standard input."]

/-- The lines of the standard input. -/
partial def inputLines (input : IO.FS.Stream) : IO (List String) := do
  let line ← input.getLine
  if line.isEmpty then return []
  return line.trimAscii.toString :: (← inputLines input)

/-- The file of a name, if there is one. -/
def readFile? (name : String) : IO (Option Entry) := do
  try
    return some (.file (← IO.FS.readBinFile name).toList)
  catch
    | .permissionDenied _ code text => return some (.unreadable ⟨code.toNat, text⟩)
    | _ => return none

/-- The directory that the program works in, with those of the named files that are there. -/
def readDirectory (names : List String) : IO Entry :=
  names.foldlM (fun directory name => do
    match (Path.ofString name).normalize, ← readFile? name with
    | some path, some file => return directory.add path file
    | _, _ => return directory) .empty

/-- The variables of the environment that settings are read from. -/
def readEnvironment : IO (List (String × String)) :=
  ["default_namespace", "duplicate_policy", "source_glob", "log_level"].filterMapM fun field => do
    let name := (Settings.variableName field).toUpper
    return (← IO.getEnv name).map fun value => (name, value)

def readColumns : IO Nat := do
  return ((← IO.getEnv "COLUMNS").bind String.toNat?).getD 80

def printLines (stream : IO.FS.Stream) (lines : List (List Char)) : IO Unit :=
  lines.forM fun line => stream.putStrLn (String.ofList (Wrap.trimEnd line))

end MethodSig.Program

open MethodSig in
def main (words : List String) : IO UInt32 := do
  let named ← if words.any fun word => word.startsWith "-s" || word.startsWith "--source"
    then Program.inputLines (← IO.getStdin) else pure []
  let directory ← Program.readDirectory (Settings.fileName :: words ++ named)
  let outcome := CommandLine.run Source.parse .checking (← Program.readColumns)
    (← Program.readEnvironment) directory words
  let errors ← IO.getStderr
  match outcome with
  | .misused => Program.printLines errors (Program.usage.map String.toList)
  | .aborted reason => errors.putStrLn reason.message
  | .finished report =>
    Program.printLines errors report.errors
    Program.printLines (← IO.getStdout) report.output
  return outcome.exitCode.toUInt32
