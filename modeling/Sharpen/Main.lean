import Sharpen.Command.Run

/-!
# The command

Reads the arguments, runs on the files of the machine, prints what the run gives and returns its
exit code.
-/

namespace Sharpen.Command

/-- The files below a directory, by name. -/
partial def filesBelow (path : String) : IO (List String) := do
  let entries ← ((← IO.currentDir) / path).readDir
  let names := (entries.toList.map (·.fileName)).mergeSort (fun a b => a ≤ b)
  let found ← names.mapM fun name => do
    let inner := Path.join path name
    let place := (← IO.currentDir) / inner
    if ← place.isDir then filesBelow inner
    else if ← place.pathExists then return [inner]
    else return []
  return found.flatten

/-- Whether an action ends without an error. -/
def succeeds (action : IO Unit) : IO Bool :=
  try
    action
    return true
  catch _ => return false

def machine : FileSystem IO where
  isFile path := do
    let place := (← IO.currentDir) / path
    return (← place.pathExists) && !(← place.isDir)
  isDirectory path := do ((← IO.currentDir) / path).isDir
  filesBelow path := try filesBelow path catch _ => return []
  read path := try return String.fromUTF8? (← IO.FS.readBinFile path) catch _ => return none
  makeDirectories path := succeeds (IO.FS.createDirAll path)
  write path text := succeeds (IO.FS.writeFile path text)

/-- How the command is used. -/
def usage : String :=
  "Usage: sharpen [OPTIONS] <INPUTS>...\n\n" ++
  "Convert serialized VB.NET units to C#\n\n" ++
  "  -o, --out-dir <DIR>          root directory for converted files\n" ++
  "      --replace-path <OLD> <NEW>  replace a text in recorded paths\n" ++
  "      --stdout                 print the code and write no file\n" ++
  "  -j, --jobs <N>               number of workers\n" ++
  "      --indent-width <N>       blanks for a level of indentation\n" ++
  "      --no-todo-comments       leave no comments for dropped modifiers\n" ++
  "      --no-color               print without colours\n" ++
  "  -h, --help                   print this text\n" ++
  "  -V, --version                print the version"

/-- The text for arguments that lead to no run. -/
def argumentsMessage : ArgumentsError → String
  | .missingInput => "no input given"
  | .unknownArgument => "unknown argument"
  | .malformedNumber => "a number cannot be read"
  | .missingValue => "a value is missing"
  | .wrongNumberOfValues => "wrong number of values"
  | .unexpectedValue => "a flag takes no value"
  | .repeated => "an option is given twice"
  | .helpRequested => usage
  | .versionRequested => "sharpen 0.1.0"

/-- Shows what a run gives. -/
def report (arguments : Arguments) (outcome : RunOutcome) : IO UInt32 := do
  for (path, code) in outcome.printed do
    IO.println ("// " ++ path)
    IO.println code
  let color := !arguments.noColor && (← (← IO.getStderr).isTty)
  unless outcome.diagnostics.isEmpty do
    IO.eprintln (Diagnostic.report color outcome.diagnostics)
  IO.eprintln (outcome.summary color)
  return UInt32.ofNat outcome.exitStatus.code

end Sharpen.Command

open Sharpen Sharpen.Command in
/-- The command. -/
def main (words : List String) : IO UInt32 := do
  match Arguments.parse words with
  | .error .helpRequested =>
    IO.println (argumentsMessage .helpRequested)
    return 0
  | .error .versionRequested =>
    IO.println (argumentsMessage .versionRequested)
    return 0
  | .error failure =>
    IO.eprintln ("error: " ++ argumentsMessage failure)
    return 2
  | .ok arguments =>
    match ← (run machine arguments).run with
    | .error failure =>
      IO.eprintln ("Error: " ++ failure.message)
      return 1
    | .ok outcome => report arguments outcome
