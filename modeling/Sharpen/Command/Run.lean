import Sharpen.Batch
import Sharpen.Command.Arguments
import Sharpen.Command.FileTree
import Sharpen.Command.Report

/-!
# Runs

A run finds the files of units, loads them, converts them as one batch, and writes or prints the
code. A file that cannot be loaded is reported and left out; a file that cannot be written ends the
run. What is done with the files that were read is `loadEvents` and `RunPlan.ofFiles`, which touch
no file.
-/

namespace Sharpen

/-- What ends a run early. -/
inductive RunError where
  | inputNotFound (path : String)
  | notCreated (path : String)
  | notWritten (path : String)
  deriving DecidableEq, Inhabited

/-- The text of an error. -/
def RunError.message : RunError → String
  | inputNotFound path => "input not found: " ++ path
  | notCreated path => "failed to create " ++ path
  | notWritten path => "failed to write " ++ path

/-- Why a file gives no unit. -/
inductive LoadFailure where
  | unreadable | malformed
  deriving DecidableEq, Inhabited

/-- The text of a failure to load. -/
def LoadFailure.message (path : String) : LoadFailure → String
  | unreadable => "failed to read " ++ path
  | malformed => "failed to parse " ++ path

/-- Reads the text of a file, if there is one, as a unit. -/
def loadUnit (text : Option String) : Except LoadFailure SourceUnit :=
  match text with
  | none => .error .unreadable
  | some text =>
    match SourceUnit.ofText? text with
    | some unit => .ok unit
    | none => .error .malformed

/-- A unit and the file it came from. -/
structure LoadedUnit where
  source : String
  unit : SourceUnit

/-- What becomes of a file: a unit, or a diagnostic. -/
inductive LoadEvent where
  | loaded (unit : LoadedUnit)
  | reported (diagnostic : Diagnostic)

namespace LoadEvent

def unit? : LoadEvent → Option LoadedUnit
  | loaded unit => some unit
  | reported _ => none

def diagnostic? : LoadEvent → Option Diagnostic
  | loaded _ => none
  | reported diagnostic => some diagnostic

end LoadEvent

/-- What becomes of files, given the recorded paths seen before. Of the units with one recorded path
the first is taken. -/
def loadEvents (replacement : Option (String × String)) (seen : List String) :
    List (String × Except LoadFailure SourceUnit) → List LoadEvent
  | [] => []
  | (source, .error failure) :: rest =>
    .reported (.error source (failure.message source) Diagnostic.fileCode) ::
      loadEvents replacement seen rest
  | (source, .ok unit) :: rest =>
    let path := replacedPath unit.path replacement
    if seen.contains path then
      let message := "unit path " ++ path ++ " already seen; skipped"
      .reported (.warning source message Diagnostic.fileCode) :: loadEvents replacement seen rest
    else
      .loaded ⟨source, { unit with path }⟩ :: loadEvents replacement (path :: seen) rest

/-- A run before anything is written: its outcome so far, and the files to write. -/
structure RunPlan where
  outcome : RunOutcome
  /-- paths of files and their texts -/
  outputs : List (String × String) := []
  deriving Inhabited

namespace RunPlan

/-- The file for the code of a unit, found by the recorded path of the unit. -/
def output? (arguments : Arguments) (units : List LoadedUnit) (path code : String) :
    Option (String × String) :=
  (units.find? (·.unit.path == path)).map fun loaded =>
    (outputPath path loaded.source arguments.outDir, code)

/-- What is to be done for a batch. -/
def ofBatch (arguments : Arguments) (diagnostics : List Diagnostic) (units : List LoadedUnit)
    (batch : BatchOutput) : RunPlan :=
  let outcome : RunOutcome := {
    diagnostics := diagnostics ++ batch.failures.map UnitFailure.diagnostic
    convertedCount := batch.converted.length
    unitCount := units.length }
  if arguments.stdout then { outcome := { outcome with printed := batch.converted } }
  else
    let outputs := batch.converted.filterMap fun (path, code) => output? arguments units path code
    { outcome, outputs }

/-- What is to be done for the files that were read. -/
def ofFiles (arguments : Arguments)
    (files : List (String × Except LoadFailure SourceUnit)) : RunPlan :=
  let events := loadEvents arguments.pathReplacement [] files
  let units := events.filterMap LoadEvent.unit?
  let diagnostics := events.filterMap LoadEvent.diagnostic?
  match convertBatch arguments.options (units.map (·.unit)) with
  | .ok batch => ofBatch arguments diagnostics units batch
  | .error failure =>
    let outcome : RunOutcome := {
      diagnostics := diagnostics ++ [.error "" failure.message failure.code]
      unitCount := units.length }
    { outcome }

end RunPlan

section Effects

variable {m : Type → Type} [Monad m] (files : FileSystem m)

/-- The files that an input names. A file stands for itself, and a directory for the units in it. -/
def unitFiles (input : String) : ExceptT RunError m (List String) := do
  if ← files.isFile input then return [input]
  else if ← files.isDirectory input then
    return (← files.filesBelow input).filter fun path => Path.extension? path == some unitExtension
  else throw (.inputNotFound input)

/-- The files that inputs name, in the order of the inputs. -/
def discoverUnits (inputs : List String) : ExceptT RunError m (List String) := do
  return (← inputs.mapM (unitFiles files)).flatten

def loadFiles (paths : List String) :
    m (List (String × Except LoadFailure SourceUnit)) :=
  paths.mapM fun path => do return (path, loadUnit (← files.read path))

/-- Writes a file and the directories above it. -/
def writeOutput (output : String × String) : ExceptT RunError m String := do
  let (path, code) := output
  let directory := (Path.parent? path).getD ""
  unless directory.isEmpty do
    unless ← files.makeDirectories directory do throw (.notCreated directory)
  unless ← files.write path code do throw (.notWritten path)
  return path

/-- Does what the arguments ask for. -/
def run (arguments : Arguments) : ExceptT RunError m RunOutcome := do
  let paths ← discoverUnits files arguments.inputs
  let plan := RunPlan.ofFiles arguments (← ExceptT.lift (loadFiles files paths))
  let emittedFiles ← plan.outputs.mapM (writeOutput files)
  return { plan.outcome with emittedFiles }

end Effects

end Sharpen
