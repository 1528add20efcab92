import Sharpen.Diagnostic
import Sharpen.Text.Replace

/-!
# Reports

How the diagnostics and the summary of a run are shown, plain or in colour.
-/

namespace Sharpen

/-- The colours of a report. -/
inductive Paint where
  | cyan | boldRed | boldYellow | brightBlack | green | yellow
  deriving DecidableEq, Inhabited

namespace Paint

/-- The sequence that ends every colour. -/
def reset : String := "\x1b[0m"

/-- The sequence that starts a colour. -/
def start : Paint → String
  | cyan => "\x1b[36m"
  | boldRed => "\x1b[1;31m"
  | boldYellow => "\x1b[1;33m"
  | brightBlack => "\x1b[90m"
  | green => "\x1b[32m"
  | yellow => "\x1b[33m"

/-- A text in a colour. Where the text itself ends colours, the colour starts again. -/
def apply (paint : Paint) (text : String) : String :=
  paint.start ++ Text.replaceAll reset (reset ++ paint.start) text ++ reset

/-- A text in a colour, if colours are wanted. -/
def applyIf (color : Bool) (paint : Paint) (text : String) : String :=
  if color then paint.apply text else text

end Paint

/-- The colour of a severity. -/
def Severity.paint : Severity → Paint
  | .error => .boldRed
  | .warning => .boldYellow

def Diagnostic.line (color : Bool) (diagnostic : Diagnostic) : String :=
  let file := if diagnostic.file.isEmpty then "<batch>" else diagnostic.file
  Paint.applyIf color .cyan file ++ " - "
    ++ Paint.applyIf color diagnostic.severity.paint diagnostic.severity.word ++ " "
    ++ Paint.applyIf color .brightBlack diagnostic.codeText ++ ": " ++ diagnostic.message

def Diagnostic.report (color : Bool) (diagnostics : List Diagnostic) : String :=
  "\n".intercalate (diagnostics.map (Diagnostic.line color))

/-- How a run ended. -/
inductive ExitStatus where
  /-- every unit was converted -/
  | success
  /-- some unit was not -/
  | unitsFailed
  /-- there was no unit -/
  | batchFailed
  deriving DecidableEq, Inhabited

/-- The number that the command gives back. -/
def ExitStatus.code : ExitStatus → Nat
  | success => 0
  | unitsFailed => 1
  | batchFailed => 2

/-- What a run gives. -/
structure RunOutcome where
  diagnostics : List Diagnostic := []
  /-- the files written -/
  emittedFiles : List String := []
  /-- recorded paths and code, when the code is printed -/
  printed : List (String × String) := []
  convertedCount : Nat := 0
  unitCount : Nat := 0
  deriving DecidableEq, Inhabited

namespace RunOutcome

/-- How the run ended. -/
def exitStatus (outcome : RunOutcome) : ExitStatus :=
  if outcome.unitCount = 0 then .batchFailed
  else if outcome.diagnostics.any Diagnostic.isError then .unitsFailed
  else .success

/-- The closing line. It is green when there were units and all were converted. -/
def summary (color : Bool) (outcome : RunOutcome) : String :=
  let plural := if outcome.unitCount = 1 then "" else "s"
  let line := "Converted " ++ toString outcome.convertedCount ++ " of " ++
    toString outcome.unitCount ++ " unit" ++ plural ++ "."
  let complete := outcome.convertedCount = outcome.unitCount ∧ 0 < outcome.unitCount
  Paint.applyIf color (if complete then .green else .yellow) line

end RunOutcome

/-- The forms of the log. -/
inductive LogFormat where
  | text | tree | json
  deriving DecidableEq, Inhabited

/-- The form that a setting names, in any case of its letters. Any other word means text. -/
def LogFormat.ofSetting (setting : String) : LogFormat :=
  match String.ofList (setting.toList.map Char.toLower) with
  | "tree" => tree
  | "json" => json
  | _ => text

end Sharpen
