/-!
# Diagnostics

What a run reports about its files: an error or a warning with a number, the file it concerns and a
message. A diagnostic without a file is about the run as a whole.
-/

namespace Sharpen

/-- How bad a diagnostic is. -/
inductive Severity where
  | warning | error
  deriving DecidableEq, Inhabited

def Severity.word : Severity → String
  | .warning => "warning"
  | .error => "error"

/-- Something to report. -/
structure Diagnostic where
  severity : Severity
  code : Nat
  /-- empty when the diagnostic is about the whole run -/
  file : String
  message : String
  deriving DecidableEq, Inhabited

namespace Diagnostic

/-- Nothing to convert was found. -/
def noUnitsCode : Nat := 1000

/-- There is no rule for a kind of node. -/
def unimplementedCode : Nat := 1001

/-- There is a rule, and it declines the node. -/
def unsupportedCode : Nat := 1002

/-- A file could not be read or written. -/
def fileCode : Nat := 1003

def error (file message : String) (code : Nat) : Diagnostic :=
  ⟨.error, code, file, message⟩

def warning (file message : String) (code : Nat) : Diagnostic :=
  ⟨.warning, code, file, message⟩

def isError (diagnostic : Diagnostic) : Bool :=
  diagnostic.severity == .error

/-- The number of a diagnostic as it is shown. -/
def codeText (diagnostic : Diagnostic) : String :=
  "VBC" ++ toString diagnostic.code

/-- The text of a diagnostic on one line. -/
def display (diagnostic : Diagnostic) : String :=
  let place := if diagnostic.file.isEmpty then "" else diagnostic.file ++ ": "
  place ++ diagnostic.severity.word ++ " " ++ diagnostic.codeText ++ ": " ++ diagnostic.message

end Diagnostic

end Sharpen
