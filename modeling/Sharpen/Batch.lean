import Sharpen.Convert.Unit
import Sharpen.Json.Parse
import Sharpen.Model.Decode
import Sharpen.Model.Encode

/-!
# Batches

A source unit is a tree with the semantic answers for it. Each unit of a batch is converted
on its own: one that fails is reported, and the others are converted all the same.
-/

namespace Sharpen

open Model (SemanticTable)

/-- One source file: where it was, its tree and the answers about it. -/
structure SourceUnit where
  path : String
  tree : Source.CompilationUnit
  semantics : SemanticTable

namespace SourceUnit

open Json Json.Reader in
def read? (given : Given) : Option SourceUnit :=
  readRecord given do
    let path ← value "path" Given.str?
    let tree ← value "tree" Source.CompilationUnit.read?
    let semantics ← valueD "semantics" {} SemanticTable.read?
    return { path, tree, semantics }

def ofJson? (json : Json) : Option SourceUnit :=
  read? { json }

/-- How deep arrays and objects may be nested in a text that is read. -/
def nestingLimit : Nat := 127

def ofText? (text : String) : Option SourceUnit := do
  read? { json := (← Json.skim? text).within nestingLimit, manner := .text }

/-- Writes a unit. -/
def toJson (unit : SourceUnit) : Json :=
  .obj [("path", .str unit.path), ("tree", unit.tree.toJson), ("semantics", unit.semantics.toJson)]

/-- The tree of the target. -/
def convert (options : Options) (unit : SourceUnit) :
    Except ConversionError Target.CompilationUnit :=
  (convertUnit { table := unit.semantics, options } unit.tree).result

/-- The text of the target. -/
def code (options : Options) (unit : SourceUnit) : Except ConversionError String :=
  (unit.convert options).map (·.text options.indentWidth)

end SourceUnit

/-- A unit that could not be converted. -/
structure UnitFailure where
  path : String
  error : ConversionError
  deriving DecidableEq, Inhabited

/-- The report of a failure. -/
def UnitFailure.diagnostic (failure : UnitFailure) : Diagnostic :=
  .error failure.path failure.error.message failure.error.code

/-- What a batch gives: the paths and texts of the units that were converted, and the failures, both
in the order of the units. -/
structure BatchOutput where
  converted : List (String × String) := []
  failures : List UnitFailure := []
  deriving DecidableEq, Inhabited

/-- No unit failed. -/
def BatchOutput.isSuccess (output : BatchOutput) : Bool :=
  output.failures.isEmpty

/-- Why a batch as a whole fails: it has no units. -/
inductive BatchError where
  | noUnits
  deriving DecidableEq, Inhabited

namespace BatchError

/-- The number under which the error is reported. -/
def code : BatchError → Nat
  | .noUnits => Diagnostic.noUnitsCode

/-- The text of the error. -/
def message : BatchError → String
  | .noUnits => "no translatable units in batch"

end BatchError

/-- The results of units sorted into texts and failures. -/
def BatchOutput.ofResults (results : List (String × Except ConversionError String)) :
    BatchOutput where
  converted := results.filterMap fun
    | (path, .ok code) => some (path, code)
    | (_, .error _) => none
  failures := results.filterMap fun
    | (_, .ok _) => none
    | (path, .error error) => some ⟨path, error⟩

def convertBatch (options : Options) (units : List SourceUnit) :
    Except BatchError BatchOutput :=
  if units.isEmpty then .error .noUnits
  else .ok (.ofResults (units.map fun unit => (unit.path, unit.code options)))

end Sharpen
