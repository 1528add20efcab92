import Sharpen.Convert.Declaration
import Sharpen.Convert.Expression

/-!
# Conversion of whole trees

The converters of expressions, statements and declarations, tied together. A conversion may go as
deep as there are levels left, each node taking one; a tree that is nested deeper is declined.

* `convertExpr`, `convertStatements`, `convertDeclaration` and `convertVariables` convert parts of a
  tree in the surroundings they are in;
* `convertUnit` converts a file.
-/

namespace Sharpen

/-- How deep expressions, statements and declarations may be nested. -/
def depthLimit : Nat := 500

/-- Stops because a node is nested too deep. -/
def Convert.tooDeep {α : Type} (kind : String) : Convert α :=
  unsupported kind ("nesting deeper than " ++ toString depthLimit ++ " levels")

/-- The converters that may go a number of levels deep. -/
def Inner.at (setting : Setting) : (levels : Nat) → Inner
  | 0 => {
    setting
    expr := fun _ expr => Convert.tooDeep expr.kindName
    statement := fun _ statement => Convert.tooDeep statement.kind.kindName
    declaration := fun declaration => Convert.tooDeep declaration.kind.kindName }
  | levels + 1 =>
    let inner := Inner.at setting levels
    { setting
      expr := fun allowed expr => Convert.nested (expr.convertWith inner allowed)
      statement := fun body statement => do
        let converted ← Convert.nested (statement.convertKind inner body)
        return attachStatements statement.trivia converted
      declaration := fun declaration => Convert.nested (declaration.convertKind inner) }

/-- The converters for where a conversion stands. -/
def Inner.current (setting : Setting) : Convert Inner := do
  return Inner.at setting (depthLimit - (← get).depth)

/-- Converts an expression used as a value. -/
def convertExpr (setting : Setting) (expr : Source.Expr) : Convert Target.Expr := do
  (← Inner.current setting).value expr

def convertStatements (setting : Setting) (body : Body) (statements : List Source.Statement) :
    Convert (List Target.Statement) := do
  (← Inner.current setting).statements body statements

/-- Converts a declarator to the declarations it becomes. -/
def convertVariables (setting : Setting) (site : DeclaratorSite) (declarator : Source.Declarator) :
    Convert (List Target.Variables) := do
  (← Inner.current setting).declaredVariables site declarator

/-- Converts a declaration, without its comments. -/
def convertDeclaration (setting : Setting) (declaration : Source.Declaration) :
    Convert (List Target.Member) := do
  (← Inner.current setting).declaration declaration

def Source.ImportsClause.convert :
    Source.ImportsClause → Except ConversionError Target.UsingDirective
  | .simple shortName name => do
    return ⟨shortName.map convertIdentifier, ← name.convert⟩
  | .xmlNamespace _ => .error (.unimplemented "XmlNamespaceImportsClause")

/-- Converts a file. The imports of the whole compilation come first. -/
def convertUnit (setting : Setting) (unit : Source.CompilationUnit) :
    Convert Target.CompilationUnit := do
  let inner ← Inner.current setting
  let usings ← (setting.table.globalImports ++ unit.imports).mapM fun clause =>
    (clause.convert : Convert Target.UsingDirective)
  let attributes ← inner.attributes unit.attributes
  return ⟨usings, attributes, ← inner.members unit.members⟩

/-- The result of a conversion that starts outside everything. -/
def Convert.result {α : Type} (conversion : Convert α) : Except ConversionError α :=
  (conversion {}).1

end Sharpen
