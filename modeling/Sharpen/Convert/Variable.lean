import Sharpen.Convert.Argument
import Sharpen.Convert.Parameter
import Sharpen.Target.Print.Declarations

/-!
# Declared variables

One declarator of the source can declare variables of different types: in `Dim a, b(5), c? As
Integer` they are `int`, `int[]` and `int?`. The target declares variables of one type at a time, so
the names are grouped by their type, in order of first appearance.
-/

namespace Sharpen

open Model (TypeSymbol)
open Target (TypeSyntax Variables)

/-- Where a declarator stands; decides the type of names without `As`. -/
inductive DeclaratorSite where
  | field
  | local
  /-- a constant: its type has to be known -/
  | constant
  deriving DecidableEq, Inhabited

instance : Vocabulary DeclaratorSite where
  all := [.field, .local, .constant]
  spelling
    | .field => "Field"
    | .local => "Local"
    | .constant => "Constant"

namespace Inner

/-- The type of a name declared without `As`. -/
def implicitType (inner : Inner) (site : DeclaratorSite) (initializer : Option Source.Expr)
    (name : Source.DeclaredName) : Convert TypeSyntax :=
  if site = .local && initializer.isSome then return .var
  else
    let declared := ((inner.table.declaredSymbol? name.id).bind (·.type)).filter fun type =>
      !type.isError && type.canBeNamed
    match declared with
    | some type => return type.written
    | none =>
      if site ≠ .constant then return .object
      else
        let known := (initializer.bind fun value => inner.table.expressionType? value.id).filter
          fun type => !type.isError
        match known with
        | some type => return type.written
        | none =>
          Convert.unsupported "VariableDeclarator"
            ("the type of constant " ++ name.identifier ++ " is unknown")

/-- The type of a declarator before the marks on its names, and the initial value. -/
def baseType (inner : Inner) (site : DeclaratorSite) (declarator : Source.Declarator)
    (name : Source.DeclaredName) : Convert (TypeSyntax × Option Target.Expr) := do
  let initializer ← inner.value? declarator.initializer
  match declarator.asClause with
  | .simple _ type => return (← type.convert, initializer)
  | .new (.objectCreation id type arguments members) => do
    let creation ← inner.value (.objectCreation id type arguments members)
    return (← type.convert, some creation)
  | .new _ => Convert.unsupported "AsNewClause" "only object creation can follow As New"
  | .absent => return (← inner.implicitType site declarator.initializer name, initializer)

/-- The type and the initial value of a declared name. A name with bounds declares an array and
creates it; the declared type has no sizes. -/
def declaredVariable (inner : Inner) (site : DeclaratorSite) (declarator : Source.Declarator)
    (name : Source.DeclaredName) : Convert (TypeSyntax × Option Target.Expr) := do
  let (plain, initializer) ← inner.baseType site declarator name
  let isMarked := name.nullable || name.arrayBounds.isSome || !name.arrayRanks.isEmpty
  let known := if isMarked && plain.isVar then .object else plain
  let base := if name.nullable then known.nullableOf else known
  let outer := unsizedRanks name.arrayRanks
  match name.arrayBounds with
  | none => return (base.withOuterRanks outer, initializer)
  | some bounds => do
    let rank ← inner.boundsRank bounds
    let created : Option Target.Expr :=
      if initializer.isNone && rank.any Option.isSome then
        some (.arrayCreation (base.withOuterRanks (rank :: outer)) .absent)
      else initializer
    return (base.withOuterRanks (TypeSyntax.unsizedRank rank.length :: outer), created)

end Inner

/-- Adds a variable to the group whose type is written the same, or starts a group with it. -/
def addToGroup (type : TypeSyntax) (declared : Target.Declarator) : List Variables → List Variables
  | [] => [⟨type, [declared]⟩]
  | group :: rest =>
    if group.type.text == type.text then
      { group with declarators := group.declarators ++ [declared] } :: rest
    else group :: addToGroup type declared rest

namespace Inner

/-- The declarations that a declarator becomes, one for each type. -/
def declaredVariables (inner : Inner) (site : DeclaratorSite) (declarator : Source.Declarator) :
    Convert (List Variables) := do
  let declared ← declarator.names.mapM fun name => do
    let (type, initializer) ← inner.declaredVariable site declarator name
    return (type, (⟨convertIdentifier name.identifier, initializer⟩ : Target.Declarator))
  return declared.foldl (fun groups (type, declared) => addToGroup type declared groups) []

/-- The declarations that several declarators become. -/
def variableLists (inner : Inner) (site : DeclaratorSite) (declarators : List Source.Declarator) :
    Convert (List Variables) := do
  return (← declarators.mapM (inner.declaredVariables site)).flatten

end Inner

end Sharpen
