import Sharpen.Convert.Modifier
import Sharpen.Convert.Type
import Sharpen.Target.Member

/-!
# Conversion one level further in

The rule for a node converts the expressions, statements and declarations inside it through an
`Inner`: the converters that are one level deeper. Rules are thus plain functions, and the recursion
is tied in one place, on the number of levels that are left.

A `Body` says what a statement stands in: the kind of body that `Return` and `Exit` leave, and the
loops and `Select` blocks around the statement.
-/

namespace Sharpen

open Model (TypeSymbol SemanticTable)

/-- The kind of a body of statements, with the type of the value that leaves it. -/
inductive BodyKind where
  /-- of a procedure, constructor or event accessor -/
  | procedure
  | function (returnType : Option TypeSymbol)
  | lambda (returnType : Option TypeSymbol)
  | getter (propertyType : Option TypeSymbol)
  | setter
  deriving DecidableEq, Inhabited

namespace BodyKind

/-- The type of the value that leaves a body, when it is known. -/
def returnType? : BodyKind → Option TypeSymbol
  | .function type => type.filter fun type => !type.isVoid
  | .lambda type => type.filter fun type => !type.isVoid
  | .getter type => type
  | .procedure => none
  | .setter => none

/-- Whether leaving a body takes a value. -/
def returnsValue : BodyKind → Bool
  | .function _ => true
  | .getter _ => true
  | .lambda type => type.any fun type => !type.isVoid
  | .procedure => false
  | .setter => false

end BodyKind

/-- What a statement stands in. -/
structure Body where
  kind : BodyKind
  isIterator : Bool
  /-- the loops and `Select` blocks around the statement, innermost first -/
  breakables : List Source.BlockKind := []
  deriving DecidableEq, Inhabited

/-- The inside of a loop or `Select` block. -/
def Body.inside (body : Body) (block : Source.BlockKind) : Body :=
  { body with breakables := block :: body.breakables }

/-- The converters of what is inside a node. -/
structure Inner where
  setting : Setting
  /-- an expression; a method named as a value is called where that is allowed -/
  expr : (autoInvoke : Bool) → Source.Expr → Convert Target.Expr
  /-- a statement, with its comments -/
  statement : Body → Source.Statement → Convert (List Target.Statement)
  /-- a declaration, without its comments -/
  declaration : Source.Declaration → Convert (List Target.Member)

namespace Inner

def table (inner : Inner) : SemanticTable :=
  inner.setting.table

/-- An expression used as a value. -/
def value (inner : Inner) (expr : Source.Expr) : Convert Target.Expr :=
  inner.expr true expr

/-- Expressions used as values, one by one. -/
def values (inner : Inner) (exprs : List Source.Expr) : Convert (List Target.Expr) :=
  exprs.mapM inner.value

/-- An expression that may be absent. -/
def value? (inner : Inner) : Option Source.Expr → Convert (Option Target.Expr)
  | some expr => return some (← inner.value expr)
  | none => return none

/-- Statements one after the other. -/
def statements (inner : Inner) (body : Body) (statements : List Source.Statement) :
    Convert (List Target.Statement) := do
  return (← statements.mapM (inner.statement body)).flatten

end Inner

end Sharpen
