import Sharpen.Convert.Attach
import Sharpen.Convert.Variable

/-!
# Loops

`For` counts up unless its step is negative: then the comparison with the limit is turned round.
-/

namespace Sharpen

open Target (TypeSyntax Variables)

/-- Statements as the body of another statement: one statement stands alone unless it declares a
variable or has comments. -/
def embedded : List Target.Statement → Target.Statement
  | [.localDeclaration modifiers declared] => .block [.localDeclaration modifiers declared]
  | [.commented trivia inner] => .block [.commented trivia inner]
  | [single] => single
  | statements => .block statements

/-- A minus sign before the rest, under any number of parentheses. -/
def Source.Expr.isNegated : Source.Expr → Bool
  | .parenthesized _ operand => operand.isNegated
  | .unary _ .minus _ => true
  | _ => false

/-- The type of a loop variable: what it says, or what its initial value says. -/
def Source.AsClause.loopType : Source.AsClause → Except ConversionError Target.TypeSyntax
  | .simple _ type => type.convert
  | _ => .ok .var

namespace Inner

/-- The body of a loop: inside it, the loop is what a jump reaches. -/
def loopBody (inner : Inner) (body : Body) (block : Source.BlockKind)
    (statements : List Source.Statement) : Convert Target.Statement := do
  return embedded (← inner.statements (body.inside block) statements)

/-- The variable of a `For` loop, and how the loop opens. A variable that is not there yet is
declared by the loop. -/
def forOpening (inner : Inner) (id : Source.NodeId) (control : Source.LoopControl)
    (start : Source.Expr) : Convert (Target.Expr × Target.Opening) :=
  match control with
  | .declarator ⟨[name], asClause, _⟩ => do
    let identifier := convertIdentifier name.identifier
    let type ← asClause.loopType
    let start ← inner.value start
    return (.identifier identifier, .declared (.single type identifier (some start)))
  | .declarator _ =>
    Convert.unsupported "ForBlock" "a loop declares exactly one control variable"
  | .existing target => do
    let converted ← inner.value target
    let start ← inner.value start
    let assigned : Target.Opening := .expressions [.assignment converted .simple start]
    match target with
    | .name simple =>
      if inner.table.isNameInScope id simple.unescaped then return (converted, assigned)
      else
        let identifier := convertIdentifier simple.identifier
        return (converted, .declared (.single .var identifier (some start)))
    | _ => return (converted, assigned)

/-- The step of a `For` loop: whether the loop counts down, and what happens after each turn. -/
def forStep (inner : Inner) (counter : Target.Expr) (step : Option Source.Expr) :
    Convert (Bool × Target.Expr) := do
  match step with
  | none => return (false, .postfixUnary counter .increment)
  | some step =>
    let descends := step.isNegated || (inner.table.integer? step.id).any (· < 0)
    return (descends, .assignment counter .add (← inner.value step))

/-- `For`. -/
def forLoop (inner : Inner) (body : Body) (id : Source.NodeId) (control : Source.LoopControl)
    (start limit : Source.Expr) (step : Option Source.Expr) (statements : List Source.Statement) :
    Convert Target.Statement := do
  let (counter, opening) ← inner.forOpening id control start
  let limit ← inner.value limit
  let (descends, increment) ← inner.forStep counter step
  let comparison : Target.BinaryOperator :=
    if descends then .greaterThanOrEqual else .lessThanOrEqual
  return .for opening (some (.binary counter comparison limit)) [increment]
    (← inner.loopBody body .for statements)

/-- The variable of a `For Each` loop, which the target always declares. -/
def forEachVariable : Source.LoopControl → Convert (TypeSyntax × String)
  | .declarator ⟨[name], asClause, _⟩ => do
    return (← asClause.loopType, convertIdentifier name.identifier)
  | .declarator _ =>
    Convert.unsupported "ForEachBlock" "a loop declares exactly one control variable"
  | .existing (.name simple) => return (.var, convertIdentifier simple.identifier)
  | .existing _ =>
    Convert.unsupported "ForEachBlock" "the control variable must be a simple name"

/-- `For Each`. -/
def forEachLoop (inner : Inner) (body : Body) (control : Source.LoopControl) (items : Source.Expr)
    (statements : List Source.Statement) : Convert Target.Statement := do
  let (type, identifier) ← forEachVariable control
  let items ← inner.value items
  return .forEach type identifier items (← inner.loopBody body .for statements)

/-- `While`. -/
def whileLoop (inner : Inner) (body : Body) (condition : Source.Expr)
    (statements : List Source.Statement) : Convert Target.Statement := do
  let condition ← inner.value condition
  return .while condition (← inner.loopBody body .while statements)

/-- The condition under which a `Do` loop goes on. -/
def goesOn (inner : Inner) (kind : Source.TestKind) (condition : Source.Expr) :
    Convert Target.Expr := do
  let condition ← inner.value condition
  match kind with
  | .while => return condition
  | .until => return .prefixUnary .logicalNot condition

/-- `Do`. A test at the top comes before the first turn, one at the bottom after it; without a test
the loop runs until it is left. -/
def doLoop (inner : Inner) (body : Body) (top bottom : Source.LoopTest)
    (statements : List Source.Statement) : Convert Target.Statement :=
  match top, bottom with
  | .present kind condition, .absent => do
    let condition ← inner.goesOn kind condition
    return .while condition (← inner.loopBody body .do statements)
  | .absent, .present kind condition => do
    let converted ← inner.statements (body.inside .do) statements
    return .do (.block converted) (← inner.goesOn kind condition)
  | .absent, .absent =>
    return .while (.literal (.bool true)) (← inner.loopBody body .do statements)
  | .present .., .present .. =>
    Convert.unsupported "DoLoopBlock" "a loop cannot test its condition at both ends"

end Inner

end Sharpen
