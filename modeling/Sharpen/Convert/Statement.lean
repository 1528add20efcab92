import Sharpen.Convert.Block
import Sharpen.Convert.Jump
import Sharpen.Convert.Operator

/-!
# Statements

The rule for every kind of statement. Most statements become one; a declaration of local variables
becomes one for each type.
-/

namespace Sharpen

/-- A name as such, which calls nothing. -/
def Target.Expr.isBareName : Target.Expr → Bool
  | .identifier _ | .generic .. | .memberAccess .. | .memberBinding _ => true
  | _ => false

namespace Inner

/-- A declaration of local variables. -/
def localDeclaration (inner : Inner) (modifiers : List Source.Modifier)
    (declarators : List Source.Declarator) : Convert (List Target.Statement) := do
  let converted ← Modifiers.convert .local modifiers
  let site : DeclaratorSite := if modifiers.contains .const then .constant else .local
  let declared ← inner.variableLists site declarators
  return declared.map (.localDeclaration converted)

/-- An expression as a statement. A method that is only named is called. -/
def expressionStatement (inner : Inner) (value : Source.Expr) : Convert Target.Statement := do
  let converted ← inner.value value
  let isMethod := (inner.table.resolve? value.id).any (·.isMethod)
  if converted.isBareName && isMethod then return .expression (.invocation converted [])
  else return .expression converted

def assignment (inner : Inner) (operator : Source.AssignmentOperator) (left right : Source.Expr) :
    Convert Target.Statement := do
  let left ← inner.value left
  let operator ← operator.convert
  return .expression (.assignment left operator (← inner.value right))

/-- `RaiseEvent`: an event without handlers does nothing. -/
def raiseEvent (inner : Inner) (name : Source.SimpleName) (arguments : List Source.Argument) :
    Convert Target.Statement := do
  let arguments ← inner.arguments none arguments
  return .expression (.conditionalAccess (.identifier (convertIdentifier name.identifier))
    (.invocation (.memberBinding "Invoke") arguments))

/-- `AddHandler` and `RemoveHandler`. -/
def handler (inner : Inner) (operator : Target.AssignmentOperator) (event handler : Source.Expr) :
    Convert Target.Statement := do
  let event ← inner.value event
  return .expression (.assignment event operator (← inner.value handler))

/-- A call of a method of the runtime. -/
def runtimeCall (path : String) (values : List Target.Expr) : Target.Statement :=
  .expression (.call (.dotted path) values)

/-- `SyncLock`. -/
def lock (inner : Inner) (body : Body) (subject : Source.Expr)
    (statements : List Source.Statement) : Convert Target.Statement := do
  let subject ← inner.value subject
  return .lock subject (.block (← inner.statements body statements))

end Inner

/-- The rule for a statement, without its comments. -/
def Source.Statement.convertKind (inner : Inner) (body : Body) (statement : Source.Statement) :
    Convert (List Target.Statement) :=
  match statement.kind with
  | .localDeclaration modifiers declarators => inner.localDeclaration modifiers declarators
  | .expression value => return [← inner.expressionStatement value]
  | .call value => return [← inner.expressionStatement value]
  | .assignment operator left right => return [← inner.assignment operator left right]
  | .return value => return [body.leaveWith (← inner.value? value)]
  | .exit block => return [← body.exit block]
  | .continue block => return [← body.resume block]
  | .throw value => return [.throw (← inner.value? value)]
  | .yield value => return [.yieldReturn (← inner.value value)]
  | .raiseEvent name arguments => return [← inner.raiseEvent name arguments]
  | .addHandler event handler => return [← inner.handler .add event handler]
  | .removeHandler event handler => return [← inner.handler .subtract event handler]
  | .singleLineIf condition statements elseStatements =>
    return [← inner.ifChain body condition statements elseStatements []]
  | .multiLineIf condition statements elseIfs elseStatements =>
    return [← inner.ifChain body condition statements elseStatements elseIfs]
  | .for control start limit step statements =>
    return [← inner.forLoop body statement.id control start limit step statements]
  | .forEach control items statements => return [← inner.forEachLoop body control items statements]
  | .while condition statements => return [← inner.whileLoop body condition statements]
  | .doLoop top bottom statements => return [← inner.doLoop body top bottom statements]
  | .select subject cases => return [← inner.select body subject cases]
  | .with target statements => return [← inner.withBlock body statement target statements]
  | .try statements catches finallyStatements =>
    return [← inner.tryBlock body statements catches finallyStatements]
  | .syncLock subject statements => return [← inner.lock body subject statements]
  | .usingValue resource statements => return [← inner.usingValue body resource statements]
  | .usingVariables resources statements =>
    return [← inner.usingVariables body resources statements]
  | .stop => return [Inner.runtimeCall "System.Diagnostics.Debugger.Break" []]
  | .end => return [Inner.runtimeCall "System.Environment.Exit" [.number "0"]]
  | .onErrorGoTo _ | .onErrorResumeNext | .resume _ | .reDim .. | .erase _ | .goTo _ | .label _ =>
    Convert.unimplemented statement.kind.kindName

end Sharpen
