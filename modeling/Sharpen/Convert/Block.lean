import Sharpen.Convert.Loop
import Sharpen.Convert.Receiver
import Sharpen.Source.Walk

/-!
# Blocks

`If`, `Select`, `With`, `Try` and `Using`.
-/

namespace Sharpen

open Target (TypeSyntax)

/-- Puts the comments of an `ElseIf` header into the branch that it opens. -/
def headerIntoBranch (trivia : Trivia) (statement : Target.Statement) : Target.Statement :=
  if trivia.isEmpty then statement
  else
    match statement with
    | .if condition (.block statements) elseBody =>
      .if condition (.block (attachHeader trivia statements)) elseBody
    | .if condition single elseBody =>
      .if condition (.block (attachHeader trivia [single])) elseBody
    | other => other

/-- The branch of an `if`. An `if` without braces would take the `else` for its own. -/
def thenBranch (hasElse : Bool) (statements : List Target.Statement) : Target.Statement :=
  match embedded statements with
  | .if condition inner elseBody =>
    if hasElse then .block [.if condition inner elseBody] else .if condition inner elseBody
  | other => other

/-- The statements of a `Case`: it never runs into the next one, and its variables are its own. -/
def sectionBody (statements : List Target.Statement) : List Target.Statement :=
  let closed :=
    if statements.getLast?.any Target.Statement.isJump then statements else statements ++ [.break]
  if closed.any Target.Statement.isLocalDeclaration then [.block closed] else closed

/-- The name of the variables that hold the targets of `With` blocks. -/
def withVariable : String := "withBlock"

namespace Inner

/-- `If` with its `ElseIf` blocks: each one is the `else` branch of the one before it. -/
def ifChain (inner : Inner) (body : Body) (condition : Source.Expr)
    (statements : List Source.Statement) (elseStatements : Option (List Source.Statement)) :
    List Source.ElseIfBlock → Convert Target.Statement
  | [] => do
    let condition ← inner.value condition
    let branch ← inner.statements body statements
    match elseStatements with
    | none => return .if condition (thenBranch false branch) none
    | some elseStatements =>
      let elseBranch ← inner.statements body elseStatements
      return .if condition (thenBranch true branch) (some (embedded elseBranch))
  | block :: rest => do
    let condition ← inner.value condition
    let branch ← inner.statements body statements
    let chained ← inner.ifChain body block.condition block.statements elseStatements rest
    return .if condition (thenBranch true branch) (some (headerIntoBranch block.trivia chained))

/-- A label of a `switch`: a value, or none for `default`. -/
def switchLabel (inner : Inner) : Source.CaseClause → Convert (Option Target.Expr)
  | .simple value => return some (← inner.value value)
  | .else => return none
  | .relational .. =>
    Convert.unsupported "RelationalCaseClause" "switch labels must be single values"
  | .range .. => Convert.unsupported "RangeCaseClause" "switch labels must be single values"

def switchSection (inner : Inner) (body : Body) (block : Source.CaseBlock) :
    Convert Target.SwitchSection := do
  let labels ← block.clauses.mapM inner.switchLabel
  let statements ← inner.statements (body.inside .select) block.statements
  return ⟨labels, sectionBody (attachHeader block.trivia statements)⟩

/-- `Select`. -/
def select (inner : Inner) (body : Body) (subject : Source.Expr) (cases : List Source.CaseBlock) :
    Convert Target.Statement := do
  let subject ← inner.value subject
  return .switch subject (← cases.mapM (inner.switchSection body))

/-- The names that are visible anywhere in a statement. -/
def namesInside (inner : Inner) (statement : Source.Statement) : List String :=
  statement.nodeIds.flatMap inner.table.namesInScope

/-- `With`: the target is evaluated once, outside the block, and kept in a variable. -/
def withBlock (inner : Inner) (body : Body) (whole : Source.Statement) (target : Source.Expr)
    (statements : List Source.Statement) : Convert Target.Statement := do
  let target ← inner.value target
  let name ← uniqueName (← get).receivers withVariable (inner.namesInside whole)
  let converted ← Convert.withReceiver name (inner.statements body statements)
  return .block (.localVariable .var name (some target) :: converted)

/-- What a `Catch` block catches. Without `As` the type comes from the model. -/
def catchHeader (inner : Inner) (block : Source.CatchBlock) : Convert Target.CatchHeader :=
  match block.identifier, block.asType with
  | none, none => return .all
  | identifier, some type =>
    return .typed (← type.convert) (identifier.map convertIdentifier)
  | some identifier, none =>
    let known := ((inner.table.declaredSymbol? block.id).bind (·.type)).filter fun type =>
      !type.isError
    let type :=
      match known with
      | some type => type.written
      | none => TypeSyntax.dotted "System.Exception"
    return .typed type (some (convertIdentifier identifier))

def catchClause (inner : Inner) (body : Body) (block : Source.CatchBlock) :
    Convert Target.CatchClause := do
  let header ← inner.catchHeader block
  let filter ← inner.value? block.filter
  let statements ← inner.statements body block.statements
  return ⟨header, filter, attachHeader block.trivia statements⟩

/-- `Try`. -/
def tryBlock (inner : Inner) (body : Body) (statements : List Source.Statement)
    (catches : List Source.CatchBlock) (finallyStatements : Option (List Source.Statement)) :
    Convert Target.Statement := do
  let converted ← inner.statements body statements
  let catches ← catches.mapM (inner.catchClause body)
  match finallyStatements with
  | none => return .try converted catches none
  | some statements => return .try converted catches (some (← inner.statements body statements))

/-- `Using` with a value. -/
def usingValue (inner : Inner) (body : Body) (resource : Source.Expr)
    (statements : List Source.Statement) : Convert Target.Statement := do
  let resource ← inner.value resource
  return .using (.expressions [resource]) (.block (← inner.statements body statements))

/-- `Using` with variables. Resources are given back in reverse order, so the first one is
outermost. -/
def usingVariables (inner : Inner) (body : Body) (resources : List Source.Declarator)
    (statements : List Source.Statement) : Convert Target.Statement := do
  let declared ← inner.variableLists .local resources
  if declared.isEmpty then
    Convert.unsupported "UsingBlock" "a using block needs at least one resource"
  else
    let converted ← inner.statements body statements
    return declared.foldr (fun group rest => .using (.declared group) rest)
      (.block converted)

end Inner

end Sharpen
