import Sharpen.Source.Kind

/-!
# The nodes inside a statement

The numbers of a statement and of every statement, expression, argument, declared name, `Catch`
block and lambda parameter inside it, in the order in which they are written. Names, types,
attributes and the default values of parameters are not entered.
-/

namespace Sharpen.Source

mutual

def Expr.nodeIds : Expr → List NodeId
  | .interpolated id contents => id :: Content.listNodeIds contents
  | .memberAccess id receiver _ => id :: Expr.optionNodeIds receiver
  | .conditionalAccess id receiver whenNotNull => id :: (receiver.nodeIds ++ whenNotNull.nodeIds)
  | .invocation id target arguments => id :: (target.nodeIds ++ Argument.listNodeIds arguments)
  | .objectCreation id _ arguments initializer =>
    id :: (Argument.optionNodeIds arguments ++ initializer.nodeIds)
  | .arrayCreation id _ bounds _ _ items =>
    id :: (Argument.optionNodeIds bounds ++ Expr.listNodeIds items)
  | .collection id items => id :: Expr.listNodeIds items
  | .binary id _ left right => id :: (left.nodeIds ++ right.nodeIds)
  | .binaryConditional id first second => id :: (first.nodeIds ++ second.nodeIds)
  | .ternaryConditional id condition whenTrue whenFalse =>
    id :: (condition.nodeIds ++ whenTrue.nodeIds ++ whenFalse.nodeIds)
  | .unary id _ operand => id :: operand.nodeIds
  | .parenthesized id operand => id :: operand.nodeIds
  | .cast id _ operand _ => id :: operand.nodeIds
  | .predefinedCast id _ operand => id :: operand.nodeIds
  | .typeOf id operand _ _ => id :: operand.nodeIds
  | .nameOf id operand => id :: operand.nodeIds
  | .await id operand => id :: operand.nodeIds
  | .lambda id _ _ parameters _ body => id :: (parameters.map (·.id) ++ body.nodeIds)
  | .anonymousObject id fields => id :: FieldValue.listNodeIds fields
  | .name simple => [simple.id]
  | .literal id _ | .global id | .predefinedType id _ | .me id | .myBase id | .myClass id
  | .getType id _ | .query id _ | .xmlLiteral id _ => [id]

def Expr.listNodeIds : List Expr → List NodeId
  | [] => []
  | value :: rest => value.nodeIds ++ Expr.listNodeIds rest

def Expr.optionNodeIds : Option Expr → List NodeId
  | none => []
  | some value => value.nodeIds

def Argument.nodeIds : Argument → List NodeId
  | .simple id _ value => id :: value.nodeIds
  | .omitted id => [id]

def Argument.listNodeIds : List Argument → List NodeId
  | [] => []
  | argument :: rest => argument.nodeIds ++ Argument.listNodeIds rest

def Argument.optionNodeIds : Option (List Argument) → List NodeId
  | none => []
  | some arguments => Argument.listNodeIds arguments

def Content.nodeIds : Content → List NodeId
  | .text _ => []
  | .hole _ value alignment _ => value.nodeIds ++ Expr.optionNodeIds alignment

def Content.listNodeIds : List Content → List NodeId
  | [] => []
  | content :: rest => content.nodeIds ++ Content.listNodeIds rest

def Initializer.nodeIds : Initializer → List NodeId
  | .absent => []
  | .collection _ items => Expr.listNodeIds items
  | .members fields => FieldValue.listNodeIds fields

def FieldValue.nodeIds : FieldValue → List NodeId
  | ⟨_, _, value⟩ => value.nodeIds

def FieldValue.listNodeIds : List FieldValue → List NodeId
  | [] => []
  | field :: rest => field.nodeIds ++ FieldValue.listNodeIds rest

def LambdaBody.nodeIds : LambdaBody → List NodeId
  | .expression value => value.nodeIds
  | .statement only => only.nodeIds
  | .block statements => Statement.listNodeIds statements

def DeclaredName.nodeIds : DeclaredName → List NodeId
  | ⟨id, _, _, arrayBounds, _⟩ => id :: Argument.optionNodeIds arrayBounds

def DeclaredName.listNodeIds : List DeclaredName → List NodeId
  | [] => []
  | name :: rest => name.nodeIds ++ DeclaredName.listNodeIds rest

def AsClause.nodeIds : AsClause → List NodeId
  | .absent => []
  | .simple _ _ => []
  | .new creation => creation.nodeIds

def Declarator.nodeIds : Declarator → List NodeId
  | ⟨names, asClause, initializer⟩ =>
    DeclaredName.listNodeIds names ++ asClause.nodeIds ++ Expr.optionNodeIds initializer

def Declarator.listNodeIds : List Declarator → List NodeId
  | [] => []
  | declarator :: rest => declarator.nodeIds ++ Declarator.listNodeIds rest

def Statement.nodeIds : Statement → List NodeId
  | ⟨id, kind, _⟩ => id :: kind.nodeIds

def Statement.listNodeIds : List Statement → List NodeId
  | [] => []
  | statement :: rest => statement.nodeIds ++ Statement.listNodeIds rest

def Statement.optionNodeIds : Option (List Statement) → List NodeId
  | none => []
  | some statements => Statement.listNodeIds statements

/-- The nodes inside a statement of each kind. -/
def StatementKind.nodeIds : StatementKind → List NodeId
  | .localDeclaration _ declarators => Declarator.listNodeIds declarators
  | .expression value => value.nodeIds
  | .call value => value.nodeIds
  | .yield value => value.nodeIds
  | .assignment _ left right => left.nodeIds ++ right.nodeIds
  | .return value => Expr.optionNodeIds value
  | .throw value => Expr.optionNodeIds value
  | .raiseEvent name arguments => name.id :: Argument.listNodeIds arguments
  | .addHandler event handler => event.nodeIds ++ handler.nodeIds
  | .removeHandler event handler => event.nodeIds ++ handler.nodeIds
  | .singleLineIf condition statements elseStatements =>
    condition.nodeIds ++ Statement.listNodeIds statements ++ Statement.optionNodeIds elseStatements
  | .multiLineIf condition statements elseIfs elseStatements =>
    condition.nodeIds ++ Statement.listNodeIds statements ++ ElseIfBlock.listNodeIds elseIfs ++
      Statement.optionNodeIds elseStatements
  | .for control start limit step statements =>
    control.nodeIds ++ start.nodeIds ++ limit.nodeIds ++ Expr.optionNodeIds step ++
      Statement.listNodeIds statements
  | .forEach control items statements =>
    control.nodeIds ++ items.nodeIds ++ Statement.listNodeIds statements
  | .select subject cases => subject.nodeIds ++ CaseBlock.listNodeIds cases
  | .with target statements => target.nodeIds ++ Statement.listNodeIds statements
  | .syncLock subject statements => subject.nodeIds ++ Statement.listNodeIds statements
  | .while condition statements => condition.nodeIds ++ Statement.listNodeIds statements
  | .try statements catches finallyStatements =>
    Statement.listNodeIds statements ++ CatchBlock.listNodeIds catches ++
      Statement.optionNodeIds finallyStatements
  | .usingValue resource statements => resource.nodeIds ++ Statement.listNodeIds statements
  | .usingVariables resources statements =>
    Declarator.listNodeIds resources ++ Statement.listNodeIds statements
  | .doLoop top bottom statements =>
    top.nodeIds ++ bottom.nodeIds ++ Statement.listNodeIds statements
  | .reDim _ clauses => Expr.listNodeIds clauses
  | .erase targets => Expr.listNodeIds targets
  | .exit _ | .continue _ | .stop | .end | .onErrorGoTo _ | .onErrorResumeNext | .resume _
  | .goTo _ | .label _ => []

def ElseIfBlock.nodeIds : ElseIfBlock → List NodeId
  | ⟨condition, statements, _⟩ => condition.nodeIds ++ Statement.listNodeIds statements

def ElseIfBlock.listNodeIds : List ElseIfBlock → List NodeId
  | [] => []
  | block :: rest => block.nodeIds ++ ElseIfBlock.listNodeIds rest

def CaseClause.nodeIds : CaseClause → List NodeId
  | .simple value => value.nodeIds
  | .relational _ value => value.nodeIds
  | .range lower upper => lower.nodeIds ++ upper.nodeIds
  | .else => []

def CaseClause.listNodeIds : List CaseClause → List NodeId
  | [] => []
  | clause :: rest => clause.nodeIds ++ CaseClause.listNodeIds rest

def CaseBlock.nodeIds : CaseBlock → List NodeId
  | ⟨clauses, statements, _⟩ => CaseClause.listNodeIds clauses ++ Statement.listNodeIds statements

def CaseBlock.listNodeIds : List CaseBlock → List NodeId
  | [] => []
  | block :: rest => block.nodeIds ++ CaseBlock.listNodeIds rest

def CatchBlock.nodeIds : CatchBlock → List NodeId
  | ⟨id, _, _, filter, statements, _⟩ =>
    id :: (Expr.optionNodeIds filter ++ Statement.listNodeIds statements)

def CatchBlock.listNodeIds : List CatchBlock → List NodeId
  | [] => []
  | block :: rest => block.nodeIds ++ CatchBlock.listNodeIds rest

def LoopControl.nodeIds : LoopControl → List NodeId
  | .declarator own => own.nodeIds
  | .existing target => target.nodeIds

def LoopTest.nodeIds : LoopTest → List NodeId
  | .absent => []
  | .present _ condition => condition.nodeIds

end

end Sharpen.Source
