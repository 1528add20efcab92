import Sharpen.Source.Declaration

/-!
# Numbers and kinds of nodes

The number of a node and the name of its syntactic kind, under which error messages speak of it.
-/

namespace Sharpen.Source

namespace Expr

/-- The number of an expression. -/
def id : Expr → NodeId
  | .name simple => simple.id
  | .literal id _ | .interpolated id _ | .global id | .predefinedType id _ | .me id | .myBase id
  | .myClass id | .memberAccess id _ _ | .conditionalAccess id _ _ | .invocation id _ _
  | .objectCreation id _ _ _ | .arrayCreation id _ _ _ _ _ | .collection id _ | .binary id _ _ _
  | .unary id _ _ | .parenthesized id _ | .binaryConditional id _ _ | .ternaryConditional id _ _ _
  | .cast id _ _ _ | .predefinedCast id _ _ | .typeOf id _ _ _ | .getType id _ | .nameOf id _
  | .await id _ | .lambda id _ _ _ _ _ | .anonymousObject id _ | .query id _ | .xmlLiteral id _ =>
    id

def kindName : Expr → String
  | .literal .. => "LiteralExpression"
  | .interpolated .. => "InterpolatedStringExpression"
  | .name simple => if simple.isGeneric then "GenericName" else "IdentifierName"
  | .global _ => "GlobalName"
  | .predefinedType .. => "PredefinedType"
  | .me _ => "MeExpression"
  | .myBase _ => "MyBaseExpression"
  | .myClass _ => "MyClassExpression"
  | .memberAccess .. => "MemberAccessExpression"
  | .conditionalAccess .. => "ConditionalAccessExpression"
  | .invocation .. => "InvocationExpression"
  | .objectCreation .. => "ObjectCreationExpression"
  | .arrayCreation .. => "ArrayCreationExpression"
  | .collection .. => "CollectionInitializer"
  | .binary .. => "BinaryExpression"
  | .unary .. => "UnaryExpression"
  | .parenthesized .. => "ParenthesizedExpression"
  | .binaryConditional .. => "BinaryConditionalExpression"
  | .ternaryConditional .. => "TernaryConditionalExpression"
  | .cast _ .ctype _ _ => "CTypeExpression"
  | .cast _ .directCast _ _ => "DirectCastExpression"
  | .cast _ .tryCast _ _ => "TryCastExpression"
  | .predefinedCast .. => "PredefinedCastExpression"
  | .typeOf .. => "TypeOfExpression"
  | .getType .. => "GetTypeExpression"
  | .nameOf .. => "NameOfExpression"
  | .await .. => "AwaitExpression"
  | .lambda .. => "LambdaExpression"
  | .anonymousObject .. => "AnonymousObjectCreationExpression"
  | .query .. => "QueryExpression"
  | .xmlLiteral .. => "XmlLiteralExpression"

def isNothing : Expr → Bool
  | .literal _ .nothing => true
  | _ => false

end Expr

/-- The number of an argument. -/
def Argument.id : Argument → NodeId
  | .simple id _ _ => id
  | .omitted id => id

def StatementKind.kindName : StatementKind → String
  | .localDeclaration .. => "LocalDeclarationStatement"
  | .expression _ => "ExpressionStatement"
  | .call _ => "CallStatement"
  | .assignment .. => "AssignmentStatement"
  | .return _ => "ReturnStatement"
  | .exit _ => "ExitStatement"
  | .continue _ => "ContinueStatement"
  | .throw _ => "ThrowStatement"
  | .yield _ => "YieldStatement"
  | .raiseEvent .. => "RaiseEventStatement"
  | .addHandler .. => "AddHandlerStatement"
  | .removeHandler .. => "RemoveHandlerStatement"
  | .singleLineIf .. => "SingleLineIfStatement"
  | .multiLineIf .. => "MultiLineIfBlock"
  | .for .. => "ForBlock"
  | .forEach .. => "ForEachBlock"
  | .select .. => "SelectBlock"
  | .with .. => "WithBlock"
  | .try .. => "TryBlock"
  | .syncLock .. => "SyncLockBlock"
  | .usingValue .. => "UsingBlock"
  | .usingVariables .. => "UsingBlock"
  | .while .. => "WhileBlock"
  | .doLoop .. => "DoLoopBlock"
  | .stop => "StopStatement"
  | .end => "EndStatement"
  | .onErrorGoTo _ => "OnErrorGoToStatement"
  | .onErrorResumeNext => "OnErrorResumeNextStatement"
  | .resume _ => "ResumeStatement"
  | .reDim .. => "ReDimStatement"
  | .erase _ => "EraseStatement"
  | .goTo _ => "GoToStatement"
  | .label _ => "LabelStatement"

def TypeBlockKind.kindName : TypeBlockKind → String
  | .class => "ClassBlock"
  | .module => "ModuleBlock"
  | .structure => "StructureBlock"
  | .interface => "InterfaceBlock"

def DeclarationKind.kindName : DeclarationKind → String
  | .namespace .. => "NamespaceBlock"
  | .type block .. => block.kindName
  | .enum .. => "EnumBlock"
  | .delegate .. => "DelegateStatement"
  | .field .. => "FieldDeclaration"
  | .property .. => "PropertyBlock"
  | .method .. => "MethodBlock"
  | .constructor .. => "ConstructorBlock"
  | .operator .. => "OperatorBlock"
  | .event .. => "EventStatement"
  | .externalMethod .. => "DeclareStatement"

end Sharpen.Source
